import LetScript.Proofs.Effects
import LetScript.Proofs.Evaluation
import LetScript.Proofs.Operators
import LetScript.Proofs.Relabeling

/-
  Runs with other names, lines and files.

  Bindings agree on some names when each of these, renamed, has in the one the value that it has in
  the other, or is free in both (`Env.Agrees`). Nothing is asked of other names. An expression and
  its relabeled form then have the same value, or faults that correspond (`meaning_relabel`), and
  statements have corresponding effects (`effect_relabel`). A `let` keeps the bindings in agreement
  as long as no two of the names get the same name (`Env.Agrees.bind`), so agreement is kept through
  a whole run (`execute_relabel`).

  Main statement: `run_up_to_names`.
-/

namespace LetScript

open LetScript.Tree

namespace Tree

mutual

/-- The names that a tree uses or binds. -/
def names : Tree → List String
  | .identifier name _ => [name]
  | .operation _ left _ right _ => names left ++ names right
  | .binding name _ value _ => name :: names value
  | .printing value _ | .returning value _ => names value
  | .program statements => namesAll statements
  | .integer .. | .string .. | .boolean .. | .absent => []

/-- The names that the trees of a list use or bind. -/
def namesAll : List Tree → List String
  | [] => []
  | t :: ts => names t ++ namesAll ts

end

theorem names_subset_namesAll {s : Tree} {ss : List Tree} (h : s ∈ ss) : s.names ⊆ namesAll ss := by
  induction ss with
  | nil => cases h
  | cons t ss ih =>
    rw [namesAll]
    obtain rfl | h := List.mem_cons.1 h
    · exact List.subset_append_left _ _
    · exact List.Subset.trans (ih h) (List.subset_append_right _ _)

end Tree

/-- An effect with a new name, or with its fault relabeled. -/
def Effect.relabel (m : Relabeling) : Effect → Effect
  | .bind name v => .bind (m.name name) v
  | .write text => .write text
  | .finish v => .finish v
  | .fail f => .fail (f.relabel m)

/-- The ending of a run with its fault relabeled. -/
def Ending.relabel (m : Relabeling) : Ending → Ending
  | .failed f => .failed (f.relabel m)
  | ending => ending

/-- The bindings give some names, renamed, the values that others give these names. -/
def Env.Agrees (r : String → String) (names : List String) (env env' : Env) : Prop :=
  ∀ x ∈ names, env'.lookup (r x) = env.lookup x

variable {m : Relabeling} {file : Option String} {line : Line} {env env' : Env}

/-! ## Operators -/

theorem checked_relabel (op : Op) (n : Int) :
    checked (m.file file) (m.line line) op n =
      (checked file line op n).mapError (Fault.relabel m) := by
  unfold checked
  split
  · rfl
  · exact congrArg Except.error (Fault.relabel_raised file line (.overflow op n)).symm

/-- Joining has no fault with a place. -/
theorem joined_relabel (lhs rhs : Value) :
    joined lhs rhs = (joined lhs rhs).mapError (Fault.relabel m) := by
  cases h : joined lhs rhs with
  | ok v => rfl
  | error f =>
    obtain rfl := eq_unwritable_of_joined h
    exact congrArg Except.error Fault.relabel_unwritable.symm

theorem quotient_relabel (a b : Int) :
    quotient (m.file file) (m.line line) a b =
      (quotient file line a b).mapError (Fault.relabel m) := by
  unfold quotient
  split
  · rfl
  · exact checked_relabel .div (a.tdiv b)

theorem onIntegers_relabel {op : Op} {compute compute' : Int → Int → Except Fault Value}
    (h : ∀ a b, compute' a b = (compute a b).mapError (Fault.relabel m)) (lhs rhs : Value) :
    onIntegers (m.file file) (m.line line) op compute' lhs rhs =
      (onIntegers file line op compute lhs rhs).mapError (Fault.relabel m) := by
  cases lhs <;> cases rhs <;> first | exact h _ _ | rfl

theorem onBooleans_relabel {op : Op} (compute : Bool → Bool → Bool) (lhs rhs : Value) :
    onBooleans (m.file file) (m.line line) op compute lhs rhs =
      (onBooleans file line op compute lhs rhs).mapError (Fault.relabel m) := by
  cases lhs <;> cases rhs <;> rfl

/-- An operator's outcome depends on its line and file in the place of its fault only. -/
theorem apply_relabel (family : Family) (op : Op) (lhs rhs : Value) :
    family.apply (m.file file) (m.line line) op lhs rhs =
      (family.apply file line op lhs rhs).mapError (Fault.relabel m) := by
  cases family with
  | arithmetic =>
    cases op with
    | add =>
      simp only [Family.apply, applyArithmetic]
      split
      · exact joined_relabel lhs rhs
      · exact onIntegers_relabel (fun a b => checked_relabel .add (a + b)) lhs rhs
    | sub => exact onIntegers_relabel (fun a b => checked_relabel .sub (a - b)) lhs rhs
    | mul => exact onIntegers_relabel (fun a b => checked_relabel .mul (a * b)) lhs rhs
    | div => exact onIntegers_relabel quotient_relabel lhs rhs
    | and | or | other => rfl
  | logical =>
    cases op with
    | and => exact onBooleans_relabel (· && ·) lhs rhs
    | or => exact onBooleans_relabel (· || ·) lhs rhs
    | add | sub | mul | div | other => rfl

/-! ## Expressions and statements -/

theorem Env.Agrees.mono {r : String → String} {xs ys : List String} (h : Env.Agrees r ys env env')
    (hsub : xs ⊆ ys) : Env.Agrees r xs env env' :=
  fun x hx => h x (hsub hx)

/-- An expression and its relabeled form have the same value or corresponding faults, where the
    bindings agree on the names in it. -/
theorem meaning_relabel (file : Option String) {t : Tree} (h : Env.Agrees m.name t.names env env') :
    (t.relabel m).meaning (m.file file) env' =
      (t.meaning file env).mapError (Fault.relabel m) := by
  induction t using operation_induction with
  | leaf t ht =>
    cases t with
    | identifier name line =>
      have hname := h name (List.mem_singleton_self name)
      simp only [relabel, meaning, leafValue, hname]
      cases env.lookup name <;> rfl
    | integer | string | boolean => rfl
    | operation => cases ht
    | _ =>
      simp only [relabel, meaning, leafValue]
      change _ = Except.error (Fault.relabel m _)
      rw [Fault.relabel_raised, m.file_none, m.line_none]
      rfl
  | operation family left op right line ihl ihr =>
    have hleft := ihl (h.mono (List.subset_append_left _ _))
    have hright := ihr (h.mono (List.subset_append_right _ _))
    rw [relabel, meaning_operation, meaning_operation, hleft, hright]
    cases left.meaning file env with
    | error f => rfl
    | ok v =>
      cases right.meaning file env with
      | error f => rfl
      | ok w => exact apply_relabel family op v w

theorem evaluate_relabel (file : Option String) {t : Tree}
    (h : Env.Agrees m.name t.names env env') :
    (t.relabel m).evaluate (m.file file) env' =
      (t.evaluate file env).mapError (Fault.relabel m) := by
  rw [evaluate, evaluate, evalFrom_nil, evalFrom_nil, meaning_relabel file h]

theorem evaluateOr_relabel (file : Option String) {t : Tree}
    (h : Env.Agrees m.name t.names env env') (default : Value) :
    (t.relabel m).evaluateOr (m.file file) env' default =
      (t.evaluateOr file env default).mapError (Fault.relabel m) := by
  unfold evaluateOr
  rw [isAbsent_relabel, evaluate_relabel file h]
  split <;> rfl

/-- A statement and its relabeled form have corresponding effects. -/
theorem effect_relabel (file : Option String) {s : Tree}
    (h : Env.Agrees m.name s.names env env') :
    (s.relabel m).effect (m.file file) env' = (s.effect file env).relabel m := by
  cases s with
  | binding name nameLine value line =>
    have hname := h name List.mem_cons_self
    have hvalue := evaluate_relabel file (h.mono (List.subset_cons_self _ _))
    simp only [relabel, effect, hname, hvalue]
    cases value.evaluate file env with
    | error f => rfl
    | ok v => cases env.lookup name <;> rfl
  | printing value line =>
    have hvalue := evaluateOr_relabel file (t := value) h (.string "")
    cases hv : value.evaluateOr file env (.string "") with
    | error f =>
      rw [relabel, effect, effect, hvalue, hv]
      rfl
    | ok v =>
      rw [hv] at hvalue
      cases htext : v.display? with
      | some text =>
        rw [relabel, effect_write hvalue htext, effect_write hv htext]
        rfl
      | none =>
        rw [relabel, effect_longWrite hvalue htext, effect_longWrite hv htext]
        exact congrArg Effect.fail Fault.relabel_unwritable.symm
  | returning value line =>
    have hvalue := evaluateOr_relabel file (t := value) h (.integer 0)
    simp only [relabel, effect, hvalue]
    cases value.evaluateOr file env (.integer 0) <;> rfl
  | _ =>
    simp only [relabel, effect, Effect.relabel, Fault.relabel_unplaced]
    rfl

/-! ## Runs -/

theorem mem_names_of_bind {s : Tree} {x : String} {v : Value} (h : s.effect file env = .bind x v) :
    x ∈ s.names := by
  cases acts_of_effect h
  exact List.mem_cons_self

theorem lookup_singleton_of_ne {x y : String} (h : y ≠ x) (v : Value) :
    List.lookup y [(x, v)] = none := by
  rw [List.lookup_eq_none_iff]
  simpa using h

/-- A new binding keeps the bindings in agreement if no other name gets the name that it gets. -/
theorem Env.Agrees.bind {r : String → String} {names : List String} {x : String}
    (h : Env.Agrees r names env env') (hx : ∀ y ∈ names, r y = r x → y = x) (v : Value) :
    Env.Agrees r names (env ++ [(x, v)]) (env' ++ [(r x, v)]) := by
  intro y hy
  rw [List.lookup_append, List.lookup_append, h y hy]
  by_cases hyx : y = x
  · subst hyx
    rw [List.lookup_cons_self, List.lookup_cons_self]
  · have hne : r y ≠ r x := fun heq => hyx (hx y hy heq)
    rw [lookup_singleton_of_ne hyx, lookup_singleton_of_ne hne]

/-- A run and the run of the relabeled statements write the same lines, end alike and add bindings
    that correspond, where the bindings agree on names that stay apart. -/
theorem execute_relabel (file : Option String) {names : List String} {ss : List Tree}
    (hinj : ∀ x ∈ names, ∀ y ∈ names, m.name x = m.name y → x = y)
    (hss : ∀ s ∈ ss, s.names ⊆ names) (h : Env.Agrees m.name names env env') :
    ∃ added, (execute file env ss).env = env ++ added ∧
      execute (m.file file) env' (ss.map (relabel m)) =
        ⟨env' ++ added.map (Prod.map m.name id), (execute file env ss).lines,
          (execute file env ss).ending.relabel m⟩ := by
  induction ss generalizing env env' with
  | nil => exact ⟨[], by simp [execute], by simp [execute, Ending.relabel]⟩
  | cons s ss ih =>
    have hnames := hss s List.mem_cons_self
    have hrest : ∀ t ∈ ss, t.names ⊆ names := fun t ht => hss t (List.mem_cons_of_mem s ht)
    have heffect := effect_relabel file (h.mono hnames)
    rw [List.map_cons]
    unfold execute
    rw [heffect]
    cases hs : s.effect file env with
    | bind x v =>
      -- The name bound is one of the names, so both sides stay in agreement.
      have hx := hnames (mem_names_of_bind hs)
      have hnext := h.bind (fun y hy => hinj y hy x hx) v
      obtain ⟨added, henv, hrun⟩ := ih hrest hnext
      refine ⟨(x, v) :: added, ?_, ?_⟩
      · rw [henv, List.append_assoc]
        rfl
      · simp only [Effect.relabel, hrun, List.append_assoc]
        rfl
    | write text =>
      obtain ⟨added, henv, hrun⟩ := ih hrest h
      refine ⟨added, henv, ?_⟩
      simp only [Effect.relabel, hrun]
    | finish v => exact ⟨[], by simp, by simp [Effect.relabel, Ending.relabel]⟩
    | fail f => exact ⟨[], by simp, by simp [Effect.relabel, Ending.relabel]⟩

/-- With other lines and files alone, a run differs only in where its fault is. -/
theorem execute_relabel_places (hm : m.name = id) (file : Option String) (env : Env)
    (ss : List Tree) :
    execute (m.file file) env (ss.map (relabel m)) =
      ⟨(execute file env ss).env, (execute file env ss).lines,
        (execute file env ss).ending.relabel m⟩ := by
  have hinj : ∀ x ∈ namesAll ss, ∀ y ∈ namesAll ss, m.name x = m.name y → x = y := by
    rw [hm]
    exact fun x _ y _ heq => heq
  have hagrees : Env.Agrees m.name (namesAll ss) env env := by
    rw [hm]
    exact fun x _ => rfl
  obtain ⟨added, henv, hrun⟩ :=
    execute_relabel file hinj (fun s hs => names_subset_namesAll hs) hagrees
  rw [hrun, henv, hm, Prod.map_id, List.map_id]

theorem Run.result_of_relabel {r r' : Run} (h : r'.ending = r.ending.relabel m) :
    r'.result = r.result.mapError (Fault.relabel m) := by
  unfold Run.result
  rw [h]
  cases r.ending <;> rfl

/-- Statements and their renamed form, run from bindings that agree on the names in them, write the
    same and have the same result or faults that differ in the names alone, and the bindings that
    they add correspond in order. No two of the names may get the same name; nothing else is asked
    of the renaming or of the bindings. -/
theorem run_up_to_names (file : Option String) (p : List Tree) (r : String → String) (env env' : Env)
    (hr : ∀ x ∈ namesAll p, ∀ y ∈ namesAll p, r x = r y → x = y)
    (henv : ∀ x ∈ namesAll p, env'.lookup (r x) = env.lookup x) :
    let first := execute file env p
    let second := execute file env' (p.map (relabel (.ofNames r)))
    second.lines = first.lines ∧
    second.result = first.result.mapError (Fault.relabel (.ofNames r)) ∧
    ∃ added, first.env = env ++ added ∧ second.env = env' ++ added.map (Prod.map r id) := by
  intro first second
  obtain ⟨added, hadded, hrun⟩ := execute_relabel (m := .ofNames r) file hr
    (fun s hs => names_subset_namesAll hs) henv
  have hsecond : second = ⟨env' ++ added.map (Prod.map r id), first.lines,
    first.ending.relabel (.ofNames r)⟩ := hrun
  exact ⟨by rw [hsecond], Run.result_of_relabel (by rw [hsecond]), added, hadded, by rw [hsecond]⟩

/-- Two names change places, and each side has a binding that the other lacks: both runs print, bind
    and fail at the second `let`, the one for `x` and the other for `a`. -/
theorem run_up_to_names_swapped :
    let r := fun x => if x = "x" then "a" else if x = "a" then "x" else x
    let p : List Tree := [.binding "x" (some 1) (.operation .arithmetic (.identifier "a" (some 1))
      .add (.integer 1 (some 1)) (some 1)) (some 1), .printing (.identifier "x" (some 2)) (some 2),
      .binding "x" (some 3) (.integer 5 (some 3)) (some 3)]
    let env : Env := [("z", .boolean true), ("a", .integer 1)]
    let env' : Env := [("x", .integer 1), ("u", .string "v")]
    let second := execute none env' (p.map (relabel (.ofNames r)))
    (∀ x ∈ namesAll p, ∀ y ∈ namesAll p, r x = r y → x = y) ∧
    (∀ x ∈ namesAll p, env'.lookup (r x) = env.lookup x) ∧
    second.lines = ["2"] ∧ second.result = .error ⟨.alreadyDefined "a", some 3, none⟩ ∧
    ∃ added, (execute none env p).env = env ++ added ∧
      second.env = env' ++ added.map (Prod.map r id) := by
  intro r p env env' second
  have hr : ∀ x ∈ namesAll p, ∀ y ∈ namesAll p, r x = r y → x = y := by decide
  have henv : ∀ x ∈ namesAll p, env'.lookup (r x) = env.lookup x := by
    intro x hx
    simp only [p, namesAll, names, List.append_nil, List.cons_append, List.nil_append,
      List.mem_cons, List.not_mem_nil, or_false] at hx
    obtain rfl | rfl | rfl | rfl := hx <;> rfl
  obtain ⟨hlines, hresult, hadded⟩ := run_up_to_names none p r env env' hr henv
  exact ⟨hr, henv, hlines, hresult, hadded⟩

end LetScript
