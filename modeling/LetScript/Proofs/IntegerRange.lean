import LetScript.Proofs.Histories
import LetScript.Proofs.Overlong
import LetScript.Proofs.RoundTrip

/-
  Integers stay in the 32-bit range over whole sessions.

  An operator gives no integer outside the range, whatever its operands are (`apply_inRange`); the
  other sources of values are literals and bindings. So an expression whose literals are in range,
  evaluated with bindings in range, has a value in range, and each `let` keeps the bindings there.
  Literals that are read from a source text are in range, because larger ones are refused. Where all
  is in range, no integer is too long to be written (`not_unwritable_of_result`).

  `Tree.Overflows` says where a fault of overflow comes from: an operator in the expression whose
  operands have integer values, with the exact result in the fault.

  Main statement: `session_integers_in_range`.
-/

namespace LetScript

open LetScript.Tree

/-- Whether the integers among the bound values are in range. -/
def Env.IsInRange (env : Env) : Prop := ∀ b ∈ env, b.2.IsInRange

theorem Env.isInRange_nil : Env.IsInRange [] := fun _ hb => absurd hb List.not_mem_nil

namespace Tree

mutual

/-- Whether the integer literals of a tree are in range. -/
def isBounded : Tree → Bool
  | .integer n _ => InRange n
  | .operation _ left _ right _ => left.isBounded && right.isBounded
  | .binding _ _ value _ | .printing value _ | .returning value _ => value.isBounded
  | .program statements => allBounded statements
  | .string .. | .boolean .. | .identifier .. | .absent => true

/-- Whether the integer literals of the trees of a list are in range. -/
def allBounded : List Tree → Bool
  | [] => true
  | t :: ts => t.isBounded && allBounded ts

end

theorem allBounded_iff {ts : List Tree} :
    allBounded ts = true ↔ ∀ t ∈ ts, t.isBounded = true := by
  induction ts with
  | nil => simp [allBounded]
  | cons t ts ih => simp [allBounded, ih]

end Tree

variable {file : Option String} {env : Env} {f : Fault}

/-! ## Expressions -/

/-- An operator that overflows has two integers, and the fault has their exact result, which is out
    of range. -/
theorem apply_overflow {family : Family} {line : Line} {op o : Op} {lhs rhs : Value} {n : Int}
    (h : family.apply file line op lhs rhs = .error f) (hf : f.cause = .overflow o n) :
    f = ⟨.overflow op n, line, file⟩ ∧ family = .arithmetic ∧
      ∃ a b, lhs = .integer a ∧ rhs = .integer b ∧ op.exactResult? a b = some n ∧ ¬InRange n := by
  cases applies_of_apply h with
  | @overflow _ a b _ hexact hout =>
    cases hf
    exact ⟨rfl, rfl, a, b, rfl, rfl, hexact, hout⟩
  | longJoin | longOverflow | byZero | mismatch | unknown => cases hf

theorem lookup_inRange {name : String} {v : Value} (henv : env.IsInRange)
    (h : env.lookup name = some v) : v.IsInRange := by
  obtain ⟨front, back, rfl, -⟩ := List.lookup_eq_some_iff.1 h
  exact henv (name, v) (by simp)

/-- An expression with literals in range has a value in range where the bindings are. -/
theorem evaluate_inRange {t : Tree} (ht : t.isBounded = true) (henv : env.IsInRange) {v : Value}
    (h : t.evaluate file env = .ok v) : v.IsInRange := by
  rw [evaluate, evalFrom_nil] at h
  cases t with
  | integer n line =>
    cases h
    have hn : InRange n := of_decide_eq_true ht
    exact hn
  | string | boolean => cases h; exact trivial
  | identifier name line =>
    simp only [meaning, leafValue] at h
    split at h
    next w hw => cases h; exact lookup_inRange henv hw
    · cases h
  | operation family left op right line =>
    obtain ⟨v, w, -, -, happly⟩ := meaning_operation_eq_ok_iff.1 h
    exact apply_inRange happly
  | _ => cases h

/-- A fault of overflow in an expression: some operator of it has operands with integer values, and
    the fault has the operator, its line and the exact result, which is out of range. -/
inductive Tree.Overflows (file : Option String) (env : Env) : Tree → Fault → Prop
  | here {left right : Tree} {op : Op} {line : Line} {a b n : Int} :
    left.evaluate file env = .ok (.integer a) → right.evaluate file env = .ok (.integer b) →
      op.exactResult? a b = some n → ¬InRange n →
      Overflows file env (.operation .arithmetic left op right line) ⟨.overflow op n, line, file⟩
  | left {family : Family} {left : Tree} {op : Op} {right : Tree} {line : Line} {f : Fault} :
    Overflows file env left f → Overflows file env (.operation family left op right line) f
  | right {family : Family} {left : Tree} {op : Op} {right : Tree} {line : Line} {f : Fault} :
    Overflows file env right f → Overflows file env (.operation family left op right line) f

theorem overflows_of_meaning {t : Tree} {op : Op} {n : Int} (h : t.meaning file env = .error f)
    (hf : f.cause = .overflow op n) : t.Overflows file env f := by
  induction t using operation_induction with
  | leaf t ht =>
    cases t with
    | identifier name line =>
      simp only [meaning, leafValue] at h
      split at h <;> cases h
      cases hf
    | operation => cases ht
    | integer | string | boolean => cases h
    | _ =>
      cases h
      obtain hcause | hcause := Fault.cause_raised none none _
      · cases hcause.symm.trans hf
      · cases hcause.symm.trans hf
  | operation family left op right line ihl ihr =>
    obtain hl | ⟨v, hl, hr | ⟨w, hr, happly⟩⟩ := meaning_operation_eq_error_iff.1 h
    · exact .left (ihl hl)
    · exact .right (ihr hr)
    · obtain ⟨rfl, rfl, a, b, rfl, rfl, hexact, hout⟩ := apply_overflow happly hf
      refine .here ?_ ?_ hexact hout
      · rw [evaluate, evalFrom_nil, hl]
      · rw [evaluate, evalFrom_nil, hr]

/-- Literals and bindings in range lead to no integer that is too long to be written. -/
theorem not_overlong_of_isBounded {t : Tree} (ht : t.isBounded = true) (henv : env.IsInRange) :
    ¬t.Overlong file env := by
  intro h
  induction h with
  | here hv hw hover =>
    rw [isBounded, Bool.and_eq_true] at ht
    exact not_overlong_of_inRange (evaluate_inRange ht.1 henv hv) (evaluate_inRange ht.2 henv hw)
      hover
  | left _ ih =>
    rw [isBounded, Bool.and_eq_true] at ht
    exact ih ht.1
  | right _ _ ih =>
    rw [isBounded, Bool.and_eq_true] at ht
    exact ih ht.2

/-! ## Statements and runs -/

theorem isBounded_of_argument? {s t : Tree} (hs : s.isBounded = true) (h : s.argument? = some t) :
    t.isBounded = true := by
  obtain ⟨_, _, _, rfl⟩ | ⟨-, _, rfl | rfl⟩ := argument?_eq_some h <;> exact hs

theorem evaluateOr_inRange {t : Tree} (ht : t.isBounded = true) (henv : env.IsInRange)
    {default v : Value} (hdefault : default.IsInRange)
    (h : t.evaluateOr file env default = .ok v) : v.IsInRange := by
  obtain rfl | ⟨-, h⟩ := evaluateOr_eq_ok h
  · exact hdefault
  · exact evaluate_inRange ht henv h

/-- A statement that fails with an overflow has it in its expression. -/
theorem overflows_of_effect {s : Tree} {op : Op} {n : Int} (h : s.effect file env = .fail f)
    (hf : f.cause = .overflow op n) :
    ∃ t, s.argument? = some t ∧ t.evaluate file env = .error f ∧ t.Overflows file env f := by
  cases acts_of_effect h with
  | rebind | longWrite => cases hf
  | fail harg ht =>
    refine ⟨_, harg, ht, ?_⟩
    rw [evaluate, evalFrom_nil] at ht
    exact overflows_of_meaning ht hf
  | misplaced => cases hf

theorem not_exceeds_of_isBounded {s : Tree} (hs : s.isBounded = true) (henv : env.IsInRange) :
    ¬s.Exceeds file env := by
  intro h
  cases h with
  | argument harg hover =>
    exact not_overlong_of_isBounded (isBounded_of_argument? hs harg) henv hover
  | @print value line n hv hlong =>
    have hvalue : value.isBounded = true := hs
    exact not_inRange_of_long hlong (evaluate_inRange hvalue henv hv)

section

variable {ss : List Tree} (hss : allBounded ss = true) (henv : env.IsInRange)

include hss

/-- A `let` with literals in range keeps the bindings in range. -/
theorem bind_inRange : ∀ s ∈ ss, ∀ e name v, Env.IsInRange e → s.effect file e = .bind name v →
    Env.IsInRange (e ++ [(name, v)]) := by
  intro s hs e name v he h b hb
  obtain hb | hb := List.mem_append.1 hb
  · exact he b hb
  · obtain rfl := List.mem_singleton.1 hb
    have hbounded := allBounded_iff.1 hss s hs
    cases acts_of_effect h with
    | bind hv _ => exact evaluate_inRange (isBounded_of_argument? hbounded rfl) he hv

include henv

theorem execute_inRange : (execute file env ss).env.IsInRange :=
  execute_preserves henv (bind_inRange hss)

theorem arrives_inRange {s : Tree} {e : Env} (h : Arrives file env ss s e) :
    s.isBounded = true ∧ e.IsInRange :=
  ⟨allBounded_iff.1 hss s h.mem, h.preserves henv (bind_inRange hss)⟩

/-- A run does not come to an integer that is too long to be written. -/
theorem not_unwritable_of_result (hstatements : ∀ s ∈ ss, s.isStatement = true) :
    (execute file env ss).result ≠ .error (.unplaced .unwritable) := by
  intro h
  obtain ⟨s, e, harrives, hexceeds⟩ := (result_eq_unwritable_iff hstatements).1 h
  obtain ⟨hbounded, he⟩ := arrives_inRange hss henv harrives
  exact not_exceeds_of_isBounded hbounded he hexceeds

/-- A run that returns has a value in range. -/
theorem returned_inRange {v : Value} (h : (execute file env ss).ending = .returned v) :
    v.IsInRange := by
  obtain ⟨s, e, harrives, hs⟩ := arrives_of_returned h
  obtain ⟨hbounded, he⟩ := arrives_inRange hss henv harrives
  cases acts_of_effect hs with
  | @finish value line _ hv =>
    have hvalue : value.isBounded = true := hbounded
    have hzero : (Value.integer 0).IsInRange := inRange_zero
    exact evaluateOr_inRange hvalue he hzero hv

end

/-! ## Source texts -/

/-- Reading the tokens of a source text fails with an error of reading, since every one of them can be
    described. -/
theorem parsing_of_tokenize {source : String} {ts rest : List Token}
    (hts : tokenize file source = .ok ts) (h : Reader.program file ts = .error f rest) :
    ∃ taken, ts = taken ++ rest ∧ f.cause.stage? = some .parsing ∧ f.file = file := by
  obtain ⟨taken, rfl, hpoints, -⟩ := (Reader.local_program ts).error h
  refine ⟨taken, rfl, ?_⟩
  obtain hparsing | ⟨-, n, line, back, rfl, hlong⟩ := hpoints.parsing
  · exact hparsing
  · have hs := isSpellable_of_tokenize hts (List.mem_append_right taken List.mem_cons_self)
    exact absurd (lt_limit_of_isNumeral hs) (Nat.not_lt.2 hlong)

theorem isBounded_of_isSpellable : ∀ {t : Tree}, t.isSpellable isNumeral = true →
    t.isBounded = true
  | .operation _ left _ right _, h => by
    rw [isSpellable, Bool.and_eq_true] at h
    rw [isBounded, isBounded_of_isSpellable h.1, isBounded_of_isSpellable h.2]
    rfl
  | .integer n line, h => by
    rw [isSpellable, isNumeral, Bool.and_eq_true, decide_eq_true_eq, decide_eq_true_eq] at h
    have hmin : intMin ≤ 0 := by decide
    rw [isBounded, decide_eq_true_eq]
    exact ⟨Int.le_trans hmin h.1, h.2⟩
  | .binding name nameLine value line, h => by
    rw [isSpellable, Bool.and_eq_true] at h
    rw [isBounded]
    exact isBounded_of_isSpellable h.2
  | .printing value line, h | .returning value line, h => by
    rw [isSpellable] at h
    rw [isBounded]
    exact isBounded_of_isSpellable h
  | .string .., _ | .boolean .., _ | .identifier .., _ | .absent, _ => rfl

/-- The literals of statements that are read from a text are in range. -/
theorem allBounded_of_parse {source : String} {p : List Tree} (h : parse file source = .ok p) :
    allBounded p = true := by
  refine allBounded_iff.2 fun t ht => isBounded_of_isSpellable ?_
  exact (isReadable_iff.1 (isReadable_of_parse h)).2 t ht

/-- The result of a source text that is run on its own is in range. -/
theorem inRange_of_runSource {source : String} {v : Value}
    (h : (runSource file source).result = .ok v) : v.IsInRange := by
  unfold runSource executeSource at h
  split at h
  · cases h
  next p hp =>
    unfold Run.result at h
    split at h
    · cases h
      exact inRange_zero
    next hreturned =>
      cases h
      exact returned_inRange (allBounded_of_parse hp) Env.isInRange_nil hreturned
    · cases h

theorem parseExpr_eq_ok_iff {source : String} {t : Tree} :
    parseExpr file source = .ok t ↔
      ∃ ts rest, tokenize file source = .ok ts ∧ Reader.expr file ts = .ok t rest := by
  unfold parseExpr
  cases tokenize file source with
  | error f => simp
  | ok ts => cases ht : Reader.expr file ts <;> simp [ht]

/-- The literals of an expression that is read from the front of a text are in range. -/
theorem isBounded_of_parseExpr {source : String} {t : Tree} (h : parseExpr file source = .ok t) :
    t.isBounded = true := by
  obtain ⟨ts, rest, hts, hread⟩ := parseExpr_eq_ok_iff.1 h
  obtain ⟨e, rfl, htree, stop, rest, rfl, -⟩ := Reader.expr_eq_ok_iff.1 hread
  refine isBounded_of_isSpellable (htree.isSpellable fun u hu => ?_)
  exact isSpelled_of_mem_front hts (List.cons_ne_nil _ _) hu

/-! ## Sessions -/

namespace Session

/-- Whether a request runs or evaluates a source text, or trees with literals in range. -/
def Request.isBounded : Request → Bool
  | .run _ | .execute _ | .eval _ => true
  | .runTrees statements | .executeTrees statements => allBounded statements
  | .evalTree t => t.isBounded
  | .apply .. | .emit _ => false

variable {s : Session} {q : Request}

theorem isStep_of_isBounded (h : q.isBounded = true) : q.isStep = true := by
  cases q <;> first | rfl | cases h

theorem allBounded_of_statements? (hq : q.isBounded = true) {ss : List Tree}
    (h : q.statements? file = some ss) : allBounded ss = true := by
  cases q with
  | run source | execute source =>
    exact allBounded_of_parse (toOption_eq_some_iff.1 h)
  | runTrees | executeTrees => cases h; exact hq
  | _ => cases h

theorem isBounded_of_tree? (hq : q.isBounded = true) {t : Tree} (h : q.tree? file = some t) :
    t.isBounded = true := by
  cases q with
  | eval source => exact isBounded_of_parseExpr (toOption_eq_some_iff.1 h)
  | evalTree => cases h; exact hq
  | _ => cases h

/-- A request prints a value: it gets to a `print` that has it. -/
def Prints (s : Session) (q : Request) (v : Value) : Prop :=
  ∃ ss t line e, q.statements? s.file = some ss ∧
    Arrives s.file s.env ss (.printing t line) e ∧ t.evaluateOr s.file e (.string "") = .ok v

/-- A request evaluates an expression: the one that it asks for, or that of a statement that it
    gets to. -/
inductive Evaluates (s : Session) (q : Request) : Tree → Env → Prop
  | alone {t : Tree} : q.tree? s.file = some t → Evaluates s q t s.env
  | within {ss : List Tree} {st t : Tree} {e : Env} : q.statements? s.file = some ss →
    Arrives s.file s.env ss st e → st.argument? = some t → Evaluates s q t e

/-- A request keeps the bindings in range. -/
theorem serve_inRange (hq : q.isBounded = true) (hs : s.env.IsInRange) :
    (s.serve q).session.env.IsInRange := by
  have hserves := s.serves (isStep_of_isBounded hq)
  generalize s.serve q = response at hserves
  cases hserves with
  | statements hss _ => exact execute_inRange (allBounded_of_statements? hq hss) hs
  | tree _ => exact hs
  | unread _ _ => exact hs

/-- The bindings of every session reached by such requests are in range. -/
theorem Reached.inRange (h : Reached Request.isBounded file s) : s.env.IsInRange := by
  induction h with
  | new => exact Env.isInRange_nil
  | serve _ hq ih => exact serve_inRange hq ih

/-- What a request gives is in range. -/
theorem answer_inRange (hq : q.isBounded = true) (hs : s.env.IsInRange) {v : Value}
    (h : (s.serve q).answer = .value v ∨ (s.serve q).answer = .returned v) : v.IsInRange := by
  have hserves := s.serves (isStep_of_isBounded hq)
  generalize s.serve q = response at hserves h
  cases hserves with
  | @statements ss answer hss hreports =>
    generalize hend : (LetScript.execute s.file s.env ss).ending = ending at hreports
    have hreturned : ∀ {w}, ending = .returned w → w.IsInRange := fun hw =>
      returned_inRange (allBounded_of_statements? hq hss) hs (hend.trans hw)
    obtain h | h := h <;> cases h <;> cases hreports
    · exact inRange_zero
    · exact hreturned rfl
    · exact hreturned rfl
  | @tree t ht =>
    cases hv : t.evaluate s.file s.env with
    | error f => rw [hv] at h; obtain h | h := h <;> cases h
    | ok w =>
      rw [hv] at h
      obtain h | h := h <;> cases h
      exact evaluate_inRange (isBounded_of_tree? hq ht) hs hv
  | unread _ _ => obtain h | h := h <;> cases h

/-- What a request prints is in range. -/
theorem printed_inRange (hq : q.isBounded = true) (hs : s.env.IsInRange) {v : Value}
    (h : s.Prints q v) : v.IsInRange := by
  obtain ⟨ss, t, line, e, hss, harrives, hv⟩ := h
  obtain ⟨hbounded, he⟩ := arrives_inRange (allBounded_of_statements? hq hss) hs harrives
  have ht : t.isBounded = true := hbounded
  have hempty : (Value.string "").IsInRange := trivial
  exact evaluateOr_inRange ht he hempty hv

/-- Every line that a request writes shows a value that it prints. -/
theorem exists_prints_of_line (hq : q.isStep = true) {text : String}
    (h : text ∈ (s.serve q).lines) : ∃ v, s.Prints q v ∧ v.display? = some text := by
  have hserves := s.serves hq
  generalize s.serve q = response at hserves h
  cases hserves with
  | @statements ss answer hss _ =>
    obtain ⟨st, e, harrives, hst⟩ := arrives_of_line h
    cases acts_of_effect hst with
    | write hv htext => exact ⟨_, ⟨ss, _, _, e, hss, harrives, hv⟩, htext⟩
  | tree _ => cases h
  | unread _ _ => cases h

/-- A request that fails with an overflow has it in an expression that it evaluates. -/
theorem overflows_of_serve (hq : q.isStep = true) {f : Fault} {op : Op} {n : Int}
    (h : (s.serve q).answer = .failed f) (hf : f.cause = .overflow op n) :
    ∃ t e, s.Evaluates q t e ∧ t.evaluate s.file e = .error f ∧ t.Overflows s.file e f := by
  have hserves := s.serves hq
  generalize s.serve q = response at hserves h
  cases hserves with
  | @statements ss answer hss hreports =>
    generalize hend : (LetScript.execute s.file s.env ss).ending = ending at hreports
    cases h
    cases hreports
    obtain ⟨st, e, harrives, hst⟩ := arrives_of_failed hend
    obtain ⟨t, harg, ht, hover⟩ := overflows_of_effect hst hf
    exact ⟨t, e, .within hss harrives harg, ht, hover⟩
  | @tree t ht =>
    cases hv : t.evaluate s.file s.env with
    | ok w => rw [hv] at h; cases h
    | error f' =>
      rw [hv] at h
      cases h
      refine ⟨t, s.env, .alone ht, hv, ?_⟩
      rw [evaluate, evalFrom_nil] at hv
      exact overflows_of_meaning hv hf
  | unread _ hstage =>
    cases h
    rw [hf] at hstage
    exact absurd rfl hstage

end Session

/-- Over any history of runs and evaluations, of source texts or of trees with literals in range and
    whether they succeed or fail, integers stay in range: those bound after the next request, its
    answer, and what it prints, which is all that it writes. If it fails with an overflow, an
    operator that it evaluates has the exact result in the fault, and the result is out of range. -/
theorem session_integers_in_range (file : Option String) (s : Session)
    (hs : Session.Reached Session.Request.isBounded file s) (q : Session.Request)
    (hq : q.isBounded = true) :
    (∀ b ∈ (s.serve q).session.env, b.2.IsInRange) ∧
    (∀ v, (s.serve q).answer = .value v ∨ (s.serve q).answer = .returned v → v.IsInRange) ∧
    (∀ v, s.Prints q v → v.IsInRange) ∧
    (∀ text ∈ (s.serve q).lines, ∃ v, s.Prints q v ∧ v.display? = some text) ∧
    ∀ f op n, (s.serve q).answer = .failed f → f.cause = .overflow op n →
      ∃ t e, s.Evaluates q t e ∧ t.evaluate s.file e = .error f ∧ t.Overflows s.file e f := by
  have hstep := Session.isStep_of_isBounded hq
  have henv := hs.inRange
  exact ⟨Session.serve_inRange hq henv, fun v => Session.answer_inRange hq henv,
    fun v => Session.printed_inRange hq henv, fun text => Session.exists_prints_of_line hstep,
    fun f op n => Session.overflows_of_serve hstep⟩

/-- After a request that failed at its second statement, the least integer, which comes from a
    difference, is divided by -1. -/
theorem session_integers_in_range_quotient :
    ∃ (s : Session) (q : Session.Request) (f : Fault),
      s = ((Session.new none).serve (.executeTrees [.binding "x" none (.integer intMax none) none,
        .binding "x" none (.integer 1 none) none])).session ∧
      q = .evalTree (.operation .arithmetic (.operation .arithmetic (.integer (-1) none) .sub
        (.identifier "x" none) none) .div (.integer (-1) none) none) ∧
      Session.Reached Session.Request.isBounded none s ∧ q.isBounded = true ∧
      (s.serve q).answer = .failed f ∧ f.cause = .overflow .div 2147483648 ∧
      (∀ b ∈ (s.serve q).session.env, b.2.IsInRange) ∧
      ∃ t e, s.Evaluates q t e ∧ t.evaluate s.file e = .error f ∧ t.Overflows s.file e f := by
  refine ⟨_, _, ⟨.overflow .div 2147483648, none, none⟩, rfl, rfl, .serve .new rfl, rfl, rfl, rfl,
    ?_, ?_⟩
  · exact (session_integers_in_range none _ (.serve .new rfl) _ (by rfl)).1
  · exact (session_integers_in_range none _ (.serve .new rfl) _ (by rfl)).2.2.2.2 _ _ _
      (by rfl) rfl

end LetScript
