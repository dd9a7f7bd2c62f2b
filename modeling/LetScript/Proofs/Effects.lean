import LetScript.Proofs.Shape
import LetScript.Run

/-
  What statements do, and which statements a run gets to.

  `Acts` gives the rules by which a statement has its effect, and a statement has the effect that a
  rule gives it (`acts`); later proofs go by the rules and need not take a statement apart. A run
  gets to a statement (`Arrives`) when all statements before it are run through. It ends and it
  writes at statements that it gets to (`arrives_of_returned`, `arrives_of_failed`,
  `arrives_of_line`), and what each new binding leaves true of the bindings is true after a run and
  wherever it gets to (`execute_preserves`, `Arrives.preserves`).
-/

namespace LetScript

/-- The expression that a statement evaluates, if it has one. -/
def Tree.argument? : Tree → Option Tree
  | .binding _ _ value _ => some value
  | .printing value _ | .returning value _ => if value.isAbsent then none else some value
  | _ => none

variable {file : Option String} {env : Env}

/-! ## What a statement does -/

/-- The rules of statements. A statement fails in its expression, at a name that is bound already,
    at a value that is too long to be written, or by being none. -/
inductive Acts (file : Option String) (env : Env) : Tree → Effect → Prop
  | bind {name : String} {nameLine line : Line} {value : Tree} {v : Value} :
    value.evaluate file env = .ok v → env.lookup name = none →
      Acts file env (.binding name nameLine value line) (.bind name v)
  | rebind {name : String} {nameLine line : Line} {value : Tree} {v : Value} :
    value.evaluate file env = .ok v → (env.lookup name).isSome = true →
      Acts file env (.binding name nameLine value line) (.fail ⟨.alreadyDefined name, line, file⟩)
  | write {value : Tree} {line : Line} {v : Value} {text : String} :
    value.evaluateOr file env (.string "") = .ok v → v.display? = some text →
      Acts file env (.printing value line) (.write text)
  | longWrite {value : Tree} {line : Line} {v : Value} :
    value.evaluateOr file env (.string "") = .ok v → v.display? = none →
      Acts file env (.printing value line) (.fail (.unplaced .unwritable))
  | finish {value : Tree} {line : Line} {v : Value} :
    value.evaluateOr file env (.integer 0) = .ok v →
      Acts file env (.returning value line) (.finish v)
  | fail {s t : Tree} {f : Fault} :
    s.argument? = some t → t.evaluate file env = .error f → Acts file env s (.fail f)
  | misplaced {s : Tree} :
    s.isStatement = false → Acts file env s (.fail (.unplaced (.notStatement s)))

/-- An optional expression fails only where it is there. -/
theorem evaluateOr_eq_error {t : Tree} {default : Value} {f : Fault}
    (h : t.evaluateOr file env default = .error f) :
    t.isAbsent = false ∧ t.evaluate file env = .error f := by
  unfold Tree.evaluateOr at h
  split at h
  · cases h
  next ha => exact ⟨Bool.eq_false_iff.2 ha, h⟩

/-- An optional expression that is there has the value of the expression. -/
theorem evaluateOr_eq_ok {t : Tree} {default v : Value}
    (h : t.evaluateOr file env default = .ok v) :
    v = default ∨ t.isAbsent = false ∧ t.evaluate file env = .ok v := by
  unfold Tree.evaluateOr at h
  split at h
  · cases h; exact .inl rfl
  next ha => exact .inr ⟨Bool.eq_false_iff.2 ha, h⟩

theorem argument?_printing {value : Tree} {line : Line} (h : value.isAbsent = false) :
    (Tree.printing value line).argument? = some value := by
  rw [Tree.argument?, h]
  rfl

theorem argument?_returning {value : Tree} {line : Line} (h : value.isAbsent = false) :
    (Tree.returning value line).argument? = some value := by
  rw [Tree.argument?, h]
  rfl

theorem effect_write {value : Tree} {line : Line} {v : Value} {text : String}
    (h : value.evaluateOr file env (.string "") = .ok v) (htext : v.display? = some text) :
    (Tree.printing value line).effect file env = .write text := by
  simp only [Tree.effect, h, htext]

theorem effect_longWrite {value : Tree} {line : Line} {v : Value}
    (h : value.evaluateOr file env (.string "") = .ok v) (hnone : v.display? = none) :
    (Tree.printing value line).effect file env = .fail (.unplaced .unwritable) := by
  simp only [Tree.effect, h, hnone]

/-- Which statements evaluate an expression. -/
theorem argument?_eq_some {s t : Tree} (h : s.argument? = some t) :
    (∃ name nameLine line, s = .binding name nameLine t line) ∨
      t.isAbsent = false ∧ ∃ line, s = .printing t line ∨ s = .returning t line := by
  cases s with
  | binding name nameLine value line =>
    cases h
    exact .inl ⟨name, nameLine, line, rfl⟩
  | printing value line =>
    cases ha : value.isAbsent with
    | true => rw [Tree.argument?, ha] at h; cases h
    | false =>
      rw [argument?_printing ha] at h
      cases h
      exact .inr ⟨ha, line, .inl rfl⟩
  | returning value line =>
    cases ha : value.isAbsent with
    | true => rw [Tree.argument?, ha] at h; cases h
    | false =>
      rw [argument?_returning ha] at h
      cases h
      exact .inr ⟨ha, line, .inr rfl⟩
  | _ => cases h

theorem isExpr_of_argument? {s t : Tree} (hs : s.isStatement = true) (h : s.argument? = some t) :
    t.isExpr = true := by
  obtain ⟨_, _, _, rfl⟩ | ⟨ha, _, rfl | rfl⟩ := argument?_eq_some h
  · exact hs
  · simpa [Tree.isStatement, ha] using hs
  · simpa [Tree.isStatement, ha] using hs

/-- Every statement has its effect by one of the rules. -/
theorem acts (file : Option String) (env : Env) (s : Tree) :
    Acts file env s (s.effect file env) := by
  cases s with
  | binding name nameLine value line =>
    rw [Tree.effect]
    cases hv : value.evaluate file env with
    | error f => exact .fail (t := value) rfl hv
    | ok v =>
      dsimp only
      cases hname : env.lookup name with
      | some w => exact .rebind hv (by rw [hname]; rfl)
      | none => exact .bind hv hname
  | printing value line =>
    cases hv : value.evaluateOr file env (.string "") with
    | ok v =>
      cases htext : v.display? with
      | some text =>
        rw [effect_write hv htext]
        exact .write hv htext
      | none =>
        rw [effect_longWrite hv htext]
        exact .longWrite hv htext
    | error f =>
      obtain ⟨hthere, hf⟩ := evaluateOr_eq_error hv
      rw [Tree.effect, hv]
      exact .fail (argument?_printing hthere) hf
  | returning value line =>
    rw [Tree.effect]
    cases hv : value.evaluateOr file env (.integer 0) with
    | ok v => exact .finish hv
    | error f =>
      obtain ⟨hthere, hf⟩ := evaluateOr_eq_error hv
      exact .fail (argument?_returning hthere) hf
  | _ => exact .misplaced rfl

theorem acts_of_effect {s : Tree} {effect : Effect} (h : s.effect file env = effect) :
    Acts file env s effect := by
  rw [← h]
  exact acts file env s

/-! ## What a run gets to -/

/-- Running statements gets to one of them, with the bindings made by then. -/
def Arrives (file : Option String) (env : Env) (ss : List Tree) (s : Tree) (e : Env) : Prop :=
  ∃ before after, ss = before ++ s :: after ∧ (execute file env before).ending = .through ∧
    (execute file env before).env = e

theorem arrives_head (s : Tree) (ss : List Tree) : Arrives file env (s :: ss) s env :=
  ⟨[], ss, rfl, rfl, rfl⟩

theorem arrives_of_bind {s t : Tree} {ss : List Tree} {e : Env} {name : String} {v : Value}
    (hs : s.effect file env = .bind name v) (h : Arrives file (env ++ [(name, v)]) ss t e) :
    Arrives file env (s :: ss) t e := by
  obtain ⟨before, after, rfl, hthrough, henv⟩ := h
  refine ⟨s :: before, after, rfl, ?_, ?_⟩
  · simp only [execute, hs]; exact hthrough
  · simp only [execute, hs]; exact henv

theorem arrives_of_write {s t : Tree} {ss : List Tree} {e : Env} {text : String}
    (hs : s.effect file env = .write text) (h : Arrives file env ss t e) :
    Arrives file env (s :: ss) t e := by
  obtain ⟨before, after, rfl, hthrough, henv⟩ := h
  refine ⟨s :: before, after, rfl, ?_, ?_⟩
  · simp only [execute, hs]; exact hthrough
  · simp only [execute, hs]; exact henv

/-- A run that returns gets to a `return` that gives the value. -/
theorem arrives_of_returned {ss : List Tree} {v : Value}
    (h : (execute file env ss).ending = .returned v) :
    ∃ s e, Arrives file env ss s e ∧ s.effect file e = .finish v := by
  fun_induction execute file env ss with
  | case1 => cases h
  | case2 env s ss name v' hs ih =>
    obtain ⟨t, e, hat, ht⟩ := ih h
    exact ⟨t, e, arrives_of_bind hs hat, ht⟩
  | case3 env s ss text hs rest ih =>
    obtain ⟨t, e, hat, ht⟩ := ih h
    exact ⟨t, e, arrives_of_write hs hat, ht⟩
  | case4 env s ss v' hs =>
    cases h
    exact ⟨s, env, arrives_head s ss, hs⟩
  | case5 => cases h

/-- A run that fails gets to a statement with that fault. -/
theorem arrives_of_failed {ss : List Tree} {f : Fault}
    (h : (execute file env ss).ending = .failed f) :
    ∃ s e, Arrives file env ss s e ∧ s.effect file e = .fail f := by
  fun_induction execute file env ss with
  | case1 => cases h
  | case2 env s ss name v hs ih =>
    obtain ⟨t, e, hat, ht⟩ := ih h
    exact ⟨t, e, arrives_of_bind hs hat, ht⟩
  | case3 env s ss text hs rest ih =>
    obtain ⟨t, e, hat, ht⟩ := ih h
    exact ⟨t, e, arrives_of_write hs hat, ht⟩
  | case4 => cases h
  | case5 env s ss f' hs =>
    cases h
    exact ⟨s, env, arrives_head s ss, hs⟩

/-- A run that writes a line gets to a statement that writes it. -/
theorem arrives_of_line {ss : List Tree} {text : String}
    (h : text ∈ (execute file env ss).lines) :
    ∃ s e, Arrives file env ss s e ∧ s.effect file e = .write text := by
  fun_induction execute file env ss with
  | case1 => cases h
  | case2 env s ss name v hs ih =>
    obtain ⟨t, e, hat, ht⟩ := ih h
    exact ⟨t, e, arrives_of_bind hs hat, ht⟩
  | case3 env s ss text' hs rest ih =>
    obtain rfl | hrest := List.mem_cons.1 h
    · exact ⟨s, env, arrives_head s ss, hs⟩
    · obtain ⟨t, e, hat, ht⟩ := ih hrest
      exact ⟨t, e, arrives_of_write hs hat, ht⟩
  | case4 => cases h
  | case5 => cases h

/-- What is true of the bindings, and stays true with each one that a statement makes, is true after
    a run. -/
theorem execute_preserves {P : Env → Prop} {ss : List Tree} (h : P env)
    (hstep : ∀ s ∈ ss, ∀ e name v, P e → s.effect file e = .bind name v → P (e ++ [(name, v)])) :
    P (execute file env ss).env := by
  fun_induction execute file env ss with
  | case1 => exact h
  | case2 env s ss name v hs ih =>
    have hnext := hstep s List.mem_cons_self env name v h hs
    exact ih hnext fun t ht => hstep t (List.mem_cons_of_mem s ht)
  | case3 env s ss text hs rest ih => exact ih h fun t ht => hstep t (List.mem_cons_of_mem s ht)
  | case4 => exact h
  | case5 => exact h

/-- The same holds wherever the run gets to. -/
theorem Arrives.preserves {P : Env → Prop} {ss : List Tree} {s : Tree} {e : Env}
    (harrives : Arrives file env ss s e) (h : P env)
    (hstep : ∀ s ∈ ss, ∀ e name v, P e → s.effect file e = .bind name v → P (e ++ [(name, v)])) :
    P e := by
  obtain ⟨before, after, rfl, -, rfl⟩ := harrives
  exact execute_preserves h fun t ht => hstep t (List.mem_append_left _ ht)

/-- A run that gets to a failing statement fails there. -/
theorem Arrives.failed {ss : List Tree} {s : Tree} {e : Env} {f : Fault}
    (h : Arrives file env ss s e) (hs : s.effect file e = .fail f) :
    (execute file env ss).ending = .failed f := by
  obtain ⟨before, after, rfl, hthrough, rfl⟩ := h
  rw [execute_append_of_through env before (s :: after) hthrough]
  simp only [execute, hs]

theorem Arrives.mem {ss : List Tree} {s : Tree} {e : Env} (h : Arrives file env ss s e) : s ∈ ss := by
  obtain ⟨before, after, rfl, -, -⟩ := h
  exact List.mem_append_right before List.mem_cons_self

end LetScript
