import LetScript.Eval

/-
  Evaluation with waiting operators agrees with the rule.

  `evalFrom env pending t` evaluates `t` to the right of the operators in `pending`. The invariant
  of the walk down the right operands is `evalFrom_eq`: the outcome is that of the rule on `t`,
  and, if that is a value, the waiting operators applied to it from the innermost outwards. The
  left operands met on the way re-enter the walk with nothing waiting, so the same invariant covers
  them. `evaluate_eq_meaning` is the case of an empty list of waiting operators.
-/

namespace LetScript.Tree

variable {file : Option String}

/-- The rule on an operator node: left, then right, then the operator with the node's line. -/
theorem meaning_operation (env : Env) (family : Family) (left : Tree) (op : Op) (right : Tree)
    (line : Line) :
    meaning file env (.operation family left op right line) =
      (meaning file env left).bind fun v =>
        (meaning file env right).bind fun w => family.apply file line op v w := by
  rw [meaning]
  cases meaning file env left with
  | error f => rfl
  | ok v => cases meaning file env right <;> rfl

/-- An operator node has a value when both operands have one and the operator takes them. -/
theorem meaning_operation_eq_ok_iff {env : Env} {family : Family} {left : Tree} {op : Op}
    {right : Tree} {line : Line} {u : Value} :
    meaning file env (.operation family left op right line) = .ok u ↔
      ∃ v w, meaning file env left = .ok v ∧ meaning file env right = .ok w ∧
        family.apply file line op v w = .ok u := by
  rw [meaning_operation]
  cases meaning file env left with
  | error f => simp [Except.bind]
  | ok v => cases meaning file env right <;> simp [Except.bind]

/-- An operator node fails in its left operand, else in its right one, else in its operator. -/
theorem meaning_operation_eq_error_iff {env : Env} {family : Family} {left : Tree} {op : Op}
    {right : Tree} {line : Line} {f : Fault} :
    meaning file env (.operation family left op right line) = .error f ↔
      meaning file env left = .error f ∨
      ∃ v, meaning file env left = .ok v ∧ (meaning file env right = .error f ∨
        ∃ w, meaning file env right = .ok w ∧ family.apply file line op v w = .error f) := by
  rw [meaning_operation]
  cases meaning file env left with
  | error f => simp [Except.bind]
  | ok v => cases meaning file env right <;> simp [Except.bind]

/-- Waiting operators are applied one by one, and the first one that fails decides. -/
theorem unwind_cons (p : Pending) (ps : List Pending) (v : Value) :
    unwind file (p :: ps) v = (p.family.apply file p.line p.op p.left v).bind (unwind file ps) := by
  rw [unwind]
  cases p.family.apply file p.line p.op p.left v <;> rfl

/-- With nothing waiting an outcome stays as it is. -/
theorem bind_unwind_nil (outcome : Except Fault Value) : outcome.bind (unwind file []) = outcome := by
  cases outcome <;> rfl

/-- A tree that is no operator node is looked up or refused at once, whatever waits. -/
theorem evalFrom_leaf (env : Env) (pending : List Pending) {t : Tree} (h : t.isOperation = false) :
    evalFrom file env pending t = (meaning file env t).bind (unwind file pending) := by
  have hmeaning : meaning file env t = leafValue file env t := by
    cases t <;> first | rfl | cases h
  have hwalk : evalFrom file env pending t = (leafValue file env t).bind (unwind file pending) := by
    cases t with
    | operation => cases h
    | _ =>
      rw [evalFrom]
      · cases leafValue file env _ <;> rfl
      · intros; contradiction
  rw [hwalk, hmeaning]

/-- What the walk gives: the outcome of the rule, with the waiting operators applied to it. -/
theorem evalFrom_eq (env : Env) : ∀ (pending : List Pending) (t : Tree),
    evalFrom file env pending t = (meaning file env t).bind (unwind file pending)
  | pending, .operation family left op right line => by
    -- the left operand re-enters the walk with nothing waiting
    have hleft : evalFrom file env [] left = meaning file env left := by
      rw [evalFrom_eq env [] left, bind_unwind_nil]
    rw [evalFrom, hleft, meaning_operation]
    cases meaning file env left with
    | error f => rfl
    | ok v =>
      -- its value is known before the walk goes on to the right, where the node's operator waits
      have hright := evalFrom_eq env (⟨family, v, op, line⟩ :: pending) right
      simp only [hright, Except.bind]
      cases meaning file env right with
      | error f => rfl
      | ok w => exact unwind_cons _ _ _
  | pending, .integer .. | pending, .string .. | pending, .boolean .. | pending, .identifier ..
  | pending, .binding .. | pending, .printing .. | pending, .returning .. | pending, .program ..
  | pending, .absent => evalFrom_leaf env pending rfl

/-- With nothing waiting the walk gives what the rule gives. -/
theorem evalFrom_nil (env : Env) (t : Tree) : evalFrom file env [] t = meaning file env t := by
  rw [evalFrom_eq, bind_unwind_nil]

/-- Evaluation gives what the rule gives, for every tree and all bindings: the same value, or the
    same fault with its cause, line and file. -/
theorem evaluate_eq_meaning (file : Option String) (env : Env) (t : Tree) :
    evaluate file env t = meaning file env t := by
  rw [evaluate, evalFrom_eq, bind_unwind_nil]

end LetScript.Tree
