import LetScript.Proofs.Effects
import LetScript.Proofs.Evaluation
import LetScript.Proofs.Operators

/-
  Where a run comes to an integer that is too long to be written.

  An integer has to be written where it is joined to a string, where it is told as a result out of
  range, and where it is printed. If it has more digits than `maxDigits`, that is a fault without a
  place. `Tree.Overlong` and `Tree.Exceeds` say of an expression and of a statement that they come
  to such an integer, and the fault is theirs and no one else's: an expression has it exactly if it
  is overlong, a statement exactly if it exceeds, a run exactly if it gets to a statement that does.

  Main statement: `result_eq_unwritable_iff`.
-/

namespace LetScript

open LetScript.Tree

/-- An expression comes to an integer that is too long to be written, with all before it having
    values. -/
inductive Tree.Overlong (file : Option String) (env : Env) : Tree → Prop
  | here {left right : Tree} {op : Op} {line : Line} {v w : Value} :
    left.evaluate file env = .ok v → right.evaluate file env = .ok w → op.Overlong v w →
      Overlong file env (.operation .arithmetic left op right line)
  | left {family : Family} {left : Tree} {op : Op} {right : Tree} {line : Line} :
    Overlong file env left → Overlong file env (.operation family left op right line)
  | right {family : Family} {left : Tree} {op : Op} {right : Tree} {line : Line} {v : Value} :
    left.evaluate file env = .ok v → Overlong file env right →
      Overlong file env (.operation family left op right line)

/-- A statement comes to an integer that is too long to be written: in its expression, or to
    print. -/
inductive Tree.Exceeds (file : Option String) (env : Env) : Tree → Prop
  | argument {s t : Tree} : s.argument? = some t → t.Overlong file env → Exceeds file env s
  | print {value : Tree} {line : Line} {n : Int} :
    value.evaluate file env = .ok (.integer n) → numeralLimit ≤ n.natAbs →
      Exceeds file env (.printing value line)

variable {file : Option String} {env : Env}

/-- An expression fails for the length of an integer exactly if it comes to one that is too long. -/
theorem evaluate_eq_unwritable_iff {t : Tree} (ht : t.isExpr = true) :
    t.evaluate file env = .error (.unplaced .unwritable) ↔ t.Overlong file env := by
  constructor
  · intro h
    rw [evaluate_eq_meaning] at h
    induction t, ht using expr_induction with
    | term t hterm =>
      cases t with
      | identifier name line =>
        simp only [meaning, leafValue] at h
        split at h <;> cases h
      | integer | string | boolean => cases h
      | _ => cases hterm
    | operation family left op right line _ _ _ ihl ihr =>
      obtain hl | ⟨v, hv, hr | ⟨w, hw, happly⟩⟩ := meaning_operation_eq_error_iff.1 h
      · exact .left (ihl hl)
      · exact .right ((evaluate_eq_meaning file env left).trans hv) (ihr hr)
      · obtain ⟨rfl, hover⟩ := apply_eq_unwritable_iff.1 happly
        exact .here ((evaluate_eq_meaning file env left).trans hv)
          ((evaluate_eq_meaning file env right).trans hw) hover
  · intro h
    clear ht
    rw [evaluate_eq_meaning]
    induction h with
    | here hv hw hover =>
      rw [evaluate_eq_meaning] at hv hw
      refine meaning_operation_eq_error_iff.2 (.inr ⟨_, hv, .inr ⟨_, hw, ?_⟩⟩)
      exact apply_eq_unwritable_iff.2 ⟨rfl, hover⟩
    | left _ ih => exact meaning_operation_eq_error_iff.2 (.inl ih)
    | right hv _ ih =>
      rw [evaluate_eq_meaning] at hv
      exact meaning_operation_eq_error_iff.2 (.inr ⟨_, hv, .inl ih⟩)

/-- A statement fails where its expression fails. -/
theorem effect_of_argument? {s t : Tree} {f : Fault} (h : s.argument? = some t)
    (hf : t.evaluate file env = .error f) : s.effect file env = .fail f := by
  obtain ⟨name, nameLine, line, rfl⟩ | ⟨ha, line, rfl | rfl⟩ := argument?_eq_some h
  · rw [effect, hf]
  · rw [effect, evaluateOr, ha, if_neg Bool.false_ne_true, hf]
  · rw [effect, evaluateOr, ha, if_neg Bool.false_ne_true, hf]

/-- A statement fails for the length of an integer exactly if it comes to one that is too long. -/
theorem effect_eq_unwritable_iff {s : Tree} (hs : s.isStatement = true) :
    s.effect file env = .fail (.unplaced .unwritable) ↔ s.Exceeds file env := by
  constructor
  · intro h
    generalize hf : Fault.unplaced .unwritable = f at h
    cases acts_of_effect h with
    | rebind => cases hf
    | misplaced => cases hf
    | longWrite hv hnone =>
      obtain ⟨n, rfl, hlong⟩ := Value.display?_eq_none_iff.1 hnone
      obtain hdefault | ⟨-, hv⟩ := evaluateOr_eq_ok hv
      · cases hdefault
      · exact .print hv hlong
    | fail harg ht =>
      subst hf
      exact .argument harg ((evaluate_eq_unwritable_iff (isExpr_of_argument? hs harg)).1 ht)
  · intro h
    cases h with
    | argument harg hover =>
      refine effect_of_argument? harg ?_
      exact (evaluate_eq_unwritable_iff (isExpr_of_argument? hs harg)).2 hover
    | @print value line n hv hlong =>
      have hthere : value.isAbsent = false := by
        cases value <;> first | rfl | cases hv
      have hvalue : value.evaluateOr file env (.string "") = .ok (.integer n) := by
        rw [evaluateOr, hthere, if_neg Bool.false_ne_true, hv]
      exact effect_longWrite hvalue (Value.display?_eq_none_iff.2 ⟨n, rfl, hlong⟩)

/-- A run fails for the length of an integer exactly if it gets to a statement that does. -/
theorem result_eq_unwritable_iff {p : List Tree} (hp : ∀ s ∈ p, s.isStatement = true) :
    (execute file env p).result = .error (.unplaced .unwritable) ↔
      ∃ s e, Arrives file env p s e ∧ s.Exceeds file e := by
  rw [Run.result_eq_error_iff]
  constructor
  · intro h
    obtain ⟨s, e, harrives, hs⟩ := arrives_of_failed h
    exact ⟨s, e, harrives, (effect_eq_unwritable_iff (hp s harrives.mem)).1 hs⟩
  · rintro ⟨s, e, harrives, hs⟩
    exact harrives.failed ((effect_eq_unwritable_iff (hp s harrives.mem)).2 hs)

end LetScript
