import LetScript.Proofs.Shape

/-
  Trees without their lines. `unlined` forgets every line of a tree. Two trees agree but for their
  lines when they are equal without lines (`same_iff`), and the shape of a tree does not depend on
  its lines.
-/

namespace LetScript.Tree

mutual

/-- A tree with its lines forgotten. -/
def unlined : Tree → Tree
  | .integer n _ => .integer n none
  | .string s _ => .string s none
  | .boolean b _ => .boolean b none
  | .identifier name _ => .identifier name none
  | .operation family left op right _ => .operation family (unlined left) op (unlined right) none
  | .binding name _ value _ => .binding name none (unlined value) none
  | .printing value _ => .printing (unlined value) none
  | .returning value _ => .returning (unlined value) none
  | .program statements => .program (unlinedAll statements)
  | .absent => .absent

/-- The trees of a list with their lines forgotten. -/
def unlinedAll : List Tree → List Tree
  | [] => []
  | t :: ts => unlined t :: unlinedAll ts

end

mutual

/-- Two trees agree but for their lines exactly when they are equal without lines. -/
theorem same_iff : ∀ t u : Tree, same t u = true ↔ unlined t = unlined u
  | .integer .., u | .string .., u | .boolean .., u | .identifier .., u | .absent, u => by
    cases u <;> simp [same, unlined]
  | .operation family left op right _, u => by
    cases u with
    | operation family' left' op' right' _ =>
      simp only [same, unlined, Bool.and_eq_true, beq_iff_eq, same_iff left left',
        same_iff right right', Tree.operation.injEq, and_true]
      constructor
      · rintro ⟨⟨⟨hf, ho⟩, hl⟩, hr⟩; exact ⟨hf, hl, ho, hr⟩
      · rintro ⟨hf, hl, ho, hr⟩; exact ⟨⟨⟨hf, ho⟩, hl⟩, hr⟩
    | _ => simp [same, unlined]
  | .binding name _ value _, u => by
    cases u with
    | binding name' _ value' _ => simp [same, unlined, same_iff value value']
    | _ => simp [same, unlined]
  | .printing value _, u => by
    cases u with
    | printing value' _ => simp [same, unlined, same_iff value value']
    | _ => simp [same, unlined]
  | .returning value _, u => by
    cases u with
    | returning value' _ => simp [same, unlined, same_iff value value']
    | _ => simp [same, unlined]
  | .program statements, u => by
    cases u with
    | program statements' => simp [same, unlined, sameAll_iff statements statements']
    | _ => simp [same, unlined]

theorem sameAll_iff : ∀ ts us : List Tree, sameAll ts us = true ↔ unlinedAll ts = unlinedAll us
  | [], us => by cases us <;> simp [sameAll, unlinedAll]
  | t :: ts, us => by
    cases us with
    | nil => simp [sameAll, unlinedAll]
    | cons u us => simp [sameAll, unlinedAll, same_iff t u, sameAll_iff ts us]

end

/-! ## Shapes do not depend on lines -/

theorem isTerm_unlined (t : Tree) : (unlined t).isTerm = t.isTerm := by
  cases t <;> rfl

theorem isOperation_unlined (t : Tree) : (unlined t).isOperation = t.isOperation := by
  cases t <;> rfl

theorem isAbsent_unlined (t : Tree) : (unlined t).isAbsent = t.isAbsent := by
  cases t <;> rfl

theorem isExpr_unlined : ∀ t : Tree, (unlined t).isExpr = t.isExpr
  | .operation family left op right _ => by
    simp only [unlined, isExpr, isExpr_unlined left, isExpr_unlined right]
  | .integer .. | .string .. | .boolean .. | .identifier .. | .binding .. | .printing ..
  | .returning .. | .program .. | .absent => by rfl

theorem groupsRight_unlined : ∀ t : Tree, (unlined t).groupsRight = t.groupsRight
  | .operation family left op right _ => by
    simp only [unlined, groupsRight, isTerm_unlined, groupsRight_unlined right]
  | .binding _ _ value _ | .printing value _ | .returning value _ => by
    simp only [unlined, groupsRight, groupsRight_unlined value]
  | .integer .. | .string .. | .boolean .. | .identifier .. | .program .. | .absent => by rfl

theorem isStatement_unlined (t : Tree) : (unlined t).isStatement = t.isStatement := by
  cases t <;> simp only [unlined, isStatement, isExpr_unlined, isAbsent_unlined]

theorem unlinedAll_eq_map (ts : List Tree) : unlinedAll ts = ts.map unlined := by
  induction ts with
  | nil => rfl
  | cons t ts ih => rw [unlinedAll, ih, List.map_cons]

theorem isRightGrouped_unlined (ts : List Tree) :
    isRightGrouped (unlinedAll ts) = isRightGrouped ts := by
  simp only [unlinedAll_eq_map, isRightGrouped, List.all_map, Function.comp_def,
    isStatement_unlined, groupsRight_unlined]

end LetScript.Tree
