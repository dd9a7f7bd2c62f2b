import LetScript.Proofs.Shape
import LetScript.Tree.Render

/-
  Rendering agrees with the layout rule.

  `renderFrom text depth t` writes `t` after `text`, inside `depth` open parentheses. The invariant
  of the walk down the right operands is `renderFrom_eq`: the result is `text`, the layout of `t`
  and the `depth` parentheses that are still open. A parenthesis opened on the way down is closed
  right after the operand it opened before, because all open ones are closed at the same place. The
  walk comes to the operands and operators from left to right, so where it fails, it fails with the
  first obstacle; `laidOut_operation` says so of the rule.

  `gather` is the same walk with a list of texts in place of one text, which are joined at its end.
  It has the same invariant (`join_gather`).

  Main statement: `render_eq_layout`.
-/

namespace LetScript.Tree

theorem closers_succ (depth : Nat) : closers (depth + 1) = ")" ++ closers depth := by
  rw [closers, closers, List.replicate_succ, ← List.singleton_append, String.ofList_append]

/-! ## The rule, from the outcomes of the children -/

/-- A text between what is written before it and the parentheses that are open. -/
def within (text : String) (depth : Nat) (s : String) : String := text ++ s ++ closers depth

/-- Nothing before, and no parentheses open. -/
theorem map_within_zero (x : Except Fault String) : x.map (within "" 0) = x := by
  cases x with
  | error f => rfl
  | ok s =>
    rw [Except.map, within, String.empty_append]
    exact congrArg Except.ok String.append_empty

theorem laidOut_integer (n : Int) (line : Line) :
    laidOut (.integer n line) = Fault.ofText? (Text.decimal? n) := by
  rw [laidOut, obstacle?]
  by_cases h : n.natAbs < numeralLimit
  · rw [if_pos h, Text.decimal?_eq_some_iff.2 ⟨h, rfl⟩, layout]
    rfl
  · rw [if_neg h, Text.decimal?_eq_none_iff.2 (Nat.le_of_not_lt h)]
    rfl

/-- An operator node fails like its left operand, its operator or its right operand, whichever fails
    first. -/
theorem laidOut_operation (family : Family) (left : Tree) (op : Op) (right : Tree) (line : Line) :
    laidOut (.operation family left op right line) = do
      return (← laidOut left) ++ " " ++ (← op.source) ++ " " ++ grouped right (← laidOut right) := by
  rw [laidOut, laidOut, laidOut, obstacle?, layout]
  cases left.obstacle? with
  | some cause => rfl
  | none => cases op <;> cases right.obstacle? <;> rfl

theorem laidOut_binding (name : String) (nameLine : Line) (value : Tree) (line : Line) :
    laidOut (.binding name nameLine value line) =
      (laidOut value).map fun s => "let " ++ name ++ " = " ++ s ++ ";" := by
  rw [laidOut, laidOut, obstacle?, layout]
  cases value.obstacle? <;> rfl

theorem laidOut_printing (value : Tree) (line : Line) :
    laidOut (.printing value line) =
      (laidOut value).map fun s => "print" ++ argument value s ++ ";" := by
  rw [laidOut, laidOut, obstacle?, layout]
  cases value.obstacle? <;> rfl

theorem laidOut_returning (value : Tree) (line : Line) :
    laidOut (.returning value line) =
      (laidOut value).map fun s => "return" ++ argument value s ++ ";" := by
  rw [laidOut, laidOut, obstacle?, layout]
  cases value.obstacle? <;> rfl

/-- The layouts of the trees of a list, or the fault of the first thing that cannot be written. -/
def laidOutAll (ts : List Tree) : Except Fault (List String) :=
  match obstacleAll? ts with
  | none => .ok (layoutAll ts)
  | some cause => .error (.unplaced cause)

theorem laidOutAll_cons (t : Tree) (ts : List Tree) :
    laidOutAll (t :: ts) = do return (← laidOut t) :: (← laidOutAll ts) := by
  rw [laidOutAll, laidOutAll, laidOut, obstacleAll?, layoutAll]
  cases t.obstacle? with
  | some cause => rfl
  | none => cases obstacleAll? ts <;> rfl

theorem laidOut_program (statements : List Tree) :
    laidOut (.program statements) = (laidOutAll statements).map "\n".intercalate := by
  rw [laidOut, laidOutAll, obstacle?, layout]
  cases obstacleAll? statements <;> rfl

/-! ## The walk with one text -/

mutual

/-- What the walk writes: the text so far, the layout of the tree and the open parentheses. -/
theorem renderFrom_eq : ∀ (text : String) (depth : Nat) (t : Tree),
    renderFrom text depth t = (laidOut t).map (within text depth)
  | text, depth, .operation family left op right line => by
    rw [renderFrom, renderFrom_eq "" 0 left, map_within_zero, laidOut_operation]
    cases laidOut left with
    | error f => rfl
    | ok l =>
      cases op.source with
      | error f => rfl
      | ok o =>
        change (if right.isOperation = true then renderFrom _ _ right else renderFrom _ _ right) = _
        by_cases h : right.isOperation = true
        · -- one more parenthesis is open below, and it is the first one closed
          rw [if_pos h, renderFrom_eq]
          cases laidOut right with
          | error f => rfl
          | ok r =>
            change Except.ok _ = Except.ok _
            simp only [within, grouped, if_pos h, closers_succ, String.append_assoc]
        · rw [if_neg h, renderFrom_eq]
          cases laidOut right with
          | error f => rfl
          | ok r =>
            change Except.ok _ = Except.ok _
            simp only [within, grouped, if_neg h, String.append_assoc]
  | text, depth, .integer n line => by
    rw [renderFrom, laidOut_integer]
    cases Text.decimal? n <;> rfl
  | text, depth, .string s _ => by rw [renderFrom]; rfl
  | text, depth, .boolean b _ => by rw [renderFrom]; rfl
  | text, depth, .identifier name _ => by rw [renderFrom]; rfl
  | text, depth, .binding name _ value _ => by
    rw [renderFrom, renderFrom_eq "" 0 value, map_within_zero, laidOut_binding]
    cases laidOut value with
    | error f => rfl
    | ok v =>
      change Except.ok _ = Except.ok _
      simp only [within, String.append_assoc]
  | text, depth, .printing value _ => by
    rw [renderFrom, renderFrom_eq "" 0 value, map_within_zero, laidOut_printing]
    cases laidOut value with
    | error f => rfl
    | ok v =>
      change Except.ok _ = Except.ok _
      simp only [within, String.append_assoc]
  | text, depth, .returning value _ => by
    rw [renderFrom, renderFrom_eq "" 0 value, map_within_zero, laidOut_returning]
    cases laidOut value with
    | error f => rfl
    | ok v =>
      change Except.ok _ = Except.ok _
      simp only [within, String.append_assoc]
  | text, depth, .program statements => by
    rw [renderFrom, renderAll_eq statements, laidOut_program]
    cases laidOutAll statements <;> rfl
  | text, depth, .absent => by rw [renderFrom]; rfl

theorem renderAll_eq : ∀ ts : List Tree, renderAll ts = laidOutAll ts
  | [] => rfl
  | t :: ts => by
    rw [renderAll, renderFrom_eq "" 0 t, map_within_zero, renderAll_eq ts, laidOutAll_cons]

end

theorem render_eq_laidOut (t : Tree) : render t = laidOut t := by
  rw [render, renderFrom_eq, map_within_zero]

/-- A tree has a text exactly when nothing in it cannot be written, and the text is its layout. -/
theorem render_eq_ok_iff {t : Tree} {text : String} :
    render t = .ok text ↔ t.obstacle? = none ∧ t.layout = text := by
  rw [render_eq_laidOut, laidOut]
  cases t.obstacle? with
  | none => simp
  | some cause => simp

/-! ## The walk with a list of texts -/

/-- Walks down the right operands of a tree. Each left operand goes to the list with its operator,
    and so does a parenthesis before a right operand that is an operator node; the last operand and
    all closing parentheses come at the end. -/
def gather (texts : List String) (depth : Nat) : Tree → Except Fault (List String)
  | .operation _ left op right _ => do
    let texts := texts ++ [(← render left) ++ " " ++ (← op.source) ++ " "]
    if right.isOperation then gather (texts ++ ["("]) (depth + 1) right
    else gather texts depth right
  | t => do return texts ++ [← render t, closers depth]

theorem gather_of_not_operation (texts : List String) (depth : Nat) {t : Tree}
    (h : t.isOperation = false) :
    gather texts depth t = (render t).map fun s => texts ++ [s, closers depth] := by
  cases t with
  | operation => cases h
  | _ => rfl

/-- The list, joined: the texts before the walk, the layout of the tree and the open parentheses. -/
theorem join_gather (texts : List String) (depth : Nat) (t : Tree) :
    (gather texts depth t).map String.join =
      (laidOut t).map (within (String.join texts) depth) := by
  induction t using operation_induction generalizing texts depth with
  | leaf t h =>
    rw [gather_of_not_operation texts depth h, render_eq_laidOut]
    cases laidOut t with
    | error f => rfl
    | ok s =>
      change Except.ok _ = Except.ok _
      simp only [within, String.join_append, String.join_cons, String.join_nil,
        String.append_empty, String.append_assoc]
  | operation family left op right line _ ih =>
    rw [gather, render_eq_laidOut, laidOut_operation]
    cases laidOut left with
    | error f => rfl
    | ok l =>
      cases op.source with
      | error f => rfl
      | ok o =>
        change Except.map _ (if right.isOperation = true then gather _ _ right
          else gather _ _ right) = _
        by_cases h : right.isOperation = true
        · rw [if_pos h, ih]
          cases laidOut right with
          | error f => rfl
          | ok r =>
            change Except.ok _ = Except.ok _
            simp only [within, grouped, if_pos h, closers_succ, String.join_append,
              String.join_cons, String.join_nil, String.append_empty, String.append_assoc]
        · rw [if_neg h, ih]
          cases laidOut right with
          | error f => rfl
          | ok r =>
            change Except.ok _ = Except.ok _
            simp only [within, grouped, if_neg h, String.join_append, String.join_cons,
              String.join_nil, String.append_empty, String.append_assoc]

/-- The walk down the right operands writes the layout of the tree, for every tree, or fails with the
    first thing that cannot be written: with one text and a count of open parentheses, and with a
    list of texts that are joined at the end. -/
theorem render_eq_layout (t : Tree) :
    render t = laidOut t ∧ (gather [] 0 t).map String.join = laidOut t := by
  constructor
  · exact render_eq_laidOut t
  · rw [join_gather, String.join_nil, map_within_zero]

end LetScript.Tree
