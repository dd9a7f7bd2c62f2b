import LetScript.Fault

/-
  Trees as source text. An operator node is its left operand, the operator and its right operand,
  and the right operand stands in parentheses exactly when it is an operator node itself, so the
  text shows the grouping. A tree with an integer that is too long to be written has no text, and
  neither has one with an operator that is none of the known ones.

  `render` walks down the right operands of a chain with the text written so far and the number of
  open parentheses, so a long chain needs no deep recursion. `layout` is the same text said
  recursively, node by node, and `obstacle?` what keeps it from being written.
-/

namespace LetScript

/-- The source text of an operator, which the known ones have. -/
def Op.source : Op → Except Fault String
  | .other _ => .error (.unplaced .noOperatorText)
  | op => .ok op.text

namespace Tree

/-- A string literal: in double quotes, or in single ones if the text has a double quote. -/
def literal (s : String) : String :=
  let quote := String.singleton
    (if s.toList.contains Text.doubleQuote then Text.singleQuote else Text.doubleQuote)
  quote ++ s ++ quote

/-- What follows a keyword: a blank and the value's text, or nothing where no value is written. -/
def argument (value : Tree) (text : String) : String :=
  if value.isAbsent then "" else " " ++ text

/-- Closing parentheses. -/
def closers (depth : Nat) : String := String.ofList (List.replicate depth ')')

mutual

/-- Writes a tree after `text`, inside `depth` open parentheses, and closes them. -/
def renderFrom (text : String) (depth : Nat) : Tree → Except Fault String
  | .operation _ left op right _ => do
    let text := text ++ (← renderFrom "" 0 left) ++ " " ++ (← op.source) ++ " "
    if right.isOperation then renderFrom (text ++ "(") (depth + 1) right
    else renderFrom text depth right
  | .integer n _ => do return text ++ (← Fault.ofText? (Text.decimal? n)) ++ closers depth
  | .string s _ => return text ++ literal s ++ closers depth
  | .boolean b _ => return text ++ (if b then "true" else "false") ++ closers depth
  | .identifier name _ => return text ++ name ++ closers depth
  | .binding name _ value _ => do
    return text ++ "let " ++ name ++ " = " ++ (← renderFrom "" 0 value) ++ ";" ++ closers depth
  | .printing value _ => do
    return text ++ "print" ++ argument value (← renderFrom "" 0 value) ++ ";" ++ closers depth
  | .returning value _ => do
    return text ++ "return" ++ argument value (← renderFrom "" 0 value) ++ ";" ++ closers depth
  | .program statements => do
    return text ++ "\n".intercalate (← renderAll statements) ++ closers depth
  | .absent => return text ++ "<node NoneType>" ++ closers depth

/-- The source texts of the trees of a list. -/
def renderAll : List Tree → Except Fault (List String)
  | [] => return []
  | t :: ts => do return (← renderFrom "" 0 t) :: (← renderAll ts)

end

/-- The source text of a tree. -/
def render (t : Tree) : Except Fault String := renderFrom "" 0 t

/-! ## The rule, node by node -/

/-- A right operand's text, in parentheses if the operand is an operator node. -/
def grouped (operand : Tree) (text : String) : String :=
  if operand.isOperation then "(" ++ text ++ ")" else text

mutual

/-- The source text of a tree, from the texts of its children, as if all of it could be written. -/
def layout : Tree → String
  | .operation _ left op right _ =>
    layout left ++ " " ++ op.text ++ " " ++ grouped right (layout right)
  | .integer n _ => toString n
  | .string s _ => literal s
  | .boolean b _ => if b then "true" else "false"
  | .identifier name _ => name
  | .binding name _ value _ => "let " ++ name ++ " = " ++ layout value ++ ";"
  | .printing value _ => "print" ++ argument value (layout value) ++ ";"
  | .returning value _ => "return" ++ argument value (layout value) ++ ";"
  | .program statements => "\n".intercalate (layoutAll statements)
  | .absent => "<node NoneType>"

/-- The texts of the trees of a list. -/
def layoutAll : List Tree → List String
  | [] => []
  | t :: ts => layout t :: layoutAll ts

end

mutual

/-- The first thing in a tree, from left to right, that cannot be written. -/
def obstacle? : Tree → Option Cause
  | .integer n _ => if n.natAbs < numeralLimit then none else some .unwritable
  | .operation _ left op right _ =>
    (obstacle? left).or ((if op.family?.isSome then none else some .noOperatorText).or
      (obstacle? right))
  | .binding _ _ value _ | .printing value _ | .returning value _ => obstacle? value
  | .program statements => obstacleAll? statements
  | .string .. | .boolean .. | .identifier .. | .absent => none

/-- The first thing in the trees of a list that cannot be written. -/
def obstacleAll? : List Tree → Option Cause
  | [] => none
  | t :: ts => (obstacle? t).or (obstacleAll? ts)

end

/-- The layout of a tree, or the fault of the first thing in it that cannot be written. -/
def laidOut (t : Tree) : Except Fault String :=
  match t.obstacle? with
  | none => .ok t.layout
  | some cause => .error (.unplaced cause)

end LetScript.Tree
