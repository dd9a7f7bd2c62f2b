import LetScript.Datum
import LetScript.Op

/-
  Program trees. One type holds terms, operator nodes, statements and programs, because a tree
  built by hand may have any of them anywhere; `absent` stands where nothing was written, as in a
  bare `print;`. Each node but `program` and `absent` carries the line of the token that
  introduced it.

  `Tree.same` compares two trees without their lines.
-/

namespace LetScript

/-- A program tree. -/
inductive Tree
  | integer (value : Int) (line : Line)
  | string (text : String) (line : Line)
  | boolean (value : Bool) (line : Line)
  | identifier (name : String) (line : Line)
  | operation (family : Family) (left : Tree) (op : Op) (right : Tree) (line : Line)
  | binding (name : String) (nameLine : Line) (value : Tree) (line : Line)
  | printing (value : Tree) (line : Line)
  | returning (value : Tree) (line : Line)
  | program (statements : List Tree)
  | absent

namespace Tree

/-- The name of a node's sort in messages. -/
def sortName : Tree → String
  | .integer .. => "Integer"
  | .string .. => "String"
  | .boolean .. => "Boolean"
  | .identifier .. => "Identifier"
  | .operation .arithmetic .. => "BinaryExpression"
  | .operation .logical .. => "LogicalExpression"
  | .binding .. => "Let"
  | .printing .. => "Print"
  | .returning .. => "Return"
  | .program .. => "Program"
  | .absent => "NoneType"

/-- Whether the root is an operator node. -/
def isOperation : Tree → Bool
  | .operation .. => true
  | _ => false

/-- Whether nothing is written there. -/
def isAbsent : Tree → Bool
  | .absent => true
  | _ => false

mutual

/-- Whether two trees agree but for their lines. -/
def same : Tree → Tree → Bool
  | .integer a _, .integer b _ => a == b
  | .string a _, .string b _ => a == b
  | .boolean a _, .boolean b _ => a == b
  | .identifier a _, .identifier b _ => a == b
  | .operation f l o r _, .operation g l' o' r' _ => f == g && o == o' && same l l' && same r r'
  | .binding a _ v _, .binding b _ w _ => a == b && same v w
  | .printing v _, .printing w _ => same v w
  | .returning v _, .returning w _ => same v w
  | .program ss, .program ts => sameAll ss ts
  | .absent, .absent => true
  | _, _ => false

/-- Whether two lists of trees agree but for their lines. -/
def sameAll : List Tree → List Tree → Bool
  | [], [] => true
  | s :: ss, t :: ts => same s t && sameAll ss ts
  | _, _ => false

end

mutual

theorem same_refl : ∀ t : Tree, same t t = true
  | .integer .. | .string .. | .boolean .. | .identifier .. | .absent => by simp [same]
  | .operation _ l _ r _ => by simp [same, same_refl l, same_refl r]
  | .binding _ _ v _ | .printing v _ | .returning v _ => by simp [same, same_refl v]
  | .program ss => by simp [same, sameAll_refl ss]

theorem sameAll_refl : ∀ ts : List Tree, sameAll ts ts = true
  | [] => by simp [sameAll]
  | t :: ts => by simp [sameAll, same_refl t, sameAll_refl ts]

end

end Tree

end LetScript
