import LetScript.Tree

/-
  Structural descriptions of trees: every node with its sort, its fields and its line. The message
  on a node that is no expression shows one.
-/

namespace LetScript.Tree

/-- The items of a described sequence: one item keeps a comma after it. -/
def sequenced : List String → String
  | [item] => "(" ++ item ++ ",)"
  | items => "(" ++ ", ".intercalate items ++ ")"

mutual

/-- The structural description, if every integer in it can be written. -/
def described? : Tree → Option String
  | .integer n line => do
    return "Integer(value=" ++ (← Text.decimal? n) ++ ", line=" ++ line.written ++ ")"
  | .string s line => some ("String(value=" ++ Text.quoted s ++ ", line=" ++ line.written ++ ")")
  | .boolean b line =>
    some ("Boolean(value=" ++ (if b then "True" else "False") ++ ", line=" ++ line.written ++ ")")
  | .identifier name line =>
    some ("Identifier(name=" ++ Text.quoted name ++ ", line=" ++ line.written ++ ")")
  | .operation family left op right line => do
    return (operation family left op right line).sortName ++ "(left=" ++ (← described? left) ++
      ", operator=" ++ op.written ++ ", right=" ++ (← described? right) ++ ", line=" ++
      line.written ++ ")"
  | .binding name nameLine value line => do
    return "Let(identifier=Identifier(name=" ++ Text.quoted name ++ ", line=" ++ nameLine.written ++
      "), value=" ++ (← described? value) ++ ", line=" ++ line.written ++ ")"
  | .printing value line => do
    return "Print(value=" ++ (← described? value) ++ ", line=" ++ line.written ++ ")"
  | .returning value line => do
    return "Return(value=" ++ (← described? value) ++ ", line=" ++ line.written ++ ")"
  | .program statements => do
    return "Program(statements=" ++ sequenced (← describedAll? statements) ++ ")"
  | .absent => some "None"

/-- The structural descriptions of the trees of a list. -/
def describedAll? : List Tree → Option (List String)
  | [] => some []
  | t :: ts => do return (← described? t) :: (← describedAll? ts)

end

/-! ## Which trees are described -/

theorem isSome_described?_operation (family : Family) (left : Tree) (op : Op) (right : Tree)
    (line : Line) : (operation family left op right line).described?.isSome =
      (left.described?.isSome && right.described?.isSome) := by
  rw [described?]
  cases left.described? <;> cases right.described? <;> rfl

theorem isSome_described?_binding (name : String) (nameLine : Line) (value : Tree) (line : Line) :
    (binding name nameLine value line).described?.isSome = value.described?.isSome := by
  rw [described?]
  cases value.described? <;> rfl

theorem isSome_described?_printing (value : Tree) (line : Line) :
    (printing value line).described?.isSome = value.described?.isSome := by
  rw [described?]
  cases value.described? <;> rfl

theorem isSome_described?_returning (value : Tree) (line : Line) :
    (returning value line).described?.isSome = value.described?.isSome := by
  rw [described?]
  cases value.described? <;> rfl

theorem isSome_described?_program (statements : List Tree) :
    (program statements).described?.isSome = (describedAll? statements).isSome := by
  rw [described?]
  cases describedAll? statements <;> rfl

theorem isSome_describedAll?_cons (t : Tree) (ts : List Tree) :
    (describedAll? (t :: ts)).isSome = (t.described?.isSome && (describedAll? ts).isSome) := by
  rw [describedAll?]
  cases t.described? <;> cases describedAll? ts <;> rfl

end LetScript.Tree
