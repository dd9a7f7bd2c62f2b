import LetScript.Text.Quoted

/-
  Operators. Six are known; a tree built by hand may hold any other text in an operator's place.
  Operators form two families, and an operator means something only in a node of its own family.
-/

namespace LetScript

/-- An operator. -/
inductive Op
  | add
  | sub
  | mul
  | div
  | and
  | or
  | other (text : String)
  deriving DecidableEq

/-- The two kinds of operator node. -/
inductive Family
  | arithmetic
  | logical
  deriving DecidableEq

namespace Op

/-- The known operators. -/
def all : List Op := [.add, .sub, .mul, .div, .and, .or]

/-- The source text. -/
def text : Op → String
  | .add => "+"
  | .sub => "-"
  | .mul => "*"
  | .div => "/"
  | .and => "and"
  | .or => "or"
  | .other s => s

/-- The operator with a given source text. -/
def ofText (s : String) : Op := (all.find? fun op => op.text = s).getD (.other s)

/-- The family to which a known operator belongs. -/
def family? : Op → Option Family
  | .add | .sub | .mul | .div => some .arithmetic
  | .and | .or => some .logical
  | .other _ => none

/-- How a described tree shows the operator. -/
def written : Op → String
  | .add => "<Op.ADD: '+'>"
  | .sub => "<Op.SUB: '-'>"
  | .mul => "<Op.MUL: '*'>"
  | .div => "<Op.DIV: '/'>"
  | .and => "<Op.AND: 'and'>"
  | .or => "<Op.OR: 'or'>"
  | .other s => Text.quoted s

/-- Every text is the text of its operator. -/
theorem text_ofText (s : String) : (ofText s).text = s := by
  unfold ofText
  cases h : all.find? fun op => op.text = s with
  | none => rfl
  | some op => simpa using List.find?_some h

end Op

end LetScript
