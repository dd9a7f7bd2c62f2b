import LetScript.Apply

/-
  Operators on operands that need not be values. A caller may hand a bare piece of data to an
  operator. A known operator then asks each side for its type, the left one first, and `+` beside
  a string asks for the display form; bare data has neither.
-/

namespace LetScript

/-- What a caller hands to an operator. -/
inductive Operand
  | value (value : Value)
  | bare (datum : Datum)

namespace Operand

/-- Whether an operand is a string value. -/
def isString : Operand → Bool
  | .value v => v.ty = .string
  | .bare _ => false

/-- The fault of the first bare operand, beside the other operand. -/
def refusal (file : Option String) (line : Line) (family : Family) (op : Op) (datum : Datum)
    (beside : Operand) : Fault :=
  if op.family? ≠ some family then unknown file line op
  else if op = .add && beside.isString then .unplaced (.noDisplay datum)
  else .raised none none (.notValue datum)

/-- The name of an operand's type. -/
def typeName : Operand → Except Fault String
  | .value v => .ok v.ty.name
  | .bare datum => .error (.raised none none (.notValue datum))

/-- Whether two operands compare as equal. A value never equals bare data. -/
def same : Operand → Operand → Bool
  | .value v, .value w => v = w
  | .bare a, .bare b => a.same b
  | _, _ => false

end Operand

/-- An operator in a node of a family, on any operands. -/
def Family.applyTo (family : Family) (file : Option String) (line : Line) (op : Op) :
    Operand → Operand → Except Fault Value
  | .value lhs, .value rhs => family.apply file line op lhs rhs
  | .bare datum, beside => .error (Operand.refusal file line family op datum beside)
  | beside, .bare datum => .error (Operand.refusal file line family op datum beside)

end LetScript
