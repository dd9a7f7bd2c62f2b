import LetScript.Fault
import LetScript.Value

/-
  Operators on values. `+` joins display forms when either side is a string, and fails if one is too
  long to be written; otherwise the arithmetic operators need two integers, and `and`, `or` need two
  booleans. Integer results are exact and are refused outside the 32-bit range; a quotient is cut
  toward zero. An operator outside the node's family is unknown there, whatever its operands are.
-/

namespace LetScript

variable (file : Option String) (line : Line)

/-- The fault of operands that an operator does not take. -/
def mismatch (op : Op) (lhs rhs : Value) : Fault :=
  ⟨.typeMismatch op lhs.ty.name rhs.ty.name, line, file⟩

/-- The fault of an operator that has no meaning where it stands. -/
def unknown (op : Op) : Fault := ⟨.unknownOp op, line, file⟩

/-- The display forms of two values, joined. -/
def joined (lhs rhs : Value) : Except Fault Value := do
  return .string ((← Fault.ofText? lhs.display?) ++ (← Fault.ofText? rhs.display?))

/-- An exact result, refused outside the range. -/
def checked (op : Op) (result : Int) : Except Fault Value :=
  if InRange result then .ok (.integer result)
  else .error (.raised file line (.overflow op result))

/-- An operator on two integers. -/
def onIntegers (op : Op) (compute : Int → Int → Except Fault Value) (lhs rhs : Value) :
    Except Fault Value :=
  match lhs, rhs with
  | .integer a, .integer b => compute a b
  | _, _ => .error (mismatch file line op lhs rhs)

/-- An operator on two booleans. -/
def onBooleans (op : Op) (compute : Bool → Bool → Bool) (lhs rhs : Value) : Except Fault Value :=
  match lhs, rhs with
  | .boolean a, .boolean b => .ok (.boolean (compute a b))
  | _, _ => .error (mismatch file line op lhs rhs)

/-- The quotient of two integers, cut toward zero. -/
def quotient (a b : Int) : Except Fault Value :=
  if b = 0 then .error ⟨.divisionByZero, line, file⟩ else checked file line .div (a.tdiv b)

/-- An operator in an arithmetic node. -/
def applyArithmetic (op : Op) (lhs rhs : Value) : Except Fault Value :=
  match op with
  | .add =>
    if lhs.ty = .string ∨ rhs.ty = .string then joined lhs rhs
    else onIntegers file line .add (fun a b => checked file line .add (a + b)) lhs rhs
  | .sub => onIntegers file line .sub (fun a b => checked file line .sub (a - b)) lhs rhs
  | .mul => onIntegers file line .mul (fun a b => checked file line .mul (a * b)) lhs rhs
  | .div => onIntegers file line .div (quotient file line) lhs rhs
  | op => .error (unknown file line op)

/-- An operator in a logical node. -/
def applyLogical (op : Op) (lhs rhs : Value) : Except Fault Value :=
  match op with
  | .and => onBooleans file line .and (· && ·) lhs rhs
  | .or => onBooleans file line .or (· || ·) lhs rhs
  | op => .error (unknown file line op)

/-- An operator in a node of a family. -/
def Family.apply (family : Family) (op : Op) (lhs rhs : Value) : Except Fault Value :=
  match family with
  | .arithmetic => applyArithmetic file line op lhs rhs
  | .logical => applyLogical file line op lhs rhs

end LetScript
