import LetScript.Text.Decimal

/-
  Values of the language: integers, strings and booleans. Integers are 32-bit and signed;
  arithmetic is exact and is refused outside that range, it never wraps.
-/

namespace LetScript

/-- The types of values. -/
inductive Ty
  | integer
  | string
  | boolean
  deriving DecidableEq

/-- A value. -/
inductive Value
  | integer (value : Int)
  | string (text : String)
  | boolean (value : Bool)
  deriving DecidableEq

/-- The name of a type in messages. -/
def Ty.name : Ty → String
  | .integer => "integer"
  | .string => "string"
  | .boolean => "boolean"

namespace Value

/-- The type of a value. -/
def ty : Value → Ty
  | .integer _ => .integer
  | .string _ => .string
  | .boolean _ => .boolean

/-- The display form, which is the text that `print` writes. An integer that is too long to be
    written has none. -/
def display? : Value → Option String
  | .integer n => Text.decimal? n
  | .string s => some s
  | .boolean true => some "true"
  | .boolean false => some "false"

theorem display?_eq_none_iff {v : Value} :
    v.display? = none ↔ ∃ n, v = .integer n ∧ numeralLimit ≤ n.natAbs := by
  cases v with
  | integer n => simp [display?, Text.decimal?_eq_none_iff]
  | string s => simp [display?]
  | boolean b => cases b <;> simp [display?]

end Value

/-! ## The integer range -/

/-- The least integer. -/
def intMin : Int := -2147483648

/-- The greatest integer. -/
def intMax : Int := 2147483647

/-- Whether an exact result is an integer of the language. -/
def InRange (n : Int) : Prop := intMin ≤ n ∧ n ≤ intMax

instance (n : Int) : Decidable (InRange n) := inferInstanceAs (Decidable (_ ∧ _))

theorem inRange_zero : InRange 0 := by decide

/-- An integer of the language can be written. -/
theorem decimal?_of_inRange {n : Int} (h : InRange n) : Text.decimal? n = some (toString n) := by
  refine Text.decimal?_eq_some_iff.2 ⟨Text.lt_limit ?_, rfl⟩
  unfold InRange intMin intMax at h
  omega

end LetScript
