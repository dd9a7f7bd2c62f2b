import LetScript.Text.Decimal
import LetScript.Text.Quoted

/-
  Bare data and how listings and messages write it. Token payloads and line numbers are shown this
  way, and so is an operand that is no value of the language. An integer that is too long to be
  written has no written form; line numbers, which count the lines of a text, always have one.
-/

namespace LetScript

/-- A line number, if the place is known. -/
abbrev Line := Option Int

/-- A bare piece of data, outside the language's own values. -/
inductive Datum
  | none
  | boolean (value : Bool)
  | integer (value : Int)
  | string (text : String)
  deriving DecidableEq

namespace Datum

/-- The written form, if there is one. -/
def written? : Datum → Option String
  | .none => some "None"
  | .boolean true => some "True"
  | .boolean false => some "False"
  | .integer n => Text.decimal? n
  | .string s => some (Text.quoted s)

/-- The name of the sort of data, as the message on a missing display form gives it. -/
def sortName : Datum → String
  | .none => "NoneType"
  | .boolean _ => "bool"
  | .integer _ => "int"
  | .string _ => "str"

/-- Whether two pieces of data compare as equal. A truth value counts as the number 1 or 0. -/
def same : Datum → Datum → Bool
  | .boolean b, .integer n | .integer n, .boolean b => n = if b then 1 else 0
  | a, b => a = b

end Datum

/-- The written form of a line number. -/
def Line.written (line : Line) : String :=
  match line with
  | none => "None"
  | some n => toString n

end LetScript
