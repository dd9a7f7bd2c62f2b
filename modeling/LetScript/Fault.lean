import LetScript.Token
import LetScript.Tree.Describe

/-
  Errors, by cause. A fault is a cause with the line and the file at which it arose. The wording
  of every cause is in `Cause.text?`, the name under which it is reported in `Cause.title`, and the
  place is added by `Fault.message`.

  Some causes lie outside the language's own errors: a digit run that is too long to be read as a
  number, an integer that is too long to be written, and misuse of trees, tokens or operands. They
  have no stage and their message shows no place. A message is written when its fault is raised, so
  a cause that tells such an integer is never raised: `Fault.raised` has the other fault instead.
-/

namespace LetScript

/-- The part of the work in which an error of the language arises. -/
inductive Stage
  | any
  | lexing
  | parsing
  | running
  deriving DecidableEq

/-- What went wrong. -/
inductive Cause
  | strayCharacter (c : Char)
  | unclosedString (quote : Char) (body : String)
  | integerTooLarge (digits : String)
  | tooManyDigits (count : Nat)
  | unwritable
  | endOfInput
  | expectedKind (kind : Kind) (found : Lexeme)
  | expectedTerm (found : Lexeme)
  | expectedStatement (found : Lexeme)
  | alreadyDefined (name : String)
  | notDefined (name : String)
  | typeMismatch (op : Op) (lhs rhs : String)
  | divisionByZero
  | overflow (op : Op) (result : Int)
  | unknownOp (op : Op)
  | notStatement (tree : Tree)
  | notExpression (tree : Tree)
  | notValue (operand : Datum)
  | noDisplay (operand : Datum)
  | noOperatorText
  | fixedToken
  | stated (stage : Stage) (message : String)

/-- A cause with its place. -/
structure Fault where
  cause : Cause
  line : Line
  file : Option String

/-- The number of characters of an unclosed string that its message shows. -/
def excerptLength : Nat := 20

/-- The first line of a text, cut after `excerptLength` characters. -/
def excerpt (s : String) : String :=
  let line := s.toList.takeWhile (· ≠ '\n')
  if excerptLength < line.length then String.ofList (line.take excerptLength) ++ "..."
  else String.ofList line

namespace Cause

/-- The stage of an error of the language. -/
def stage? : Cause → Option Stage
  | .strayCharacter _ | .unclosedString .. | .integerTooLarge _ => some .lexing
  | .endOfInput | .expectedKind .. | .expectedTerm _ | .expectedStatement _ => some .parsing
  | .alreadyDefined _ | .notDefined _ | .typeMismatch .. | .divisionByZero | .overflow ..
  | .unknownOp _ => some .running
  | .stated stage _ => some stage
  | .tooManyDigits _ | .unwritable | .notStatement _ | .notExpression _ | .notValue _
  | .noDisplay _ | .noOperatorText | .fixedToken => none

/-- The name under which a cause is reported. -/
def title : Cause → String
  | .strayCharacter _ | .unclosedString .. | .integerTooLarge _ => "LexError"
  | .endOfInput | .expectedKind .. | .expectedTerm _ | .expectedStatement _ => "ParseError"
  | .alreadyDefined _ => "VariableRedefinedException"
  | .notDefined _ => "UndefinedVariableException"
  | .typeMismatch .. => "TypeMismatchException"
  | .divisionByZero => "DivisionByZeroException"
  | .overflow .. => "IntegerOverflowException"
  | .unknownOp _ => "UnknownOpException"
  | .stated .any _ => "LetlangError"
  | .stated .lexing _ => "LexError"
  | .stated .parsing _ => "ParseError"
  | .stated .running _ => "ScriptRuntimeError"
  | .tooManyDigits _ | .unwritable => "ValueError"
  | .notStatement _ | .notExpression _ | .notValue _ => "TypeError"
  | .noDisplay _ | .noOperatorText | .fixedToken => "AttributeError"

/-- The names of the sorts of error to which a cause belongs, the narrowest one first. -/
def ancestry (cause : Cause) : List String :=
  let every := ["Exception", "BaseException", "object"]
  let running := ["LetlangError", "RuntimeError"] ++ every
  match cause, cause.stage? with
  | .stated .any _, _ => "LetlangError" :: every
  | .stated .running _, _ => "ScriptRuntimeError" :: running
  | _, some .running => cause.title :: "ScriptRuntimeError" :: running
  | _, some _ => cause.title :: "LetlangError" :: every
  | _, none => cause.title :: every

/-- The wording, without the place, if the integers in it can be written. -/
def text? : Cause → Option String
  | .strayCharacter c => some ("Unexpected character " ++ Text.quoted (String.singleton c))
  | .unclosedString quote body =>
    some ("Unterminated string literal " ++ String.singleton quote ++ excerpt body)
  | .integerTooLarge digits => some ("Integer literal " ++ digits ++ " out of range")
  | .tooManyDigits count =>
    some ("Exceeds the limit (" ++ toString maxDigits ++
      " digits) for integer string conversion: value has " ++ toString count ++
      " digits; use sys.set_int_max_str_digits() to increase the limit")
  | .unwritable =>
    some ("Exceeds the limit (" ++ toString maxDigits ++
      " digits) for integer string conversion" ++
      "; use sys.set_int_max_str_digits() to increase the limit")
  | .endOfInput => some "Unexpected end of input"
  | .expectedKind kind found => found.described?.map fun text =>
    "Expected token " ++ kind.wanted ++ ", but got " ++ text
  | .expectedTerm found => found.described?.map fun text =>
    "Unexpected token: " ++ text ++ ", expected integer, boolean, string or identifier"
  | .expectedStatement found => found.described?.map fun text =>
    "Unexpected token: " ++ text ++ ", expected a statement ('let', 'print' or 'return')"
  | .alreadyDefined name => some ("Variable '" ++ name ++ "' already defined")
  | .notDefined name => some ("Variable '" ++ name ++ "' not defined")
  | .typeMismatch op lhs rhs =>
    some ("Type mismatch: unsupported operand types for '" ++ op.text ++ "': " ++ lhs ++ " and " ++
      rhs)
  | .divisionByZero => some "Division by zero"
  | .overflow op result => (Text.decimal? result).map fun text =>
    "Integer overflow: result of '" ++ op.text ++ "' (" ++ text ++ ") is out of range"
  | .unknownOp op => some ("Unknown operation '" ++ op.text ++ "'")
  | .notStatement tree => some ("Unknown statement type: " ++ tree.sortName)
  | .notExpression tree => tree.described?.map fun text => "Invalid expression node: " ++ text
  | .notValue operand => operand.written?.map fun text => "Not a Letlang value: " ++ text
  | .noDisplay operand => some ("'" ++ operand.sortName ++ "' object has no attribute 'display'")
  | .noOperatorText => some "'str' object has no attribute 'value'"
  | .fixedToken => some "Token is immutable"
  | .stated _ message => some message

/-- The wording of a cause that is raised. -/
def text (cause : Cause) : String := cause.text?.getD ""

end Cause

/-- The place that a message names: the line and the file, each if known. -/
def location (line : Line) (file : Option String) : String :=
  (match line with
    | none => ""
    | some n => " on line " ++ toString n) ++
  match file with
  | none => ""
  | some name => " in " ++ name

namespace Fault

/-- A fault without a place. -/
def unplaced (cause : Cause) : Fault := ⟨cause, none, none⟩

/-- A fault at a place. Causes outside the language's own errors keep none. -/
def placed (file : Option String) (line : Line) (cause : Cause) : Fault :=
  if cause.stage?.isSome then ⟨cause, line, file⟩ else unplaced cause

theorem cause_placed (file : Option String) (line : Line) (cause : Cause) :
    (placed file line cause).cause = cause := by
  unfold placed
  split <;> rfl

/-- A fault with its message, which is written at once: where an integer in it is too long, that is
    the fault. -/
def raised (file : Option String) (line : Line) (cause : Cause) : Fault :=
  if cause.text?.isSome then placed file line cause else unplaced .unwritable

theorem raised_of_written {file : Option String} {line : Line} {cause : Cause}
    (h : cause.text?.isSome = true) : raised file line cause = placed file line cause := if_pos h

theorem raised_of_unwritten {file : Option String} {line : Line} {cause : Cause}
    (h : cause.text? = none) : raised file line cause = unplaced .unwritable := by
  rw [raised, h]
  rfl

theorem cause_raised (file : Option String) (line : Line) (cause : Cause) :
    (raised file line cause).cause = cause ∨ (raised file line cause).cause = .unwritable := by
  unfold raised
  split
  · exact .inl (cause_placed file line cause)
  · exact .inr rfl

/-- A text that may be too long to be written, or the fault that it is. -/
def ofText? (text : Option String) : Except Fault String :=
  match text with
  | some s => .ok s
  | none => .error (unplaced .unwritable)

/-- The whole message. -/
def message (f : Fault) : String := f.cause.text ++ location f.line f.file

/-- The line that a command reports: title and message. -/
def report (f : Fault) : String := f.cause.title ++ ": " ++ f.message

end Fault

/-- Gives a token's field a new value, which is always refused: tokens do not change. -/
def Token.assign (_ : Token) (_field : String) : Except Fault Token :=
  .error (.unplaced .fixedToken)

end LetScript
