import LetScript.Datum
import LetScript.Op

/-
  Tokens. A lexeme is either a literal or a name with its payload, one of thirteen marks (symbols,
  statement keywords and the words `and`, `or`) with its text, or the end of the input. A token is
  a lexeme with the line on which it starts.
-/

namespace LetScript

/-- The lexemes whose text is fixed. -/
inductive Mark
  | plus
  | minus
  | asterisk
  | slash
  | lparen
  | rparen
  | semicolon
  | equal
  | returnWord
  | letWord
  | printWord
  | andWord
  | orWord
  deriving DecidableEq

namespace Mark

/-- The marks of one character. -/
def symbols : List Mark := [.plus, .minus, .asterisk, .slash, .lparen, .rparen, .semicolon, .equal]

/-- The words that start statements. -/
def keywords : List Mark := [.returnWord, .letWord, .printWord]

/-- The words that are operators. -/
def connectives : List Mark := [.andWord, .orWord]

/-- The source text. -/
def text : Mark → String
  | .plus => "+"
  | .minus => "-"
  | .asterisk => "*"
  | .slash => "/"
  | .lparen => "("
  | .rparen => ")"
  | .semicolon => ";"
  | .equal => "="
  | .returnWord => "return"
  | .letWord => "let"
  | .printWord => "print"
  | .andWord => "and"
  | .orWord => "or"

/-- The symbol that a character is. -/
def ofChar? : Char → Option Mark
  | '+' => some .plus
  | '-' => some .minus
  | '*' => some .asterisk
  | '/' => some .slash
  | '(' => some .lparen
  | ')' => some .rparen
  | ';' => some .semicolon
  | '=' => some .equal
  | _ => none

theorem text_of_ofChar? {c : Char} {m : Mark} (h : ofChar? c = some m) : m.text.toList = [c] := by
  unfold ofChar? at h
  split at h <;> first | (cases h; rfl) | cases h

/-- The operator that a mark stands for. -/
def op? : Mark → Option Op
  | .plus => some .add
  | .minus => some .sub
  | .asterisk => some .mul
  | .slash => some .div
  | .andWord => some .and
  | .orWord => some .or
  | _ => none

end Mark

/-- The kinds of tokens. -/
inductive Kind
  | eof
  | integer
  | string
  | boolean
  | identifier
  | mark (mark : Mark)
  deriving DecidableEq

namespace Kind

/-- All kinds, in the order in which they are listed. -/
def all : List Kind :=
  [.eof] ++ Mark.symbols.map .mark ++ [.integer, .string, .boolean, .identifier] ++
    Mark.keywords.map .mark ++ Mark.connectives.map .mark

/-- The name of a kind in listings and messages. -/
def name : Kind → String
  | .eof => "EOF"
  | .integer => "INTEGER"
  | .string => "STRING"
  | .boolean => "BOOLEAN"
  | .identifier => "IDENTIFIER"
  | .mark .plus => "PLUS"
  | .mark .minus => "MINUS"
  | .mark .asterisk => "ASTERISK"
  | .mark .slash => "SLASH"
  | .mark .lparen => "LPAREN"
  | .mark .rparen => "RPAREN"
  | .mark .semicolon => "SEMICOLON"
  | .mark .equal => "EQUAL"
  | .mark .returnWord => "RETURN"
  | .mark .letWord => "LET"
  | .mark .printWord => "PRINT"
  | .mark .andWord => "AND"
  | .mark .orWord => "OR"

/-- The kind with a given name. -/
def ofName? (s : String) : Option Kind := all.find? fun k => k.name = s

/-- What a message says it expected: the text of a mark with its kind, or the kind alone. -/
def wanted : Kind → String
  | .mark m => "'" ++ m.text ++ "' of type " ++ (Kind.mark m).name
  | k => k.name

theorem mem_all (k : Kind) : k ∈ all := by
  rcases k with _ | _ | _ | _ | _ | m
  case mark => cases m <;> decide
  all_goals decide

end Kind

/-- A lexeme with what it carries. A mark carries its text. -/
inductive Lexeme
  | eof
  | integer (value : Int)
  | string (text : String)
  | boolean (value : Bool)
  | identifier (name : String)
  | mark (mark : Mark) (text : String)
  deriving DecidableEq

namespace Lexeme

/-- The kind of a lexeme. -/
def kind : Lexeme → Kind
  | .eof => .eof
  | .integer _ => .integer
  | .string _ => .string
  | .boolean _ => .boolean
  | .identifier _ => .identifier
  | .mark m _ => .mark m

/-- What a lexeme carries. -/
def payload : Lexeme → Datum
  | .eof => .none
  | .integer n => .integer n
  | .string s => .string s
  | .boolean b => .boolean b
  | .identifier s => .string s
  | .mark _ s => .string s

/-- A mark in its own text. -/
def ofMark (m : Mark) : Lexeme := .mark m m.text

/-- The words that are no identifiers. -/
def words : List (String × Lexeme) :=
  Mark.keywords.map (fun m => (m.text, ofMark m)) ++
    [("true", .boolean true), ("false", .boolean false)] ++
    Mark.connectives.map fun m => (m.text, ofMark m)

/-- The lexeme that a word is. -/
def ofWord (w : String) : Lexeme := (words.lookup w).getD (.identifier w)

/-- How a message describes a lexeme that it did not expect. -/
def described? : Lexeme → Option String
  | .eof => some "end of input (EOF)"
  | l => l.payload.written?.map fun text => "value " ++ text ++ " of type " ++ l.kind.name

/-- Every lexeme is described but an integer that is too long to be written. -/
theorem described?_eq_none_iff {l : Lexeme} :
    l.described? = none ↔ ∃ n, l = .integer n ∧ numeralLimit ≤ n.natAbs := by
  cases l with
  | integer n =>
    simp only [described?, Option.map_eq_none_iff, payload, Datum.written?,
      Text.decimal?_eq_none_iff, integer.injEq, exists_eq_left']
  | boolean b => cases b <;> simp [described?, payload, Datum.written?]
  | _ => simp [described?, payload, Datum.written?]

end Lexeme

/-- A lexeme and the line on which it starts. -/
structure Token where
  lexeme : Lexeme
  line : Line
  deriving DecidableEq

namespace Token

/-- The kind of a token. -/
def kind (t : Token) : Kind := t.lexeme.kind

/-- The form in which listings show a token. -/
def written? (t : Token) : Option String :=
  t.lexeme.payload.written?.map fun text =>
    "Token(" ++ t.kind.name ++ ", " ++ text ++ ", line=" ++ t.line.written ++ ")"

end Token

end LetScript
