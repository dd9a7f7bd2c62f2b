import LetScript.Piece
import LetScript.Value

/-
  Tokens of a source text. Each piece is read as a lexeme, skipped if it is blank, or refused; a
  token's line is one more than the number of line feeds before it. A scan that is refused still
  has the tokens before the refused piece. A scan that is not ends in one end-of-input token.
-/

namespace LetScript

/-- What a piece means: nothing, a lexeme, or an error. -/
inductive Reading
  | skip
  | lexeme (lexeme : Lexeme)
  | refuse (cause : Cause)

/-- The number that a digit run is. -/
def Piece.number (run : List Char) : Int := Nat.ofDigitChars 10 run 0

/-- What a piece means. A digit run is first refused for its length, then for its value. -/
def Piece.reading : Piece → Reading
  | .blanks _ => .skip
  | .digits run =>
    if maxDigits < run.length then .refuse (.tooManyDigits run.length)
    else if intMax < Piece.number run then .refuse (.integerTooLarge (String.ofList run))
    else .lexeme (.integer (Piece.number run))
  | .word run => .lexeme (Lexeme.ofWord (String.ofList run))
  | .quoted _ body => .lexeme (.string (String.ofList body))
  | .unclosed quote body => .refuse (.unclosedString quote (String.ofList body))
  | .symbol m => .lexeme (Lexeme.ofMark m)
  | .stray c => .refuse (.strayCharacter c)

/-- The tokens read, and the error that ended the reading, if one did. -/
structure Scan where
  tokens : List Token
  fault : Option Fault

namespace Scan

/-- Reads pieces, the first of which starts on the given line. -/
def ofPieces (file : Option String) (line : Nat) : List Piece → Scan
  | [] => ⟨[⟨.eof, some line⟩], none⟩
  | p :: ps =>
    match p.reading with
    | .skip => ofPieces file (line + Text.newlines p.text) ps
    | .refuse cause => ⟨[], some (Fault.placed file (some line) cause)⟩
    | .lexeme l =>
      let rest := ofPieces file (line + Text.newlines p.text) ps
      ⟨⟨l, some line⟩ :: rest.tokens, rest.fault⟩

/-- Reads a source text. -/
def ofText (file : Option String) (source : String) : Scan := ofPieces file 1 (pieces source.toList)

/-- The tokens, if nothing was refused. -/
def result (s : Scan) : Except Fault (List Token) :=
  match s.fault with
  | none => .ok s.tokens
  | some f => .error f

end Scan

/-- The tokens of a source text, or the error that refuses it. -/
def tokenize (file : Option String) (source : String) : Except Fault (List Token) :=
  (Scan.ofText file source).result

end LetScript
