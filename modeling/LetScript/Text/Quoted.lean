import LetScript.Text.Printable

/-
  Quoted text, as error messages and token listings show it. The text stands between two equal
  quotes; a backslash, the chosen quote and every character that is not printable are escaped.
-/

namespace LetScript.Text

/-- The quote that a string literal or a quoted text may start with. -/
def singleQuote : Char := '\x27'

/-- The other such quote. -/
def doubleQuote : Char := '\x22'

namespace Quoted

/-- Double quotes only for a text that has a single quote and no double one. -/
def quoteFor (cs : List Char) : Char :=
  if cs.contains singleQuote && !cs.contains doubleQuote then doubleQuote else singleQuote

/-- A backslash, a letter and the code point in lower-case hexadecimal, filled up with zeros. -/
def numbered (letter : Char) (width : Nat) (c : Char) : List Char :=
  '\\' :: letter :: (Nat.toDigits 16 c.toNat).leftpad width '0'

/-- How one character is written between quotes. -/
def escape (quote c : Char) : List Char :=
  if c = '\\' || c = quote then ['\\', c]
  else if c = '\n' then ['\\', 'n']
  else if c = '\r' then ['\\', 'r']
  else if c = '\t' then ['\\', 't']
  else if isPrintable c then [c]
  else if c.toNat < 0x100 then numbered 'x' 2 c
  else if c.toNat < 0x10000 then numbered 'u' 4 c
  else numbered 'U' 8 c

/-- A text between quotes. -/
def encode (cs : List Char) : List Char :=
  let quote := quoteFor cs
  quote :: (cs.flatMap (escape quote) ++ [quote])

end Quoted

/-- A string between quotes. -/
def quoted (s : String) : String := String.ofList (Quoted.encode s.toList)

end LetScript.Text
