/-
  Text from the bytes of a file. Bytes are read as UTF-8; the first sequence that no character has
  is reported with its place and length. Line ends are then unified: a carriage return, alone or
  before a line feed, becomes one line feed.
-/

namespace LetScript.Text

namespace Utf8

/-- Why a sequence of bytes is no character. -/
inductive Reason
  | invalidStart
  | invalidContinuation
  | endOfData
  deriving DecidableEq

/-- The first sequence that is no character: the offsets of its first and last byte, and its first
    byte. -/
structure Fault where
  first : Nat
  last : Nat
  byte : UInt8
  reason : Reason
  deriving DecidableEq

/-- A character begun: where it began, its first byte, how many bytes it still needs, the bounds
    of the next one, and the bits read so far. -/
structure Begun where
  start : Nat
  byte : UInt8
  owed : Nat
  low : Nat
  high : Nat
  bits : Nat

/-- What a first byte begins. A byte that no character starts with begins nothing, and one below
    0x80 is a character that needs no more bytes. -/
def begin? (pos : Nat) (b : UInt8) : Option Begun :=
  let n := b.toNat
  if n < 0x80 then some ⟨pos, b, 0, 0x80, 0xBF, n⟩
  else if n < 0xC2 then none
  else if n < 0xE0 then some ⟨pos, b, 1, 0x80, 0xBF, n - 0xC0⟩
  else if n = 0xE0 then some ⟨pos, b, 2, 0xA0, 0xBF, 0⟩
  else if n = 0xED then some ⟨pos, b, 2, 0x80, 0x9F, 0xD⟩
  else if n < 0xF0 then some ⟨pos, b, 2, 0x80, 0xBF, n - 0xE0⟩
  else if n = 0xF0 then some ⟨pos, b, 3, 0x90, 0xBF, 0⟩
  else if n < 0xF4 then some ⟨pos, b, 3, 0x80, 0xBF, n - 0xF0⟩
  else if n = 0xF4 then some ⟨pos, b, 3, 0x80, 0x8F, 4⟩
  else none

/-- Reads on from offset `pos`, inside a character when one is begun. `done` holds the characters
    read, the last one first. -/
def decodeFrom (pos : Nat) (begun : Option Begun) (done : List Char) :
    List UInt8 → Except Fault (List Char)
  | [] =>
    match begun with
    | none => .ok done.reverse
    | some g => .error ⟨g.start, pos - 1, g.byte, .endOfData⟩
  | b :: bytes =>
    match begun with
    | none =>
      match begin? pos b with
      | none => .error ⟨pos, pos, b, .invalidStart⟩
      | some g =>
        if g.owed = 0 then decodeFrom (pos + 1) none (Char.ofNat g.bits :: done) bytes
        else decodeFrom (pos + 1) (some g) done bytes
    | some g =>
      let n := b.toNat
      if n < g.low || g.high < n then .error ⟨g.start, pos - 1, g.byte, .invalidContinuation⟩
      else
        let bits := g.bits * 64 + (n - 0x80)
        if g.owed = 1 then decodeFrom (pos + 1) none (Char.ofNat bits :: done) bytes
        else decodeFrom (pos + 1) (some ⟨g.start, g.byte, g.owed - 1, 0x80, 0xBF, bits⟩) done bytes

/-- The characters of a file. -/
def decode (bytes : List UInt8) : Except Fault (List Char) := decodeFrom 0 none [] bytes

end Utf8

/-- One line feed for every line end. -/
def unifyLineEnds : List Char → List Char
  | [] => []
  | '\r' :: '\n' :: cs => '\n' :: unifyLineEnds cs
  | c :: cs => (if c = '\r' then '\n' else c) :: unifyLineEnds cs

end LetScript.Text
