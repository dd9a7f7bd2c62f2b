/-
  Sets of code points given as ordered ranges, the form in which character classes are tabulated.
-/

namespace LetScript.Text

/-- Ranges of code points, ends included, in increasing order. -/
abbrev Ranges := List (Nat × Nat)

/-- Whether a code point lies in one of the ranges. The walk stops at the first range above it. -/
def Ranges.contains : Ranges → Nat → Bool
  | [], _ => false
  | (low, high) :: ranges, n =>
    if n < low then false else if n ≤ high then true else Ranges.contains ranges n

end LetScript.Text
