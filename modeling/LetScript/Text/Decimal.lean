/-
  Integers in decimal. An integer of more than `maxDigits` digits is not read from a text, and it
  is not written as one either; a sign is no digit.

  Main statements: `decimal?_eq_some_iff` and `decimal?_eq_none_iff` (which integers are written).
-/

namespace LetScript

/-- The most digits with which an integer is read or written. -/
def maxDigits : Nat := 4300

/-- The least natural number that has too many digits. -/
def numeralLimit : Nat := Nat.pow 10 maxDigits

namespace Text

/-- The decimal text of an integer, unless it has too many digits. -/
def decimal? (n : Int) : Option String :=
  if (Nat.toDigits 10 n.natAbs).length ≤ maxDigits then some (toString n) else none

variable {n : Int}

theorem length_toDigits_le_iff :
    (Nat.toDigits 10 n.natAbs).length ≤ maxDigits ↔ n.natAbs < numeralLimit := by
  have hlength : ∀ d, 0 < d →
      ((Nat.toDigits 10 n.natAbs).length ≤ d ↔ n.natAbs < Nat.pow 10 d) :=
    fun d hd => Nat.length_toDigits_le_iff (by decide) hd
  unfold numeralLimit
  exact hlength maxDigits (by decide)

theorem decimal?_eq_some_iff {text : String} :
    decimal? n = some text ↔ n.natAbs < numeralLimit ∧ text = toString n := by
  rw [decimal?, Option.ite_none_right_eq_some, length_toDigits_le_iff, Option.some.injEq,
    eq_comm (a := text)]

theorem decimal?_eq_none_iff : decimal? n = none ↔ numeralLimit ≤ n.natAbs := by
  rw [← Nat.not_lt, ← length_toDigits_le_iff, decimal?]
  split
  next h => simp [h]
  next h => simp [h]

/-- Twenty digits are not too many. -/
theorem lt_limit {m : Nat} (h : m < 100000000000000000000) : m < numeralLimit := by
  have hle : ∀ d, 20 ≤ d → Nat.pow 10 20 ≤ Nat.pow 10 d :=
    fun d hd => Nat.pow_le_pow_right (by decide) hd
  unfold numeralLimit
  exact Nat.lt_of_lt_of_le h (hle maxDigits (by decide))

end Text

end LetScript
