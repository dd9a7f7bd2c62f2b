import LetScript.Proofs.Operators

/-
  Arithmetic operators on two integers.

  Sums, differences and products are exact, or are refused with the exact result, which can be told
  if the operands are in range (`lt_limit_of_exactResult?`). A quotient is cut toward zero: `IsCut`
  says this by what it leaves over, and there is one such quotient (`IsCut.unique`). It is the
  quotient of the magnitudes with the sign that the operands make (`tdiv_eq_magnitudeQuotient`). Of
  integers in range only the least one by -1 has a quotient that is out of range
  (`inRange_tdiv_iff`).

  Main statement: `integer_operators_exact`.
-/

namespace LetScript

/-- A quotient of `a` by `b` that is cut toward zero: what it leaves over of `a` is smaller in
    magnitude than `b`, and is zero or has the sign of `a`. -/
structure IsCut (a b q : Int) : Prop where
  small : (a - q * b).natAbs < b.natAbs
  sign : a - q * b = 0 ∨ (a - q * b).sign = a.sign

/-- The quotient of the magnitudes, with a minus sign if the signs differ. -/
def magnitudeQuotient (a b : Int) : Int :=
  if a < 0 ↔ b < 0 then (a.natAbs / b.natAbs : Nat) else -(a.natAbs / b.natAbs : Nat)

variable {a b q q' : Int}

/-! ## Quotients cut toward zero -/

/-- What is left over is on the same side of zero as `a`. -/
theorem IsCut.side (h : IsCut a b q) : (0 ≤ a → 0 ≤ a - q * b) ∧ (a ≤ 0 → a - q * b ≤ 0) := by
  rcases h.sign with hzero | hsign
  · omega
  · rcases Int.lt_trichotomy a 0 with ha | ha | ha
    · have hneg := Int.neg_of_sign_eq_neg_one (hsign.trans (Int.sign_eq_neg_one_of_neg ha))
      omega
    · rw [ha, Int.sign_zero] at hsign
      have hzero := Int.eq_zero_of_sign_eq_zero hsign
      omega
    · have hpos := Int.pos_of_sign_eq_one (hsign.trans (Int.sign_eq_one_of_pos ha))
      omega

/-- Two quotients leave over what differs by less than `b` in magnitude, and by a multiple of `b`. -/
theorem IsCut.unique (h : IsCut a b q) (h' : IsCut a b q') : q' = q := by
  have hdiff : (a - q * b) - (a - q' * b) = (q' - q) * b := by
    rw [Int.sub_mul]
    omega
  have hlt : ((q' - q) * b).natAbs < b.natAbs := by
    have hside := h.side
    have hside' := h'.side
    have hsmall := h.small
    have hsmall' := h'.small
    rw [← hdiff]
    omega
  rw [Int.natAbs_mul] at hlt
  have hone : (q' - q).natAbs < 1 := Nat.lt_of_mul_lt_mul_right (by rwa [Nat.one_mul])
  omega

theorem isCut_tdiv (a : Int) (hb : b ≠ 0) : IsCut a b (a.tdiv b) := by
  have hleft : a - a.tdiv b * b = a.tmod b := by rw [Int.tdiv_mul_self]; omega
  constructor
  · rw [hleft, Int.natAbs_tmod]
    exact Nat.mod_lt _ (Int.natAbs_pos.2 hb)
  · rw [hleft, Int.sign_tmod]
    split
    next hdvd => exact .inl (Int.tmod_eq_zero_of_dvd hdvd)
    next => exact .inr rfl

theorem tdiv_eq_magnitudeQuotient (a b : Int) : a.tdiv b = magnitudeQuotient a b := by
  unfold magnitudeQuotient
  have hnat : ∀ n, ¬Int.ofNat n < 0 := fun n => Int.not_lt.2 (Int.natCast_nonneg n)
  have hneg : ∀ n, Int.negSucc n < 0 := Int.negSucc_lt_zero
  cases a with
  | ofNat m =>
    cases b with
    | ofNat n => rw [if_pos (iff_of_false (hnat m) (hnat n))]; rfl
    | negSucc n => rw [if_neg fun h => hnat m (h.2 (hneg n))]; rfl
  | negSucc m =>
    cases b with
    | ofNat n => rw [if_neg fun h => hnat n (h.1 (hneg m))]; rfl
    | negSucc n => rw [if_pos (iff_of_true (hneg m) (hneg n))]; rfl

theorem inRange_tdiv_iff (ha : InRange a) (hb : b ≠ 0) :
    InRange (a.tdiv b) ↔ ¬(a = intMin ∧ b = -1) := by
  unfold InRange intMin intMax at *
  constructor
  · rintro hin ⟨rfl, rfl⟩
    rw [Int.tdiv_neg, Int.tdiv_one] at hin
    omega
  · intro hnot
    have hmagnitude : (a.tdiv b).natAbs = a.natAbs / b.natAbs := Int.natAbs_tdiv a b
    by_cases hone : b.natAbs = 1
    · obtain rfl | rfl : b = 1 ∨ b = -1 := by omega
      · rw [Int.tdiv_one]
        exact ha
      · rw [Int.tdiv_neg, Int.tdiv_one]
        omega
    · have hhalf : a.natAbs / b.natAbs ≤ a.natAbs / 2 := Nat.div_le_div_left (by omega) (by decide)
      omega

/-! ## Operators -/

/-- A quotient that is neither by zero nor the one out of range. -/
theorem quotient_of_cut (file : Option String) (line : Line) (ha : InRange a) (hb : b ≠ 0)
    (hnot : ¬(a = intMin ∧ b = -1)) : quotient file line a b = .ok (.integer (a.tdiv b)) := by
  unfold quotient
  rw [if_neg hb]
  exact checked_eq_ok_iff.2 ⟨(inRange_tdiv_iff ha hb).2 hnot, rfl⟩

theorem quotient_eq_error_iff {file : Option String} {line : Line} {f : Fault} (ha : InRange a) :
    quotient file line a b = .error f ↔
      b = 0 ∧ f = ⟨.divisionByZero, line, file⟩ ∨
      a = intMin ∧ b = -1 ∧ f = ⟨.overflow .div 2147483648, line, file⟩ := by
  by_cases hb : b = 0
  · have hzero : quotient file line a b = .error ⟨.divisionByZero, line, file⟩ := if_pos hb
    rw [hzero]
    simp [hb, eq_comm]
  · by_cases hleast : a = intMin ∧ b = -1
    · obtain ⟨rfl, rfl⟩ := hleast
      have hover : quotient file line intMin (-1) = .error ⟨.overflow .div 2147483648, line, file⟩ :=
        rfl
      rw [hover]
      simp [eq_comm]
    · rw [quotient_of_cut file line ha hb hleast]
      simpa [hb] using fun h h' => absurd ⟨h, h'⟩ hleast

/-- On integers, the first of them in range, `+`, `-` and `*` give the exact result if it is in
    range, and otherwise the overflow with the exact result, if that can be written, as it always can
    if both integers are in range. `/` fails by zero and fails with an overflow for the least integer
    by -1, and in no other case. It gives the one quotient that is cut toward zero, which is the
    quotient of the magnitudes with the sign that the operands make. -/
theorem integer_operators_exact (file : Option String) (line : Line) (a b : Int) (ha : InRange a) :
    let outcome := fun op => Family.arithmetic.apply file line op (.integer a) (.integer b)
    (∀ op n, (op, n) ∈ [(Op.add, a + b), (.sub, a - b), (.mul, a * b)] →
      (InRange n → outcome op = .ok (.integer n)) ∧
      (¬InRange n → InRange b ∨ n.natAbs < numeralLimit →
        outcome op = .error ⟨.overflow op n, line, file⟩) ∧
      (numeralLimit ≤ n.natAbs → outcome op = .error (.unplaced .unwritable))) ∧
    (∀ f, outcome .div = .error f ↔
      b = 0 ∧ f = ⟨.divisionByZero, line, file⟩ ∨
      a = intMin ∧ b = -1 ∧ f = ⟨.overflow .div 2147483648, line, file⟩) ∧
    (b ≠ 0 → ¬(a = intMin ∧ b = -1) →
      ∃ q, outcome .div = .ok (.integer q) ∧ IsCut a b q ∧ (∀ q', IsCut a b q' → q' = q) ∧
        q = magnitudeQuotient a b) := by
  intro outcome
  have hchecked : ∀ op n, Op.exactResult? op a b = some n →
      (InRange n → checked file line op n = .ok (.integer n)) ∧
      (¬InRange n → InRange b ∨ n.natAbs < numeralLimit →
        checked file line op n = .error ⟨.overflow op n, line, file⟩) ∧
      (numeralLimit ≤ n.natAbs → checked file line op n = .error (.unplaced .unwritable)) := by
    intro op n hexact
    refine ⟨fun hin => checked_eq_ok_iff.2 ⟨hin, rfl⟩, fun hout htold => ?_, checked_of_long⟩
    have hshort := htold.elim (fun hb => lt_limit_of_exactResult? ha hb hexact) id
    exact checked_of_overflow hout hshort
  refine ⟨?_, ?_, ?_⟩
  · intro op n hmem
    simp only [List.mem_cons, Prod.mk.injEq, List.not_mem_nil, or_false] at hmem
    obtain ⟨rfl, rfl⟩ | ⟨rfl, rfl⟩ | ⟨rfl, rfl⟩ := hmem
    · exact hchecked .add (a + b) rfl
    · exact hchecked .sub (a - b) rfl
    · exact hchecked .mul (a * b) rfl
  · intro f
    exact quotient_eq_error_iff ha
  · intro hb hnot
    refine ⟨a.tdiv b, ?_, isCut_tdiv a hb, fun q' h => (isCut_tdiv a hb).unique h,
      tdiv_eq_magnitudeQuotient a b⟩
    exact quotient_of_cut file line ha hb hnot

/-- -7 by 2 is cut up to -3, and the least integer by -1 is out of range. -/
theorem integer_operators_exact_quotients :
    InRange (-7) ∧ InRange intMin ∧
      Family.arithmetic.apply none (some 1) .div (.integer (-7)) (.integer 2) = .ok (.integer (-3)) ∧
      IsCut (-7) 2 (-3) ∧
      Family.arithmetic.apply none (some 1) .div (.integer intMin) (.integer (-1)) =
        .error ⟨.overflow .div 2147483648, some 1, none⟩ := by
  obtain ⟨q, hq, hcut, -, rfl⟩ :=
    (integer_operators_exact none (some 1) (-7) 2 (by decide)).2.2 (by decide) (by decide)
  refine ⟨by decide, by decide, hq, hcut, ?_⟩
  exact ((integer_operators_exact none (some 1) intMin (-1) (by decide)).2.1 _).2
    (.inr ⟨rfl, rfl, rfl⟩)

end LetScript
