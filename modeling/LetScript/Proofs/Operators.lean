import LetScript.Apply

/-
  The rules of operators on values.

  `Applies` gives the rules by which an operator in a node has its outcome: a string is joined to
  anything, two integers give the exact result if it is in range, two booleans give a truth value,
  and the rest are faults, each at the node's line. An integer that is too long to be written can
  neither be joined to a string nor be told in a fault; both are a fault of their own, without a
  place. Every outcome is by one of the rules (`applies`); later proofs go by them and need not take
  an operator apart.
-/

namespace LetScript

namespace Op

/-- The type of an operator's result, if the operator takes operands of the given types. -/
def resultTy? : Op → Ty → Ty → Option Ty
  | .add, .string, _ | .add, _, .string => some .string
  | .add, .integer, .integer | .sub, .integer, .integer | .mul, .integer, .integer
  | .div, .integer, .integer => some .integer
  | .and, .boolean, .boolean | .or, .boolean, .boolean => some .boolean
  | _, _, _ => none

/-- The exact result of an arithmetic operator on two integers. A quotient is cut toward zero, and
    there is none by zero. -/
def exactResult? : Op → Int → Int → Option Int
  | .add, a, b => some (a + b)
  | .sub, a, b => some (a - b)
  | .mul, a, b => some (a * b)
  | .div, a, b => if b = 0 then none else some (a.tdiv b)
  | .and, _, _ | .or, _, _ | .other _, _, _ => none

/-- The result of a logical operator on two booleans. -/
def truth? : Op → Bool → Bool → Option Bool
  | .and, a, b => some (a && b)
  | .or, a, b => some (a || b)
  | _, _, _ => none

end Op

/-- Whether a value that is an integer is in range. -/
def Value.IsInRange : Value → Prop
  | .integer n => InRange n
  | .string _ | .boolean _ => True

/-- A value in range can be written. -/
theorem Value.IsInRange.exists_display {v : Value} (h : v.IsInRange) :
    ∃ text, v.display? = some text := by
  cases v with
  | integer n => exact ⟨_, decimal?_of_inRange h⟩
  | string s => exact ⟨s, rfl⟩
  | boolean b => cases b <;> exact ⟨_, rfl⟩

/-- The rules of operators. -/
inductive Applies (file : Option String) (line : Line) :
    Family → Op → Value → Value → Except Fault Value → Prop
  | join {lhs rhs : Value} {s t : String} : lhs.ty = .string ∨ rhs.ty = .string →
    lhs.display? = some s → rhs.display? = some t →
      Applies file line .arithmetic .add lhs rhs (.ok (.string (s ++ t)))
  | longJoin {lhs rhs : Value} : lhs.ty = .string ∨ rhs.ty = .string →
    lhs.display? = none ∨ rhs.display? = none →
      Applies file line .arithmetic .add lhs rhs (.error (.unplaced .unwritable))
  | integer {op : Op} {a b n : Int} : op.exactResult? a b = some n → InRange n →
    Applies file line .arithmetic op (.integer a) (.integer b) (.ok (.integer n))
  | overflow {op : Op} {a b n : Int} : op.exactResult? a b = some n → ¬InRange n →
    n.natAbs < numeralLimit →
      Applies file line .arithmetic op (.integer a) (.integer b)
        (.error ⟨.overflow op n, line, file⟩)
  | longOverflow {op : Op} {a b n : Int} : op.exactResult? a b = some n →
    numeralLimit ≤ n.natAbs →
      Applies file line .arithmetic op (.integer a) (.integer b) (.error (.unplaced .unwritable))
  | byZero {a : Int} :
    Applies file line .arithmetic .div (.integer a) (.integer 0)
      (.error ⟨.divisionByZero, line, file⟩)
  | boolean {op : Op} {a b c : Bool} : op.truth? a b = some c →
    Applies file line .logical op (.boolean a) (.boolean b) (.ok (.boolean c))
  | mismatch {family : Family} {op : Op} {lhs rhs : Value} : op.family? = some family →
    op.resultTy? lhs.ty rhs.ty = none →
      Applies file line family op lhs rhs (.error (mismatch file line op lhs rhs))
  | unknown {family : Family} {op : Op} {lhs rhs : Value} : op.family? ≠ some family →
    Applies file line family op lhs rhs (.error (unknown file line op))

/-- Whether an operator comes to an integer that is too long to be written: to join it to a string,
    or to tell it as an exact result that is out of range. -/
inductive Op.Overlong : Op → Value → Value → Prop
  | join {lhs rhs : Value} {n : Int} : lhs.ty = .string ∨ rhs.ty = .string →
    lhs = .integer n ∨ rhs = .integer n → numeralLimit ≤ n.natAbs → Overlong .add lhs rhs
  | overflow {op : Op} {a b n : Int} : op.exactResult? a b = some n → numeralLimit ≤ n.natAbs →
    Overlong op (.integer a) (.integer b)

variable {file : Option String} {line : Line}

theorem checked_eq_ok_iff {op : Op} {n : Int} {v : Value} :
    checked file line op n = .ok v ↔ InRange n ∧ v = .integer n := by
  unfold checked
  split
  next hin => simp [hin, eq_comm]
  next hout => simp [hout]

theorem checked_eq_error_iff {op : Op} {n : Int} {f : Fault} :
    checked file line op n = .error f ↔ ¬InRange n ∧ f = .raised file line (.overflow op n) := by
  unfold checked
  split
  next hin => simp [hin]
  next hout => simp [hout, eq_comm]

/-- The fault of an overflow, if its result can be told. -/
theorem raised_overflow {op : Op} {n : Int} (h : n.natAbs < numeralLimit) :
    Fault.raised file line (.overflow op n) = ⟨.overflow op n, line, file⟩ := by
  refine Fault.raised_of_written ?_
  rw [Cause.text?, Text.decimal?_eq_some_iff.2 ⟨h, rfl⟩]
  rfl

theorem raised_longOverflow {op : Op} {n : Int} (h : numeralLimit ≤ n.natAbs) :
    Fault.raised file line (.overflow op n) = .unplaced .unwritable := by
  refine Fault.raised_of_unwritten ?_
  rw [Cause.text?, Text.decimal?_eq_none_iff.2 h]
  rfl

/-- An integer that is too long to be written is out of range. -/
theorem not_inRange_of_long {n : Int} (h : numeralLimit ≤ n.natAbs) : ¬InRange n := by
  intro hin
  have hshort := decimal?_of_inRange hin
  rw [Text.decimal?_eq_none_iff.2 h] at hshort
  cases hshort

theorem checked_of_overflow {op : Op} {n : Int} (hout : ¬InRange n) (h : n.natAbs < numeralLimit) :
    checked file line op n = .error ⟨.overflow op n, line, file⟩ :=
  checked_eq_error_iff.2 ⟨hout, (raised_overflow h).symm⟩

theorem checked_of_long {op : Op} {n : Int} (h : numeralLimit ≤ n.natAbs) :
    checked file line op n = .error (.unplaced .unwritable) :=
  checked_eq_error_iff.2 ⟨not_inRange_of_long h, (raised_longOverflow h).symm⟩

theorem checked_applies {op : Op} {a b n : Int} (h : op.exactResult? a b = some n) :
    Applies file line .arithmetic op (.integer a) (.integer b) (checked file line op n) := by
  by_cases hin : InRange n
  · rw [checked_eq_ok_iff.2 ⟨hin, rfl⟩]
    exact .integer h hin
  · by_cases hlong : n.natAbs < numeralLimit
    · rw [checked_of_overflow hin hlong]
      exact .overflow h hin hlong
    · rw [checked_of_long (Nat.le_of_not_lt hlong)]
      exact .longOverflow h (Nat.le_of_not_lt hlong)

theorem joined_of_displays {lhs rhs : Value} {s t : String} (hl : lhs.display? = some s)
    (hr : rhs.display? = some t) : joined lhs rhs = .ok (.string (s ++ t)) := by
  rw [joined, hl, hr]
  rfl

theorem joined_of_long {lhs rhs : Value} (h : lhs.display? = none ∨ rhs.display? = none) :
    joined lhs rhs = .error (.unplaced .unwritable) := by
  unfold joined
  cases hl : lhs.display? with
  | none => rfl
  | some s =>
    rw [h.resolve_left (by simp [hl])]
    rfl

theorem eq_unwritable_of_joined {lhs rhs : Value} {f : Fault} (h : joined lhs rhs = .error f) :
    f = .unplaced .unwritable := by
  unfold joined at h
  cases hl : lhs.display? with
  | none => rw [hl] at h; cases h; rfl
  | some s =>
    cases hr : rhs.display? with
    | none => rw [hl, hr] at h; cases h; rfl
    | some t => rw [hl, hr] at h; cases h

theorem joined_applies {lhs rhs : Value} (h : lhs.ty = .string ∨ rhs.ty = .string) :
    Applies file line .arithmetic .add lhs rhs (joined lhs rhs) := by
  cases hl : lhs.display? with
  | none =>
    rw [joined_of_long (.inl hl)]
    exact .longJoin h (.inl hl)
  | some s =>
    cases hr : rhs.display? with
    | none =>
      rw [joined_of_long (.inr hr)]
      exact .longJoin h (.inr hr)
    | some t =>
      rw [joined_of_displays hl hr]
      exact .join h hl hr

theorem quotient_applies (a b : Int) :
    Applies file line .arithmetic .div (.integer a) (.integer b) (quotient file line a b) := by
  unfold quotient
  split
  next hb => rw [hb]; exact .byZero
  next hb => exact checked_applies (if_neg hb)

/-- Every operator has its outcome by one of the rules. -/
theorem applies (file : Option String) (line : Line) (family : Family) (op : Op)
    (lhs rhs : Value) :
    Applies file line family op lhs rhs (family.apply file line op lhs rhs) := by
  cases family with
  | arithmetic =>
    cases op with
    | add =>
      cases lhs <;> cases rhs <;>
        first
        | exact checked_applies rfl
        | exact .mismatch rfl rfl
        | exact joined_applies (.inl rfl)
        | exact joined_applies (.inr rfl)
    | sub | mul =>
      cases lhs <;> cases rhs <;> first | exact checked_applies rfl | exact .mismatch rfl rfl
    | div =>
      cases lhs <;> cases rhs <;> first | exact quotient_applies _ _ | exact .mismatch rfl rfl
    | and | or | other => exact .unknown nofun
  | logical =>
    cases op with
    | and | or =>
      cases lhs <;> cases rhs <;> first | exact .boolean rfl | exact .mismatch rfl rfl
    | add | sub | mul | div | other => exact .unknown nofun

theorem applies_of_apply {family : Family} {op : Op} {lhs rhs : Value}
    {outcome : Except Fault Value} (h : family.apply file line op lhs rhs = outcome) :
    Applies file line family op lhs rhs outcome := by
  rw [← h]
  exact applies file line family op lhs rhs

/-- Every integer that an operator gives is in range. -/
theorem apply_inRange {family : Family} {op : Op} {lhs rhs v : Value}
    (h : family.apply file line op lhs rhs = .ok v) : v.IsInRange := by
  cases applies_of_apply h with
  | join | boolean => exact trivial
  | integer _ hin => exact hin

/-- An arithmetic operator on two integers that have an exact result. -/
theorem apply_of_exactResult? {op : Op} {a b n : Int} (h : op.exactResult? a b = some n) :
    Family.arithmetic.apply file line op (.integer a) (.integer b) = checked file line op n := by
  cases op with
  | add | sub | mul => cases h; rfl
  | div =>
    obtain ⟨hb, hn⟩ := Option.ite_none_left_eq_some.1 h
    obtain rfl := Option.some.inj hn
    exact if_neg hb
  | and | or | other => cases h

theorem apply_add_of_string {lhs rhs : Value} (h : lhs.ty = .string ∨ rhs.ty = .string) :
    Family.arithmetic.apply file line .add lhs rhs = joined lhs rhs := if_pos h

/-- An operator fails for the length of an integer exactly where it comes to one that is too long. -/
theorem apply_eq_unwritable_iff {family : Family} {op : Op} {lhs rhs : Value} :
    family.apply file line op lhs rhs = .error (.unplaced .unwritable) ↔
      family = .arithmetic ∧ op.Overlong lhs rhs := by
  constructor
  · intro h
    generalize hf : Fault.unplaced .unwritable = f at h
    cases applies_of_apply h with
    | longJoin hstring hnone =>
      refine ⟨rfl, ?_⟩
      obtain hnone | hnone := hnone
      · obtain ⟨n, hn, hlong⟩ := Value.display?_eq_none_iff.1 hnone
        exact .join hstring (.inl hn) hlong
      · obtain ⟨n, hn, hlong⟩ := Value.display?_eq_none_iff.1 hnone
        exact .join hstring (.inr hn) hlong
    | longOverflow hexact hlong => exact ⟨rfl, .overflow hexact hlong⟩
    | overflow | byZero | mismatch | unknown => cases hf
  · rintro ⟨rfl, hover⟩
    cases hover with
    | join hstring hn hlong =>
      rw [apply_add_of_string hstring]
      obtain hn | hn := hn
      · exact joined_of_long (.inl (Value.display?_eq_none_iff.2 ⟨_, hn, hlong⟩))
      · exact joined_of_long (.inr (Value.display?_eq_none_iff.2 ⟨_, hn, hlong⟩))
    | overflow hexact hlong =>
      rw [apply_of_exactResult? hexact]
      exact checked_of_long hlong

/-- The exact result of an operator on integers in range can be written. -/
theorem lt_limit_of_exactResult? {op : Op} {a b n : Int} (ha : InRange a) (hb : InRange b)
    (h : op.exactResult? a b = some n) : n.natAbs < numeralLimit := by
  unfold InRange intMin intMax at ha hb
  refine Text.lt_limit ?_
  cases op with
  | add => cases h; omega
  | sub => cases h; omega
  | mul =>
    cases h
    have hproduct : a.natAbs * b.natAbs ≤ 2147483648 * 2147483648 :=
      Nat.mul_le_mul (by omega) (by omega)
    rw [Int.natAbs_mul]
    omega
  | div =>
    obtain ⟨-, hn⟩ := Option.ite_none_left_eq_some.1 h
    obtain rfl := Option.some.inj hn
    have hle : (a.tdiv b).natAbs ≤ a.natAbs := by
      rw [Int.natAbs_tdiv]
      exact Nat.div_le_self _ _
    omega
  | and | or | other => cases h

/-- An operator on values in range comes to no integer that is too long. -/
theorem not_overlong_of_inRange {op : Op} {lhs rhs : Value} (hl : lhs.IsInRange)
    (hr : rhs.IsInRange) : ¬op.Overlong lhs rhs := by
  intro h
  cases h with
  | join _ hn hlong =>
    obtain rfl | rfl := hn
    · exact not_inRange_of_long hlong hl
    · exact not_inRange_of_long hlong hr
  | overflow hexact hlong => exact Nat.not_lt.2 hlong (lt_limit_of_exactResult? hl hr hexact)

end LetScript
