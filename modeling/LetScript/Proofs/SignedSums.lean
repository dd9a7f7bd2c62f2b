import LetScript.Proofs.FaultPriority
import Mathlib

/-
  Sums and differences of integers.

  A chain of integers joined by `+` and `-` groups to the right, so each `-` turns the sign of all that
  stands behind it. `signedSum` is the exact value of the part of a chain from one of its terms on: each
  term counts with the sign that the subtractions between make. It is taken one operator at a time by
  `signedSum_step`, as the operators are applied, so the results of the operators are these sums, as
  far as they are in range (`integer_of_results`). The range is looked at for each of them, not for
  the total only.

  Main statement: `sum_chain_value`.
-/

namespace LetScript

open LetScript.Tree

/-! ## Exact sums -/

/-- The number of subtractions among the operators from number `i` up to, and without, number `j`. -/
def minuses (signs : List Sign) (i j : Nat) : Nat :=
  ((signs.take j).drop i).countP fun s => s.op = .sub

/-- The exact value of a chain from term number `i` on: every term behind counts with the sign that the
    subtractions between them make. -/
def signedSum (signs : List Sign) (a : Nat → Int) (i : Nat) : Int :=
  ∑ j ∈ Finset.Icc i signs.length, (-1) ^ minuses signs i j * a j

/-- The sign that an operator gives to what stands behind it. -/
def Sign.factor (s : Sign) : Int := if s.op = .sub then -1 else 1

theorem minuses_self (signs : List Sign) (i : Nat) : minuses signs i i = 0 := by
  rw [minuses, List.drop_take, Nat.sub_self, List.take_zero, List.countP_nil]

/-- Past an operator the signs change by that operator's factor. -/
theorem pow_minuses {signs : List Sign} {s : Sign} {i j : Nat} (hs : signs[i]? = some s)
    (hij : i < j) : (-1 : Int) ^ minuses signs i j = s.factor * (-1) ^ minuses signs (i + 1) j := by
  have hdrop : (signs.take j).drop i = s :: (signs.take j).drop (i + 1) := by
    rw [List.drop_eq_getElem?_toList_append, List.getElem?_take_of_lt hij, hs]
    rfl
  rw [minuses, minuses, hdrop, List.countP_cons, Sign.factor]
  by_cases hsub : s.op = .sub
  · simp [hsub, pow_succ]
  · simp [hsub]

theorem signedSum_last (signs : List Sign) (a : Nat → Int) :
    signedSum signs a signs.length = a signs.length := by
  rw [signedSum, Finset.Icc_self, Finset.sum_singleton, minuses_self, pow_zero, one_mul]

/-- The sum from one term on is that term and the sum behind it, with the sign of the operator
    between. -/
theorem signedSum_step {signs : List Sign} {s : Sign} {i : Nat} (hs : signs[i]? = some s)
    (a : Nat → Int) : signedSum signs a i = a i + s.factor * signedSum signs a (i + 1) := by
  have hi : i < signs.length := (List.getElem?_eq_some_iff.1 hs).1
  rw [signedSum, ← Finset.insert_Icc_add_one_left_eq_Icc hi.le, Finset.sum_insert (by simp),
    minuses_self, pow_zero, one_mul, signedSum, Finset.mul_sum]
  congr 1
  refine Finset.sum_congr rfl fun j hj => ?_
  rw [pow_minuses hs (Finset.mem_Icc.1 hj).1, mul_assoc]

/-! ## Sums as results -/

/-- Whether an operator is `+` or `-`, in a node of its family. -/
def Sign.IsSum (s : Sign) : Prop := s.family = .arithmetic ∧ (s.op = .add ∨ s.op = .sub)

variable {file : Option String} {env : Env} {signs : List Sign} {a : Nat → Int} {start : Nat}
  {r : Nat → Value}

/-- In an expression, where operators stand in nodes of their family, `+` and `-` are sums. -/
theorem isSum_of_op {s : Sign} (hown : s.op.family? = some s.family)
    (hop : s.op = .add ∨ s.op = .sub) : s.IsSum := by
  refine ⟨?_, hop⟩
  rcases hop with hop | hop
  · rw [hop] at hown
    exact (Option.some.inj hown).symm
  · rw [hop] at hown
    exact (Option.some.inj hown).symm

theorem apply_of_isSum {s : Sign} (h : s.IsSum) (m n : Int) :
    s.apply file (.integer m) (.integer n) = checked file s.line s.op (m + s.factor * n) := by
  obtain ⟨family, op, line⟩ := s
  obtain ⟨rfl, rfl | rfl⟩ := h
  · rw [show Sign.factor ⟨.arithmetic, .add, line⟩ = 1 from rfl, one_mul]
    rfl
  · rw [show Sign.factor ⟨.arithmetic, .sub, line⟩ = -1 from rfl, neg_one_mul, ← sub_eq_add_neg]
    rfl

/-- An operator between a term and the sum behind it checks the sum from the term on. -/
theorem apply_signedSum {s : Sign} {i : Nat} (hs : signs[i]? = some s) (hsum : s.IsSum) :
    s.apply file (.integer (a i)) (.integer (signedSum signs a (i + 1))) =
      checked file s.line s.op (signedSum signs a i) := by
  rw [apply_of_isSum hsum, signedSum_step hs]

/-- The results of operators are the exact sums. -/
theorem integer_of_results (h : Results file (fun i => .integer (a i)) signs start r)
    (hsums : ∀ s ∈ signs, s.IsSum) {i : Nat} (hstart : start ≤ i) (hi : i ≤ signs.length) :
    r i = .integer (signedSum signs a i) := by
  induction hi using Nat.decreasingInduction with
  | self => rw [h.last, signedSum_last]
  | of_succ i hi ih =>
    obtain ⟨s, hs⟩ : ∃ s, signs[i]? = some s := ⟨_, List.getElem?_eq_getElem hi⟩
    have hstep := h.step i s hstart hs
    rw [ih (Nat.le_succ_of_le hstart), apply_signedSum hs (hsums s (List.mem_of_getElem? hs))] at hstep
    exact (checked_eq_ok_iff.1 hstep).2

/-- The sums that are results of operators are in range. -/
theorem inRange_of_results (h : Results file (fun i => .integer (a i)) signs start r)
    (hsums : ∀ s ∈ signs, s.IsSum) {i : Nat} (hstart : start ≤ i) (hi : i < signs.length) :
    InRange (signedSum signs a i) := by
  obtain ⟨s, hs⟩ : ∃ s, signs[i]? = some s := ⟨_, List.getElem?_eq_getElem hi⟩
  have hstep := h.step i s hstart hs
  rw [integer_of_results h hsums (Nat.le_succ_of_le hstart) hi,
    apply_signedSum hs (hsums s (List.mem_of_getElem? hs))] at hstep
  exact (checked_eq_ok_iff.1 hstep).1

/-- A term in range and a sum in range behind it make a sum that can be written. -/
theorem lt_limit_of_sums {s : Sign} {k : Nat} (hs : signs[k]? = some s)
    (hterms : ∀ i ≤ signs.length, InRange (a i))
    (hsums : ∀ i, k < i → i < signs.length → InRange (signedSum signs a i)) :
    (signedSum signs a k).natAbs < numeralLimit := by
  have hk : k < signs.length := (List.getElem?_eq_some_iff.1 hs).1
  have hterm := hterms k hk.le
  have hbehind : InRange (signedSum signs a (k + 1)) := by
    obtain hlast | hmore : k + 1 = signs.length ∨ k + 1 < signs.length := by omega
    · rw [hlast, signedSum_last]
      exact hterms signs.length (Nat.le_refl _)
    · exact hsums (k + 1) (Nat.lt_succ_self k) hmore
  refine Text.lt_limit ?_
  rw [signedSum_step hs, Sign.factor]
  unfold InRange intMin intMax at hterm hbehind
  split <;> omega

/-- A chain of integers joined by `+` and `-` that was read, its terms and operators in the order of
    the tokens, has the exact sum from its first term on as its value, if this sum and the sum from
    each later term that an operator follows are in range. Otherwise it overflows at the last operator
    whose sum is out of range, with this sum, the operator and its line, if the sum can be written, as
    it can if all terms are in range. -/
theorem sum_chain_value (file file' : Option String) (env : Env) (queue rest : List Token) (t : Tree)
    (a : Nat → Int) (hread : Reader.expr file' queue = .ok t rest)
    (hsigns : ∀ s ∈ t.signs, s.op = .add ∨ s.op = .sub)
    (hterms : ∀ (i : Nat) (x : Tree), t.terms[i]? = some x →
      x.evaluate file env = .ok (.integer (a i))) :
    let n := t.signs.length
    let sum := fun i => ∑ j ∈ Finset.Icc i n, (-1) ^ minuses t.signs i j * a j
    (∃ e, queue = e ++ rest ∧ e.filterMap Token.term? = t.terms ∧
      e.filterMap Token.sign? = t.signs) ∧
    ((∀ i < n, InRange (sum i)) → t.evaluate file env = .ok (.integer (sum 0))) ∧
    ((∃ i < n, ¬InRange (sum i)) →
      ∃ k s, t.signs[k]? = some s ∧ ¬InRange (sum k) ∧
        (∀ i, k < i → i < n → InRange (sum i)) ∧
        ((∀ i ≤ n, InRange (a i)) ∨ (sum k).natAbs < numeralLimit →
          t.evaluate file env = .error ⟨.overflow s.op (sum k), s.line, file⟩) ∧
        (numeralLimit ≤ (sum k).natAbs →
          t.evaluate file env = .error (.unplaced .unwritable))) := by
  intro n sum
  refine ⟨expr_reads_chain hread, ?_⟩
  have ht := rightExpr_of_expr hread
  have hsums : ∀ s ∈ t.signs, s.IsSum := fun s hs =>
    isSum_of_op (ht.family?_of_mem hs) (hsigns s hs)
  simp only [evaluate, evalFrom_nil] at hterms ⊢
  rcases meaning_of_values ht hterms with ⟨r, hr, hvalue⟩ | ⟨k, s, r, f, hs, hr, hfail, hfault⟩
  · constructor
    · intro _
      rw [hvalue, integer_of_results hr hsums (Nat.le_refl 0) (Nat.zero_le _)]
      rfl
    · rintro ⟨i, hi, hout⟩
      exact absurd (inRange_of_results hr hsums (Nat.zero_le i) hi) hout
  · have hk : k < t.signs.length := (List.getElem?_eq_some_iff.1 hs).1
    rw [integer_of_results hr hsums (Nat.le_refl _) hk,
      apply_signedSum hs (hsums s (List.mem_of_getElem? hs))] at hfail
    obtain ⟨hout, rfl⟩ := checked_eq_error_iff.1 hfail
    constructor
    · intro hall
      exact absurd (hall k hk) hout
    · intro _
      have hbehind : ∀ i, k < i → i < t.signs.length → InRange (signedSum t.signs a i) :=
        fun i hki hi => inRange_of_results hr hsums hki hi
      refine ⟨k, s, hs, hout, hbehind, fun htold => ?_, fun hlong => ?_⟩
      · have hshort := htold.elim (fun hterms => lt_limit_of_sums hs hterms hbehind) id
        exact hfault.trans (congrArg Except.error (raised_overflow hshort))
      · exact hfault.trans (congrArg Except.error (raised_longOverflow hlong))

/-- `1 - 2147483647 + x` with 1 for `x`: the total is in range, and the sum behind the `-` is not. -/
theorem sum_chain_value_overflow :
    ∃ t, Reader.expr none [⟨.integer 1, some 1⟩, ⟨.ofMark .minus, some 1⟩,
        ⟨.integer 2147483647, some 1⟩, ⟨.ofMark .plus, some 2⟩, ⟨.identifier "x", some 2⟩,
        ⟨.eof, some 2⟩] = .ok t [⟨.eof, some 2⟩] ∧
      InRange (1 - (2147483647 + 1)) ∧
      t.evaluate none [("x", .integer 1)] = .error ⟨.overflow .add 2147483648, some 2, none⟩ := by
  have hread : Reader.expr none [⟨.integer 1, some 1⟩, ⟨.ofMark .minus, some 1⟩,
      ⟨.integer 2147483647, some 1⟩, ⟨.ofMark .plus, some 2⟩, ⟨.identifier "x", some 2⟩,
      ⟨.eof, some 2⟩] =
        .ok (.operation .arithmetic (.integer 1 (some 1)) .sub
          (.operation .arithmetic (.integer 2147483647 (some 1)) .add (.identifier "x" (some 2))
            (some 2)) (some 1)) [⟨.eof, some 2⟩] := rfl
  have hsum := sum_chain_value none none [("x", .integer 1)] _ _ _
    (fun i => [1, 2147483647, 1].getD i 0) hread ?_ ?_
  · refine ⟨_, hread, by decide, ?_⟩
    obtain ⟨k, s, hs, hout, -, hfault, -⟩ := hsum.2.2 ⟨1, by decide, by decide⟩
    match k with
    | 0 => exact absurd (by decide) hout
    | 1 =>
      cases hs
      exact hfault (.inl (by decide))
    | k + 2 => cases hs
  · intro s hs
    rcases List.mem_cons.1 hs with rfl | hs
    · exact .inr rfl
    · rw [List.mem_singleton.1 hs]
      exact .inl rfl
  · intro i x hx
    match i with
    | 0 | 1 | 2 =>
      cases hx
      rfl
    | i + 3 => cases hx

end LetScript
