import ContractTyping.Proofs.Exact.Fraction
import Mathlib.Data.Rat.Floor

/-!
# Remainders and shifts

Two operations round. A remainder is taken from a quotient that is rounded towards zero, so it has
the sign of the dividend. A right shift rounds down, and since it works on a magnitude it has to
round up the magnitude of a negative number; whether there is anything to round it finds out by
shifting back.

* `towardsZero` and `value_truncate`: rounding towards zero is division of magnitudes.
* `rem_gives`: the remainder, and when there is one.
* `shr_gives`, `shl_exactly`: shifts divide and multiply by a power of two.
-/

namespace ContractTyping

open Natural Integer Int

namespace Fraction

variable {x y r : Fraction}
variable {q p : ℚ} {k : ℕ}

/-! ## Rounding towards zero -/

/-- The integer between zero and a rational number that is nearest to the number. -/
def towardsZero (q : ℚ) : ℤ := if 0 ≤ q then ⌊q⌋ else ⌈q⌉

theorem towardsZero_of_nonneg (nonneg : 0 ≤ q) : towardsZero q = ⌊q⌋ := if_pos nonneg

theorem towardsZero_of_neg (negative : q < 0) : towardsZero q = ⌈q⌉ := if_neg (not_le.mpr negative)

theorem towardsZero_neg (q : ℚ) : towardsZero (-q) = -towardsZero q := by
  rcases lt_trichotomy q 0 with negative | rfl | positive
  · rw [towardsZero_of_neg negative, towardsZero_of_nonneg (neg_nonneg.mpr negative.le), floor_neg]
  · simp [towardsZero]
  · rw [towardsZero_of_nonneg positive.le, towardsZero_of_neg (neg_neg_of_pos positive), ceil_neg]

/-- What rounding leaves of the negation is the negation of what it leaves. -/
theorem sub_towardsZero_neg (q : ℚ) : -q - towardsZero (-q) = -(q - towardsZero q) := by
  rw [towardsZero_neg, cast_neg, neg_sub_neg, neg_sub]

theorem sub_towardsZero_nonneg (nonneg : 0 ≤ q) : 0 ≤ q - towardsZero q := by
  rw [towardsZero_of_nonneg nonneg]
  exact fract_nonneg q

theorem sub_towardsZero_nonpos (nonpos : q ≤ 0) : q - towardsZero q ≤ 0 := by
  have opposite := sub_towardsZero_nonneg (neg_nonneg.mpr nonpos)
  rwa [sub_towardsZero_neg, neg_nonneg] at opposite

theorem abs_sub_towardsZero_lt (q : ℚ) : |q - towardsZero q| < 1 := by
  have small : ∀ p : ℚ, 0 ≤ p → |p - towardsZero p| < 1 := by
    intro p nonneg
    rw [abs_of_nonneg (sub_towardsZero_nonneg nonneg), towardsZero_of_nonneg nonneg]
    exact fract_lt_one p
  rcases le_total 0 q with nonneg | nonpos
  · exact small q nonneg
  · have opposite := small (-q) (neg_nonneg.mpr nonpos)
    rwa [sub_towardsZero_neg, abs_neg] at opposite

/-- A fraction is its magnitude, or the negation of it. -/
theorem value_eq_sign (x : Fraction) :
    x.value = if x.isNegative then -((x.numerator.magnitude.value : ℚ) / x.denominator.value)
      else (x.numerator.magnitude.value : ℚ) / x.denominator.value := by
  rw [value, Integer.value, isNegative]
  cases x.numerator.negative with
  | false => simp
  | true => simp [neg_div]

variable (lowest : x.LowestTerms)

include lowest

theorem lowestTerms_truncate : x.truncate.LowestTerms :=
  lowestTerms_ofInteger
    (canonical_ofSign _ (divmod_divides lowest.1.1 lowest.2.1 lowest.2.2.1).quotient)

/-- The quotient of the magnitudes with the sign of the value is the value rounded towards zero. -/
theorem value_truncate : x.truncate.value = towardsZero x.value := by
  have quotient := (divmod_divides lowest.1.1 lowest.2.1 lowest.2.2.1).value_quotient
  have floor : ⌊(x.numerator.magnitude.value : ℚ) / x.denominator.value⌋ =
      ((x.numerator.magnitude.value / x.denominator.value : ℕ) : ℤ) := by
    rw [Rat.floor_natCast_div_natCast, natCast_div]
  have negative := isNegative_iff_value_neg lowest
  rw [truncate, value_ofInteger, value_ofSign, quotient]
  refine congrArg Int.cast ?_
  cases sign : x.numerator.negative with
  | false =>
    have nonneg : 0 ≤ x.value := by
      rw [← not_lt, ← negative, isNegative, sign]
      decide
    rw [towardsZero_of_nonneg nonneg, value_eq_sign, isNegative, sign]
    simp only [Bool.false_eq_true, if_false, floor]
  | true =>
    rw [towardsZero_of_neg (negative.mp sign), value_eq_sign, isNegative, sign]
    simp only [if_true, ceil_neg, floor]

/-! ## Remainders -/

/-- A remainder is found if quotient, multiple of the divisor and remainder are within the limit. -/
theorem rem_gives (lowest' : y.LowestTerms) : Gives (x.rem y)
      ((y.value ≠ 0 ∧ WithinLimit (x.value / y.value)) ∧
        WithinLimit (towardsZero (x.value / y.value) * y.value) ∧
        WithinLimit (x.value - towardsZero (x.value / y.value) * y.value))
      (x.value - towardsZero (x.value / y.value) * y.value) := by
  refine (div_exactly lowest lowest').gives.bind fun quotient lowestQuotient exact => ?_
  have product := (mul_exactly (lowestTerms_truncate lowestQuotient) lowest').gives
  rw [value_truncate lowestQuotient, exact, true_and] at product
  refine product.bind fun multiple lowestMultiple exact' => ?_
  have difference := (sub_exactly lowest lowestMultiple).gives
  rwa [exact', true_and] at difference

omit lowest

variable (nonzero : q ≠ 0)

include nonzero

/-- A remainder is the part of the quotient that rounding leaves, times the divisor. -/
theorem remainder_eq : p - towardsZero (p / q) * q = (p / q - towardsZero (p / q)) * q := by
  rw [sub_mul, div_mul_cancel₀ p nonzero]

theorem abs_remainder_lt : |p - towardsZero (p / q) * q| < |q| := by
  rw [remainder_eq nonzero, abs_mul]
  exact mul_lt_of_lt_one_left (abs_pos.mpr nonzero) (abs_sub_towardsZero_lt _)

/-- A dividend that is not negative leaves no negative remainder, by whatever divisor. -/
theorem remainder_nonneg (nonneg : 0 ≤ p) : 0 ≤ p - towardsZero (p / q) * q := by
  rw [remainder_eq nonzero]
  rcases lt_or_gt_of_ne nonzero with negative | positive
  · have left := sub_towardsZero_nonpos (div_nonpos_of_nonneg_of_nonpos nonneg negative.le)
    exact mul_nonneg_of_nonpos_of_nonpos left negative.le
  · have left := sub_towardsZero_nonneg (div_nonneg nonneg positive.le)
    exact mul_nonneg left positive.le

theorem remainder_nonpos (nonpos : p ≤ 0) : p - towardsZero (p / q) * q ≤ 0 := by
  have opposite := remainder_nonneg nonzero (neg_nonneg.mpr nonpos)
  rw [remainder_eq nonzero, neg_div, sub_towardsZero_neg, neg_mul, neg_nonneg] at opposite
  rwa [remainder_eq nonzero]

omit nonzero

/-- **Remainders.** A remainder is given precisely if the divisor is not zero and no number on the
way to it is beyond the limit: the quotient, the multiple of the divisor by the quotient rounded
towards zero, and the remainder itself. It is then the dividend without that multiple, in lowest
terms and within the limit; its magnitude is below that of the divisor, and it is zero or has the
sign of the dividend. There is none if the divisor is zero. -/
theorem remainder_truncates (lowest : x.LowestTerms) (lowest' : y.LowestTerms) :
    ((x.rem y).isSome = true ↔
      (y.value ≠ 0 ∧ WithinLimit (x.value / y.value)) ∧
        WithinLimit (towardsZero (x.value / y.value) * y.value) ∧
        WithinLimit (x.value - towardsZero (x.value / y.value) * y.value)) ∧
    (∀ r, x.rem y = some r →
      y.value ≠ 0 ∧ r.value = x.value - towardsZero (x.value / y.value) * y.value ∧
      |r.value| < |y.value| ∧
        (r.value = 0 ∨ (0 < r.value ∧ 0 < x.value) ∨ (r.value < 0 ∧ x.value < 0)) ∧
        r.LowestTerms ∧ WithinLimit r.value) ∧
    (y.value = 0 → x.rem y = none) := by
  have gives := rem_gives lowest lowest'
  refine ⟨gives.given, fun r found => ?_, fun zero => ?_⟩
  · obtain ⟨lowestResult, equal⟩ := gives.sound r found
    obtain ⟨⟨nonzero, -⟩, -, within⟩ := gives.given.mp (by rw [found]; rfl)
    refine ⟨nonzero, equal, ?_, ?_, lowestResult, ?_⟩
    · rw [equal]
      exact abs_remainder_lt nonzero
    · -- A remainder that is not zero cannot have the other sign, nor can the dividend then be zero.
      rcases lt_trichotomy r.value 0 with below | zero | above
      · refine .inr (.inr ⟨below, not_le.mp fun nonneg => ?_⟩)
        rw [equal] at below
        exact absurd below (remainder_nonneg nonzero nonneg).not_gt
      · exact .inl zero
      · refine .inr (.inl ⟨above, not_le.mp fun nonpos => ?_⟩)
        rw [equal] at above
        exact absurd above (remainder_nonpos nonzero nonpos).not_gt
    · rw [equal]
      exact within
  · rw [← Option.not_isSome_iff_eq_none, gives.given]
    exact fun holds => holds.1.1 zero

/-- A dividend and a divisor with different signs. -/
theorem remainder_truncates_signs :
    let x : Fraction := ⟨⟨true, ⟨[7]⟩⟩, ⟨[2]⟩⟩
    let y : Fraction := ⟨⟨false, ⟨[3]⟩⟩, ⟨[4]⟩⟩
    let r : Fraction := ⟨⟨true, ⟨[1]⟩⟩, ⟨[2]⟩⟩
    x.LowestTerms ∧ y.LowestTerms ∧ x.rem y = some r ∧
      r.value = x.value - towardsZero (x.value / y.value) * y.value ∧ |r.value| < |y.value| := by
  intro x y r
  have lowest : x.LowestTerms := by decide
  have lowest' : y.LowestTerms := by decide
  have found : x.rem y = some r := by decide +kernel
  obtain ⟨-, sound, -⟩ := remainder_truncates lowest lowest'
  obtain ⟨-, equal, below, -⟩ := sound r found
  exact ⟨lowest, lowest', found, equal, below⟩

/-! ## Shifts -/

/-- A natural number is a word if it is below the number of words. -/
theorem toWord?_of_value (lowest : y.LowestTerms) (amount : y.value = k) :
    y.toWord? = if k < 2 ^ 64 then some k.toUInt64 else none := by
  split
  · next small => rw [toWord?_eq_some_iff lowest, amount, toNat_toUInt64 small]
  · next large =>
    refine Option.eq_none_iff_forall_ne_some.mpr fun word fits => ?_
    rw [toWord?_eq_some_iff lowest, amount, Nat.cast_inj] at fits
    exact large (fits ▸ word.toNat_lt)

theorem toWord?_of_not_natural (lowest : y.LowestTerms) (other : ¬ ∃ k : ℕ, y.value = k) :
    y.toWord? = none := by
  refine Option.eq_none_iff_forall_ne_some.mpr fun word fits => ?_
  exact other ⟨word.toNat, (toWord?_eq_some_iff lowest).mp fits⟩

/-- Shifting up what was shifted down gives the number back if nothing was lost. -/
theorem shl_shr_eq_iff {n : Natural} (trimmed : n.Trimmed) (amount : ℕ) :
    (n.shr amount).shl amount = n ↔ 2 ^ amount ∣ n.value := by
  have exact : ((n.shr amount).shl amount).value = n.value / 2 ^ amount * 2 ^ amount := by
    rw [value_shl, value_shr]
  constructor
  · intro same
    rw [same] at exact
    exact ⟨_, exact.trans (Nat.mul_comm _ _)⟩
  · intro divides
    refine value_injective (trimmed_shl _ _) trimmed ?_
    rw [exact, Nat.div_mul_cancel divides]

/-- A negative number is rounded down by rounding its magnitude up. -/
theorem neg_floor_div (m d : ℕ) (positive : 0 < d) :
    ⌊-((m : ℚ) / d)⌋ = -((if d ∣ m then m / d else m / d + 1 : ℕ) : ℤ) := by
  have quotient : -((m : ℚ) / d) = ((-m : ℤ) : ℚ) / (d : ℕ) := by
    rw [neg_div', cast_neg, cast_natCast]
  rw [quotient, Rat.floor_intCast_div_natCast, neg_ediv,
    sign_eq_one_of_pos (natCast_pos.mpr positive)]
  by_cases divides : d ∣ m
  · rw [if_pos (natCast_dvd_natCast.mpr divides), if_pos divides, sub_zero, natCast_div]
  · rw [if_neg (mt natCast_dvd_natCast.mp divides), if_neg divides]
    push_cast
    ring

/-- The magnitude of a right shift. -/
def shiftedMagnitude (x : Fraction) (amount : ℕ) : Natural :=
  let shifted := x.numerator.magnitude.shr amount
  if x.isNegative && shifted.shl amount != x.numerator.magnitude then shifted.add .one else shifted

/-- A right shift by a word gives a sign and a magnitude. -/
theorem shr_eq_some {word : UInt64} (integer : x.isInteger = true) (fits : y.toWord? = some word) :
    x.shr y = some (ofInteger (.ofSign x.isNegative (x.shiftedMagnitude word.toNat))) := by
  unfold shr shiftedMagnitude
  cases x.isNegative with
  | false => simp [integer, fits, ofNatural, Integer.ofNatural]
  | true =>
    simp only [integer, fits]
    by_cases exact : (x.numerator.magnitude.shr word.toNat).shl word.toNat = x.numerator.magnitude
    · simp [exact]
    · simp [exact]

theorem trimmed_shiftedMagnitude (x : Fraction) (amount : ℕ) :
    (x.shiftedMagnitude amount).Trimmed := by
  unfold shiftedMagnitude
  dsimp only
  split
  · exact trimmed_add _ _
  · exact trimmed_shr _ _

variable (lowest : x.LowestTerms)

include lowest

theorem value_shiftedMagnitude (amount : ℕ) : (x.shiftedMagnitude amount).value =
      if x.isNegative = false ∨ 2 ^ amount ∣ x.numerator.magnitude.value then
        x.numerator.magnitude.value / 2 ^ amount
      else x.numerator.magnitude.value / 2 ^ amount + 1 := by
  have exact := shl_shr_eq_iff lowest.1.1 amount
  unfold shiftedMagnitude
  cases x.isNegative with
  | false => simp
  | true =>
    by_cases divides : 2 ^ amount ∣ x.numerator.magnitude.value
    · simp [exact.mpr divides, divides]
    · simp [mt exact.mp divides, divides]

/-- An integer is its magnitude, or the negation of it. -/
theorem value_of_isInteger (integer : x.isInteger = true) :
    x.value = if x.isNegative then -(x.numerator.magnitude.value : ℚ)
      else x.numerator.magnitude.value := by
  rw [value_eq_sign, (isOne_iff lowest.2.1).mp integer, Nat.cast_one, div_one]

theorem value_shifted (integer : x.isInteger = true) (amount : ℕ) :
    (ofInteger (.ofSign x.isNegative (x.shiftedMagnitude amount))).value =
      ⌊x.value / 2 ^ amount⌋ := by
  have power : (2 : ℚ) ^ amount = ((2 ^ amount : ℕ) : ℚ) := by push_cast; rfl
  rw [value_ofInteger, value_ofSign, value_shiftedMagnitude lowest,
    value_of_isInteger lowest integer, power]
  refine congrArg Int.cast ?_
  cases x.isNegative with
  | false => simp only [Bool.false_eq_true, if_false, true_or, if_true,
      Rat.floor_natCast_div_natCast, natCast_div]
  | true =>
    simp only [if_true, neg_div, neg_floor_div _ _ (Nat.two_pow_pos amount),
      Bool.true_eq_false, false_or]

omit lowest in
/-- Shifts want two integers, of which the second is a word. -/
theorem shift_eq_none (refused : x.isInteger = false ∨ y.toWord? = none) :
    x.shr y = none ∧ x.shl y = none := by
  unfold shr shl
  rcases refused with fractional | large
  · simp [fractional]
  · simp [large]

theorem shr_gives (lowest' : y.LowestTerms) (amount : y.value = k) :
    Gives (x.shr y) ((∃ n : ℤ, x.value = n) ∧ k < 2 ^ 64) ⌊x.value / 2 ^ k⌋ := by
  have word := toWord?_of_value lowest' amount
  rw [← isInteger_iff lowest]
  by_cases holds : x.isInteger = true ∧ k < 2 ^ 64
  · rw [if_pos holds.2] at word
    rw [shr_eq_some holds.1 word, toNat_toUInt64 holds.2]
    have trimmed := trimmed_shiftedMagnitude x k
    exact .present (lowestTerms_ofInteger (canonical_ofSign _ trimmed))
      (value_shifted lowest holds.1 k) holds
  · have refused : x.isInteger = false ∨ y.toWord? = none := by
      rw [not_and_or, Bool.not_eq_true] at holds
      exact holds.imp_right fun large => word.trans (if_neg large)
    rw [(shift_eq_none refused).1]
    exact .absent holds

omit lowest in
theorem shl_eq {word : UInt64} (integer : x.isInteger = true) (fits : y.toWord? = some word) :
    x.shl y = if word.toNat > maxBits then none
      else limited
        (some (ofInteger (.ofSign x.isNegative (x.numerator.magnitude.shl word.toNat)))) := by
  simp [shl, integer, fits, isNegative]

theorem value_shl (integer : x.isInteger = true) (amount : ℕ) :
    (ofInteger (.ofSign x.isNegative (x.numerator.magnitude.shl amount))).value =
      x.value * 2 ^ amount := by
  rw [value_ofInteger, value_ofSign, Natural.value_shl, value_of_isInteger lowest integer]
  cases x.isNegative with
  | false => simp
  | true => simp

theorem shl_exactly (lowest' : y.LowestTerms) (amount : y.value = k) :
    Exactly (x.shl y) ((∃ n : ℤ, x.value = n) ∧ k ≤ maxBits) (x.value * 2 ^ k) := by
  have word := toWord?_of_value lowest' amount
  rw [← isInteger_iff lowest]
  cases integer : x.isInteger with
  | false =>
    rw [(shift_eq_none (.inl integer)).2]
    exact .absent fun holds => Bool.false_ne_true holds.1.1
  | true =>
    by_cases small : k < 2 ^ 64
    · rw [if_pos small] at word
      rw [shl_eq integer word, toNat_toUInt64 small]
      split
      · next beyond => exact .absent fun holds => absurd holds.1.2 (Nat.not_le.mpr beyond)
      · next within =>
        have trimmed := trimmed_shl x.numerator.magnitude k
        have exactly :=
          Exactly.limited (lowestTerms_ofInteger (canonical_ofSign x.isNegative trimmed))
          (value_shl lowest integer k)
        exact exactly.when ⟨rfl, Nat.not_lt.mp within⟩
    · rw [if_neg small] at word
      rw [(shift_eq_none (.inr word)).2]
      exact .absent fun holds => small (holds.1.2.trans_lt (by decide))

omit lowest

/-- **Shifts.** A right shift is given precisely if a number and its amount are integers and the
amount is a word; it is the quotient by a power of two, rounded down for negative numbers as for
others. A left shift is given precisely if both are integers, the amount is between zero and
`maxBits`, and the product with the power of two is within the limit; it is that product. Results
are in lowest terms. -/
theorem shifts_exact (lowest : x.LowestTerms) (lowest' : y.LowestTerms) :
    (∀ k : ℕ, y.value = k →
      Gives (x.shr y) ((∃ n : ℤ, x.value = n) ∧ k < 2 ^ 64) ⌊x.value / 2 ^ k⌋ ∧
        Exactly (x.shl y) ((∃ n : ℤ, x.value = n) ∧ k ≤ Natural.maxBits) (x.value * 2 ^ k)) ∧
    ((¬ ∃ k : ℕ, y.value = k) → x.shr y = none ∧ x.shl y = none) := by
  refine ⟨fun k amount => ⟨shr_gives lowest lowest' amount, shl_exactly lowest lowest' amount⟩,
    fun other => ?_⟩
  exact shift_eq_none (.inr (toWord?_of_not_natural lowest' other))

/-- An odd negative number, whose half is rounded down. -/
theorem shifts_exact_negative :
    let x : Fraction := ⟨⟨true, ⟨[5]⟩⟩, ⟨[1]⟩⟩
    let y : Fraction := ⟨⟨false, ⟨[1]⟩⟩, ⟨[1]⟩⟩
    x.LowestTerms ∧ y.LowestTerms ∧ y.value = (1 : ℕ) ∧ x.shr y = some ⟨⟨true, ⟨[3]⟩⟩, ⟨[1]⟩⟩ ∧
      (⟨⟨true, ⟨[3]⟩⟩, ⟨[1]⟩⟩ : Fraction).value = ⌊x.value / 2 ^ 1⌋ ∧
      x.shl y = some ⟨⟨true, ⟨[10]⟩⟩, ⟨[1]⟩⟩ ∧
      (⟨⟨true, ⟨[10]⟩⟩, ⟨[1]⟩⟩ : Fraction).value = x.value * 2 ^ 1 := by
  intro x y
  have lowest : x.LowestTerms := by decide
  have lowest' : y.LowestTerms := by decide
  have amount : y.value = (1 : ℕ) := by decide +kernel
  have down : x.shr y = some ⟨⟨true, ⟨[3]⟩⟩, ⟨[1]⟩⟩ := by decide +kernel
  have up : x.shl y = some ⟨⟨true, ⟨[10]⟩⟩, ⟨[1]⟩⟩ := by decide +kernel
  obtain ⟨right, left⟩ := (shifts_exact lowest lowest').1 1 amount
  exact ⟨lowest, lowest', amount, down, (right.sound _ down).2, up, (left.sound _ up).2⟩

end Fraction

end ContractTyping
