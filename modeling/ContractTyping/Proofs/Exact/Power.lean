import ContractTyping.Proofs.Exact.Fraction
import Mathlib.Algebra.Ring.Parity
import Mathlib.Data.Rat.Cast.Defs

/-!
# Powers

A power is refused early if its length, estimated from the length of the base, is beyond the limit,
and late if the power itself turns out too long. The early test never refuses what the late one
would accept, so a power is missing only if it is too long. In between it does not matter how the
power is worked out: square and multiply, which takes the binary digits of the exponent from the
lowest up (`squareMultiply`), ends with the same number as multiplying again and again.

* `Natural.pow_withinBits`: powers of natural numbers are exact up to the limit.
* `Fraction.pow_exactly`: so are powers of fractions, also with a negative exponent.
-/

namespace ContractTyping

open Nat Natural Option

namespace Natural

variable (base : Natural) (exponent : Nat)
variable {n : Natural} (found : Natural × Natural) {k : Nat}

/-! ## Repeated multiplication -/

theorem trimmed_powUp : (powUp base exponent).Trimmed := by
  cases exponent with
  | zero => exact trimmed_one
  | succ exponent => exact trimmed_mul _ _

theorem value_powUp : (powUp base exponent).value = base.value ^ exponent := by
  induction exponent with
  | zero => exact value_one
  | succ exponent ih => rw [powUp, value_mul, ih, pow_succ']

/-! ## Square and multiply -/

/-- One round on a result and a base: a digit one of the exponent takes the base into the result,
and for the digits above, if there are any, the base is squared. -/
def squareRound (exponent : Nat) (found : Natural × Natural) : Natural × Natural :=
  (if exponent % 2 = 1 then found.1.mul found.2 else found.1,
    if exponent / 2 = 0 then found.2 else found.2.mul found.2)

/-- The result times a power of the base, by the binary digits of the exponent from the lowest. -/
def squareMultiply (found : Natural × Natural) (exponent : Nat) : Natural :=
  if exponent = 0 then found.1 else squareMultiply (squareRound exponent found) (exponent / 2)
termination_by exponent
decreasing_by exact div_lt_self (pos_of_ne_zero ‹_›) (by decide)

/-- A power by the lowest binary digit of its exponent and a square for the digits above. -/
theorem pow_eq_square (n exponent : Nat) :
    n ^ exponent = n ^ (exponent % 2) * (n * n) ^ (exponent / 2) := by
  rw [← pow_two, ← pow_mul, ← pow_add, mod_add_div]

/-- A round keeps the product of the result and the power that is left to do. -/
theorem value_squareRound :
    (squareRound exponent found).1.value * (squareRound exponent found).2.value ^ (exponent / 2) =
      found.1.value * found.2.value ^ exponent := by
  -- Leaving out the last square changes nothing, since the exponent that is left is zero.
  have squared : (squareRound exponent found).2.value ^ (exponent / 2) =
      (found.2.value * found.2.value) ^ (exponent / 2) := by
    by_cases last : exponent / 2 = 0
    · rw [last, pow_zero, pow_zero]
    · simp only [squareRound, if_neg last, value_mul]
  rw [squared, pow_eq_square found.2.value exponent, ← mul_assoc]
  rcases mod_two_eq_zero_or_one exponent with even | odd
  · simp [squareRound, even]
  · simp [squareRound, odd]

theorem value_squareMultiply :
    (squareMultiply found exponent).value = found.1.value * found.2.value ^ exponent := by
  fun_induction squareMultiply found exponent with
  | case1 found => rw [pow_zero, mul_one]
  | case2 found exponent _ ih => rw [ih, value_squareRound]

theorem trimmed_squareMultiply {found : Natural × Natural} (trimmed : found.1.Trimmed)
    (exponent : Nat) : (squareMultiply found exponent).Trimmed := by
  fun_induction squareMultiply found exponent with
  | case1 found => exact trimmed
  | case2 found exponent _ ih =>
    apply ih
    unfold squareRound
    split
    · exact trimmed_mul _ _
    · exact trimmed

/-- Both ways to work out a power end with the same limbs. -/
theorem squareMultiply_one : squareMultiply (one, base) exponent = powUp base exponent := by
  refine value_injective (trimmed_squareMultiply trimmed_one exponent)
    (trimmed_powUp base exponent) ?_
  rw [value_squareMultiply, value_powUp, value_one, one_mul]

/-! ## The limit -/

/-- A product of two words, or the largest word if the product is larger. -/
def saturatingProduct (a b : Nat) : Nat := min (a * b) (UInt64.size - 1)

/-- The power by square and multiply, if it has at most `maxBits` bits. -/
def powBySquaring (base : Natural) (exponent : Nat) : Option Natural :=
  if exponent = 0 then some one
  else if base.isZero || base.isOne then some base
  else if saturatingProduct (base.bits - 1) exponent > maxBits then none
  else
    let result := squareMultiply (one, base) exponent
    if result.bits > maxBits then none else some result

/-- A product that is cut off at the largest word is still beyond the limit. -/
theorem saturatingProduct_gt_iff (a b : Nat) :
    saturatingProduct a b > maxBits ↔ a * b > maxBits := by
  have small : maxBits < UInt64.size - 1 := by decide
  exact lt_min_iff.trans (and_iff_left small)

theorem powBySquaring_eq_pow : powBySquaring base exponent = base.pow exponent := by
  simp only [powBySquaring, pow, saturatingProduct_gt_iff, squareMultiply_one]

/-- With every factor a number gains all of its bits but one. -/
theorem two_pow_le_pow {n : Nat} (positive : n ≠ 0) (exponent : Nat) :
    2 ^ ((n.size - 1) * exponent) ≤ n ^ exponent := by
  have top : 2 ^ (n.size - 1) ≤ n := by
    have some : 0 < n.size := size_pos.mpr (pos_of_ne_zero positive)
    exact lt_size.mp (sub_lt some one_pos)
  rw [pow_mul]
  exact Nat.pow_le_pow_left top exponent

/-- A result that is exact up to the limit: it is given precisely if the number has at most
`maxBits` bits, and then it denotes that number. -/
structure WithinBits (result : Option Natural) (k : Nat) : Prop where
  given : result.isSome = true ↔ k.size ≤ maxBits
  denotes : ∀ n, result = some n → n.Denotes k

theorem WithinBits.present (denotes : n.Denotes k) (short : k.size ≤ maxBits) :
    WithinBits (some n) k where
  given := ⟨fun _ => short, fun _ => rfl⟩
  denotes := by
    intro n' same
    cases same
    exact denotes

theorem WithinBits.absent (long : maxBits < k.size) : WithinBits none k where
  given := by simp [long]
  denotes := by simp

/-- A power is exact up to the limit. Zero and one are their own powers, and what is refused before
it is worked out would have turned out too long. -/
theorem pow_withinBits {base : Natural} (trimmed : base.Trimmed) (exponent : Nat) :
    WithinBits (base.pow exponent) (base.value ^ exponent) := by
  unfold pow
  split
  · next zero =>
    rw [zero, pow_zero]
    exact .present ⟨trimmed_one, value_one⟩ (by decide)
  · next nonzero =>
    split
    · next fixed =>
      rcases Bool.or_eq_true_iff.mp fixed with isZero | isOne
      · have denoted := (isZero_iff trimmed).mp isZero
        rw [denoted, Nat.zero_pow (Nat.pos_of_ne_zero nonzero)]
        exact .present ⟨trimmed, denoted⟩ (by decide)
      · have denoted := (isOne_iff trimmed).mp isOne
        rw [denoted, one_pow]
        exact .present ⟨trimmed, denoted⟩ (by decide)
    · next varies =>
      have positive : base.value ≠ 0 := by
        intro zero
        rw [(isZero_iff trimmed).mpr zero] at varies
        exact varies rfl
      rw [bits_eq trimmed]
      split
      · next beyond =>
        have long : 2 ^ maxBits ≤ base.value ^ exponent :=
          (Nat.pow_le_pow_right (by decide) (Nat.le_of_lt beyond)).trans
            (two_pow_le_pow positive exponent)
        exact .absent (lt_size.mpr long)
      · dsimp only
        rw [bits_eq (trimmed_powUp _ _), value_powUp]
        split
        · next long => exact .absent long
        · next short => exact .present ⟨trimmed_powUp _ _, value_powUp _ _⟩ (not_lt.mp short)

/-- Only numbers beyond all words are no words. -/
theorem toWord?_eq_none_iff (trimmed : n.Trimmed) : n.toWord? = none ↔ 2 ^ 64 ≤ n.value := by
  constructor
  · intro missing
    by_contra small
    have denotes := toNat_toUInt64 (not_le.mp small)
    rw [(toWord?_eq_some_iff trimmed).mpr denotes] at missing
    cases missing
  · intro large
    refine eq_none_iff_forall_ne_some.mpr fun word fits => ?_
    rw [← toNat_of_toWord? fits] at large
    exact absurd word.toNat_lt (not_lt.mpr large)

end Natural

/-! ## Powers of fractions -/

namespace Fraction

variable {x y : Fraction}

/-- The power with a natural number as exponent. -/
def wholePower (x : Fraction) (exponent : Nat) : Option Fraction := do
  let numerator ← x.numerator.magnitude.pow exponent
  let denominator ← x.denominator.pow exponent
  make? (.ofSign (x.numerator.negative && exponent % 2 == 1) numerator) denominator

/-- An even power has no sign and an odd one has the sign of the base. -/
theorem value_ofSign_pow (n : Integer) (exponent : Nat) {magnitude : Natural}
    (denotes : magnitude.value = n.magnitude.value ^ exponent) :
    (Integer.ofSign (n.negative && exponent % 2 == 1) magnitude).value = n.value ^ exponent := by
  rw [Integer.value_ofSign, Integer.value, denotes]
  cases n.negative with
  | false => simp
  | true =>
    rcases mod_two_eq_zero_or_one exponent with even | odd
    · simp [even, (even_iff.mpr even).neg_pow]
    · simp [odd, (odd_iff.mpr odd).neg_pow]

theorem withinLimit_pow_iff (lowest : x.LowestTerms) (exponent : Nat) :
    WithinLimit (x.value ^ exponent) ↔
      (x.numerator.magnitude.value ^ exponent).size ≤ maxBits ∧
      (x.denominator.value ^ exponent).size ≤ maxBits := by
  rw [WithinLimit, Rat.num_pow, Rat.den_pow, lowest.num_value, lowest.den_value, Int.natAbs_pow,
    Integer.natAbs_value]

/-- Powers of coprime numbers are coprime, so the limits on the parts are those on the power. -/
theorem wholePower_exactly (lowest : x.LowestTerms) (exponent : Nat) :
    Exactly (x.wholePower exponent) True (x.value ^ exponent) := by
  have top := pow_withinBits lowest.1.1 exponent
  have bottom := pow_withinBits lowest.2.1 exponent
  have limits := withinLimit_pow_iff lowest exponent
  rw [← top.given, ← bottom.given] at limits
  unfold wholePower
  cases foundTop : x.numerator.magnitude.pow exponent with
  | none => exact .absent (by simp [limits, foundTop])
  | some numerator =>
    cases foundBottom : x.denominator.pow exponent with
    | none => exact .absent (by simp [limits, foundBottom])
    | some denominator =>
      obtain ⟨trimmed, topValue⟩ := top.denotes numerator foundTop
      obtain ⟨trimmed', bottomValue⟩ := bottom.denotes denominator foundBottom
      have nonzero : denominator.value ≠ 0 := by
        rw [bottomValue]
        exact pow_ne_zero _ lowest.2.2.1
      obtain ⟨r, made, lowest', equal⟩ := make?_spec (Integer.canonical_ofSign
        (x.numerator.negative && exponent % 2 == 1) trimmed) trimmed' nonzero
      have exact : r.value = x.value ^ exponent := by
        rw [equal, value_ofSign_pow x.numerator exponent topValue, bottomValue, value, div_pow]
        push_cast
        rfl
      have within : WithinLimit (x.value ^ exponent) := by simp [limits, foundTop, foundBottom]
      simp only [bind_eq_bind, bind_some, made]
      exact .present lowest' exact within

/-- A reciprocal is as long as the number itself. -/
theorem withinLimit_inv {q : ℚ} (nonzero : q ≠ 0) : WithinLimit q⁻¹ ↔ WithinLimit q := by
  have sign : q.num.sign.natAbs = 1 := Int.natAbs_sign_of_ne_zero (Rat.num_ne_zero.mpr nonzero)
  rw [WithinLimit, WithinLimit, Rat.num_inv, Rat.den_inv_of_ne_zero nonzero, Int.natAbs_mul,
    sign, one_mul, Int.natAbs_natCast, and_comm]

/-- The reciprocal of an exact result is exact. -/
theorem Exactly.reciprocal {result : Option Fraction} {exact : ℚ}
    (exactly : Exactly result True exact)
    (nonzero : exact ≠ 0) : Exactly (result.bind one.div) True exact⁻¹ := by
  have gives := exactly.gives.bind fun r lowest equal => by
    have quotient := (div_exactly lowestTerms_one lowest).gives
    rwa [equal, value_one, one_div] at quotient
  refine ⟨gives.given.trans ?_, gives.sound⟩
  rw [withinLimit_inv nonzero]
  tauto

/-- The power with an integer as exponent: the reciprocal of a power if the exponent is negative. -/
theorem pow_eq_wholePower {word : UInt64} (integer : y.isInteger = true)
    (fits : y.numerator.magnitude.toWord? = some word)
    (defined : (y.isNegative && x.isZero) = false) :
    x.pow y = if y.isNegative then (x.wholePower word.toNat).bind one.div
      else x.wholePower word.toNat := by
  unfold pow wholePower
  simp only [integer, fits, defined, bind_eq_bind, bind_some, bind_assoc]
  cases y.isNegative with
  | false => simp
  | true => simp

/-- An exponent that is not the size of a word is refused, and so is a reciprocal of zero. -/
theorem pow_eq_none (refused : y.isInteger = false ∨ y.numerator.magnitude.toWord? = none ∨
    (y.isNegative && x.isZero) = true) : x.pow y = none := by
  unfold pow
  rcases refused with fractional | large | zero
  · simp [fractional]
  · simp [large]
  · simp [zero]

theorem pow_exactly (lowest : x.LowestTerms) (lowest' : y.LowestTerms) {z : ℤ}
    (exponent : y.value = z) :
    Exactly (x.pow y) (z.natAbs < 2 ^ 64 ∧ ¬ (x.value = 0 ∧ z < 0)) (x.value ^ z) := by
  have integer : y.isInteger = true := (isInteger_iff lowest').mpr ⟨z, exponent⟩
  have numerator := numerator_value_of_eq lowest' exponent
  have magnitude : y.numerator.magnitude.value = z.natAbs := by
    rw [← Integer.natAbs_value, numerator]
  have negative : y.isNegative = true ↔ z < 0 := by rw [isNegative_iff lowest', numerator]
  cases fits : y.numerator.magnitude.toWord? with
  | none =>
    rw [pow_eq_none (.inr (.inl fits))]
    rw [toWord?_eq_none_iff lowest'.1.1, magnitude] at fits
    exact .absent fun holds => absurd holds.1.1 (not_lt.mpr fits)
  | some word =>
    have amount : word.toNat = z.natAbs := (toNat_of_toWord? fits).trans magnitude
    have small : z.natAbs < 2 ^ 64 := amount ▸ word.toNat_lt
    cases undefined : (y.isNegative && x.isZero) with
    | true =>
      rw [pow_eq_none (.inr (.inr undefined))]
      rw [Bool.and_eq_true, negative, isZero_iff lowest] at undefined
      exact .absent fun holds => holds.1.2 undefined.symm
    | false =>
      have defined : ¬ (x.value = 0 ∧ z < 0) := by
        rw [← isZero_iff lowest, ← negative, and_comm, ← Bool.and_eq_true, undefined]
        decide
      have whole := wholePower_exactly lowest z.natAbs
      rw [pow_eq_wholePower integer fits undefined, amount]
      refine Exactly.when ?_ ⟨small, defined⟩
      rcases lt_or_ge z 0 with below | above
      · have power : x.value ^ z = (x.value ^ z.natAbs)⁻¹ := by
          rw [← zpow_natCast, ← zpow_neg, Int.ofNat_natAbs_of_nonpos below.le, neg_neg]
        have nonzero : x.value ^ z.natAbs ≠ 0 := pow_ne_zero _ fun zero => defined ⟨zero, below⟩
        rw [if_pos (negative.mpr below), power]
        exact whole.reciprocal nonzero
      · have power : x.value ^ z = x.value ^ z.natAbs := by
          rw [← zpow_natCast, Int.natAbs_of_nonneg above]
        rw [if_neg (by rw [negative]; exact not_lt.mpr above), power]
        exact whole

end Fraction

/-- **Powers are exact up to the limit.** A power of a number in normal form is given precisely if
it has at most `maxBits` bits, and then it is the power in normal form; square and multiply, behind
a test whose product stops at the largest word, gives the same. A power of fractions in lowest terms
is given precisely if the exponent is an integer with the magnitude of a word, no negative power of
zero is asked for, and numerator and denominator of the power in lowest terms have at most `maxBits`
bits each; then it is that power in lowest terms. -/
theorem powers_exact {base : Natural} (trimmed : base.Trimmed) (exponent : Nat) {x y : Fraction}
    (lowest : x.LowestTerms) (lowest' : y.LowestTerms) :
    (Natural.WithinBits (base.pow exponent) (base.value ^ exponent) ∧
      base.powBySquaring exponent = base.pow exponent) ∧
    (∀ z : ℤ, y.value = z →
      Fraction.Exactly (x.pow y) (z.natAbs < 2 ^ 64 ∧ ¬ (x.value = 0 ∧ z < 0)) (x.value ^ z)) ∧
    ((¬ ∃ z : ℤ, y.value = z) → x.pow y = none) := by
  refine ⟨⟨Natural.pow_withinBits trimmed exponent, base.powBySquaring_eq_pow exponent⟩, ?_, ?_⟩
  · intro z integer
    exact Fraction.pow_exactly lowest lowest' integer
  · intro fractional
    rw [← Fraction.isInteger_iff lowest', Bool.not_eq_true] at fractional
    exact Fraction.pow_eq_none (.inl fractional)

/-- A power that is refused before multiplying, and an odd power with a negative exponent. -/
theorem powers_exact_cube :
    let base : Natural := ⟨[0, 1]⟩
    let x : Fraction := ⟨⟨true, ⟨[3]⟩⟩, ⟨[2]⟩⟩
    let y : Fraction := ⟨⟨true, ⟨[3]⟩⟩, ⟨[1]⟩⟩
    base.Trimmed ∧ x.LowestTerms ∧ y.LowestTerms ∧ base.pow 129 = none ∧
      ¬ (base.value ^ 129).size ≤ Natural.maxBits ∧ y.value = (-3 : ℤ) ∧
      x.pow y = some ⟨⟨true, ⟨[8]⟩⟩, ⟨[27]⟩⟩ ∧
      (⟨⟨true, ⟨[8]⟩⟩, ⟨[27]⟩⟩ : Fraction).value = x.value ^ (-3 : ℤ) := by
  intro base x y
  have trimmed : base.Trimmed := by decide
  have lowest : x.LowestTerms := by decide
  have lowest' : y.LowestTerms := by decide
  have exponent : y.value = (-3 : ℤ) := by decide +kernel
  have missing : base.pow 129 = none := by decide +kernel
  have given : x.pow y = some ⟨⟨true, ⟨[8]⟩⟩, ⟨[27]⟩⟩ := by decide +kernel
  obtain ⟨⟨within, -⟩, exactly, -⟩ := powers_exact trimmed 129 lowest lowest'
  have long : ¬ (base.value ^ 129).size ≤ Natural.maxBits := by
    rw [← within.given, missing]
    decide
  exact ⟨trimmed, lowest, lowest', missing, long, exponent, given,
    ((exactly (-3) exponent).sound _ given).2⟩

end ContractTyping
