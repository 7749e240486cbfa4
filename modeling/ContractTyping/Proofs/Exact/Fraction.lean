import ContractTyping.Exact.Fraction
import ContractTyping.Proofs.Exact.Division
import Mathlib.Algebra.Order.Ring.Rat
import Mathlib.Data.Nat.Cast.Order.Ring
import Mathlib.Data.Rat.Lemmas

/-!
# Fractions denote rational numbers

The value of a fraction is a rational number, and the parts of a fraction in lowest terms are the
numerator and the denominator of that number. So arithmetic on fractions is arithmetic on rational
numbers, cut off where a result would be too long.

* `make?_spec`: reducing a fraction keeps its value and gives lowest terms.
* `Exactly`: what is promised of an operation with a limit. `Gives` is the same without one, and
  `Gives.bind` puts one operation after another.
* `arithmetic_exact`: sums, differences, products and quotients are exact, and missing only beyond
  the limit or for a zero divisor; the order is that of the rational numbers.
-/

namespace ContractTyping

open Natural Int

/-! ## Integers -/

namespace Integer

variable (x y : Integer)
variable (negative : Bool) (factor : Natural)

theorem canonical_ofSign {magnitude : Natural} (trimmed : magnitude.Trimmed) :
    (ofSign negative magnitude).Canonical := by
  refine ⟨trimmed, fun zero => ?_⟩
  simp only [ofSign] at zero ⊢
  simp [zero]

/-- Dropping the sign of zero does not change the value. -/
theorem value_ofSign (magnitude : Natural) :
    (ofSign negative magnitude).value = if negative then -(magnitude.value : Int)
      else magnitude.value := by
  cases empty : magnitude.isZero with
  | false => simp [ofSign, value, empty]
  | true =>
    have zero : magnitude.value = 0 := by
      rw [Natural.value, List.isEmpty_iff.mp empty, limbsValue_nil]
    simp [ofSign, value, zero]

theorem natAbs_value : x.value.natAbs = x.magnitude.value := by
  unfold value
  split <;> simp

theorem Canonical.magnitude_ne_zero {x : Integer} (canonical : x.Canonical)
    (negative : x.negative = true) : x.magnitude.value ≠ 0 := by
  intro zero
  have unsigned := canonical.2 ((isZero_iff canonical.1).mpr zero)
  rw [negative] at unsigned
  contradiction

/-- Integers in normal form are determined by their values. -/
theorem value_injective {x y : Integer} (canonical : x.Canonical) (canonical' : y.Canonical)
    (equal : x.value = y.value) : x = y := by
  have magnitude : x.magnitude = y.magnitude :=
    Natural.value_injective canonical.1 canonical'.1 (by rw [← natAbs_value, equal, natAbs_value])
  have sign : x.negative = y.negative := by
    cases signX : x.negative <;> cases signY : y.negative <;> try rfl
    · have nonzero := canonical'.magnitude_ne_zero signY
      simp only [value, signX, signY, magnitude] at equal
      simp at equal
      omega
    · have nonzero := canonical.magnitude_ne_zero signX
      simp only [value, signX, signY, magnitude] at equal nonzero
      simp at equal
      omega
  cases x
  cases y
  congr

theorem isZero_iff {x : Integer} (canonical : x.Canonical) : x.isZero = true ↔ x.value = 0 := by
  rw [isZero, Natural.isZero_iff canonical.1, ← natAbs_value, natAbs_eq_zero]

theorem canonical_neg {x : Integer} (canonical : x.Canonical) : x.neg.Canonical :=
  canonical_ofSign _ canonical.1

@[simp]
theorem value_neg : x.neg.value = -x.value := by
  rw [neg, value_ofSign, value]
  cases x.negative <;> simp

theorem canonical_scale : (x.scale factor).Canonical :=
  canonical_ofSign _ (trimmed_mul _ _)

@[simp]
theorem value_scale : (x.scale factor).value = x.value * (factor.value : Int) := by
  rw [scale, value_ofSign, value, value_mul]
  cases x.negative <;> simp

theorem canonical_mul : (x.mul y).Canonical :=
  canonical_ofSign _ (trimmed_mul _ _)

@[simp]
theorem value_mul : (x.mul y).value = x.value * y.value := by
  rw [mul, value_ofSign, value, value, Natural.value_mul]
  cases x.negative <;> cases y.negative <;> simp

theorem canonical_add : (x.add y).Canonical := by
  unfold add
  split
  · exact canonical_ofSign _ (trimmed_add _ _)
  · split
    · exact canonical_ofSign _ (trimmed_sub _ _)
    · exact canonical_ofSign _ (trimmed_sub _ _)

theorem value_add {x y : Integer} (canonical : x.Canonical) (canonical' : y.Canonical) :
    (x.add y).value = x.value + y.value := by
  unfold add
  split
  · next same =>
    rw [value_ofSign, value, value, Natural.value_add, same]
    cases y.negative
    · simp
    · simp only [if_true]
      omega
  · next different =>
    have opposite : y.negative = !x.negative := Bool.eq_not_of_ne (Ne.symm different)
    split
    · next less =>
      rw [cmp_eq_lt_iff canonical.1 canonical'.1] at less
      rw [value_ofSign, value, value, value_sub (Nat.le_of_lt less), opposite]
      cases x.negative <;> simp <;> omega
    · next notLess =>
      rw [cmp_eq_lt_iff canonical.1 canonical'.1, Nat.not_lt] at notLess
      rw [value_ofSign, value, value, value_sub notLess, opposite]
      cases x.negative <;> simp <;> omega

/-- The order is that of the integers. -/
theorem cmp_eq {x y : Integer} (canonical : x.Canonical) (canonical' : y.Canonical) :
    x.cmp y = compare x.value y.value := by
  unfold cmp
  split
  · next positive negative =>
    have nonzero := canonical'.magnitude_ne_zero negative
    symm
    rw [compare_gt_iff_gt]
    simp only [value, positive, negative]
    simp
    omega
  · next negative positive =>
    have nonzero := canonical.magnitude_ne_zero negative
    symm
    rw [compare_lt_iff_lt]
    simp only [value, positive, negative]
    simp
    omega
  · next positive positive' =>
    rw [Natural.cmp_eq canonical.1 canonical'.1]
    simp only [value, positive, positive']
    rcases lt_trichotomy x.magnitude.value y.magnitude.value with less | equal | greater
    · rw [compare_lt_iff_lt.mpr less, compare_lt_iff_lt.mpr]
      simpa using less
    · rw [compare_eq_iff_eq.mpr equal, compare_eq_iff_eq.mpr]
      simpa using equal
    · rw [compare_gt_iff_gt.mpr greater, compare_gt_iff_gt.mpr]
      simpa using greater
  · next negative negative' =>
    rw [Natural.cmp_eq canonical'.1 canonical.1]
    simp only [value, negative, negative']
    rcases lt_trichotomy y.magnitude.value x.magnitude.value with less | equal | greater
    · rw [compare_lt_iff_lt.mpr less, compare_lt_iff_lt.mpr]
      simpa using less
    · rw [compare_eq_iff_eq.mpr equal, compare_eq_iff_eq.mpr]
      simpa using equal.symm
    · rw [compare_gt_iff_gt.mpr greater, compare_gt_iff_gt.mpr]
      simpa using greater

end Integer

/-! ## Fractions -/

namespace Fraction

variable {result : Option Fraction} {defined : Prop} {exact : ℚ} {condition : Prop}
variable {numerator : Integer} {denominator : Natural} {r : Fraction}

/-- The rational number denoted. -/
def value (x : Fraction) : ℚ := (x.numerator.value : ℚ) / (x.denominator.value : ℚ)

/-- Whether numerator and denominator have no more bits than a literal may have. -/
def WithinLimit (q : ℚ) : Prop :=
  q.num.natAbs.size ≤ maxBits ∧ q.den.size ≤ maxBits

variable {x y : Fraction}

variable (lowest : x.LowestTerms)

include lowest

theorem LowestTerms.denominator_ne_zero : (x.denominator.value : ℚ) ≠ 0 :=
  Nat.cast_ne_zero.mpr lowest.2.2.1

theorem LowestTerms.denominator_pos : (0 : ℚ) < x.denominator.value :=
  Nat.cast_pos.mpr (Nat.pos_of_ne_zero lowest.2.2.1)

/-- The numerator of a fraction in lowest terms is that of its value. -/
theorem LowestTerms.num_value : x.value.num = x.numerator.value := by
  have coprime : x.numerator.value.natAbs.Coprime ((x.denominator.value : ℤ)).natAbs := by
    rw [Integer.natAbs_value, natAbs_natCast]
    exact lowest.2.2.2
  exact Rat.num_div_eq_of_coprime (natCast_pos.mpr (Nat.pos_of_ne_zero lowest.2.2.1)) coprime

/-- The denominator of a fraction in lowest terms is that of its value. -/
theorem LowestTerms.den_value : x.value.den = x.denominator.value := by
  have coprime : x.numerator.value.natAbs.Coprime ((x.denominator.value : ℤ)).natAbs := by
    rw [Integer.natAbs_value, natAbs_natCast]
    exact lowest.2.2.2
  have equal :=
    Rat.den_div_eq_of_coprime (natCast_pos.mpr (Nat.pos_of_ne_zero lowest.2.2.1)) coprime
  exact natCast_inj.mp equal

/-- Fractions in lowest terms are determined by their values. -/
theorem value_eq_iff (lowest' : y.LowestTerms) : x = y ↔ x.value = y.value := by
  constructor
  · intro equal
    rw [equal]
  · intro equal
    have numerator : x.numerator = y.numerator :=
      Integer.value_injective lowest.1 lowest'.1
        (by rw [← lowest.num_value, equal, lowest'.num_value])
    have denominator : x.denominator = y.denominator :=
      value_injective lowest.2.1 lowest'.2.1 (by rw [← lowest.den_value, equal, lowest'.den_value])
    cases x
    cases y
    congr

/-- Fractions in lowest terms have the order of the rational numbers. -/
theorem cmp_eq (lowest' : y.LowestTerms) : x.cmp y = compare x.value y.value := by
  have below : ∀ {z w : Fraction}, z.LowestTerms → w.LowestTerms →
      ((z.numerator.value * (w.denominator.value : ℤ) <
        w.numerator.value * (z.denominator.value : ℤ)) ↔ z.value < w.value) := by
    intro z w lowestZ lowestW
    rw [value, value, div_lt_div_iff₀ lowestZ.denominator_pos lowestW.denominator_pos]
    exact_mod_cast Iff.rfl
  rw [cmp, Integer.cmp_eq (Integer.canonical_scale _ _) (Integer.canonical_scale _ _),
    Integer.value_scale, Integer.value_scale]
  rcases lt_trichotomy x.value y.value with less | equal | greater
  · rw [compare_lt_iff_lt.mpr less, compare_lt_iff_lt, below lowest lowest']
    exact less
  · rw [(value_eq_iff lowest lowest').mpr equal, compare_eq_iff_eq.mpr rfl,
      compare_eq_iff_eq.mpr rfl]
  · rw [compare_gt_iff_gt.mpr greater, compare_gt_iff_gt, below lowest' lowest]
    exact greater

theorem exceedsLimit_eq_false_iff : x.exceedsLimit = false ↔ WithinLimit x.value := by
  rw [WithinLimit, lowest.num_value, lowest.den_value, Integer.natAbs_value, exceedsLimit,
    bits_eq lowest.1.1, bits_eq lowest.2.1]
  simp

/-! ## Whole numbers and signs -/

/-- A fraction denotes an integer if its denominator is one, and then it is the numerator. -/
theorem isInteger_iff : x.isInteger = true ↔ ∃ z : ℤ, x.value = z := by
  rw [isInteger, isOne_iff lowest.2.1, ← lowest.den_value]
  constructor
  · intro whole
    exact ⟨x.value.num, (Rat.coe_int_num_of_den_eq_one whole).symm⟩
  · rintro ⟨z, equal⟩
    rw [equal, Rat.den_intCast]

theorem numerator_value_of_eq {z : ℤ} (equal : x.value = z) : x.numerator.value = z := by
  rw [← lowest.num_value, equal, Rat.num_intCast]

/-- A fraction is negative if its value is. -/
theorem isNegative_iff : x.isNegative = true ↔ x.numerator.value < 0 := by
  unfold isNegative Integer.value
  cases sign : x.numerator.negative with
  | false => simp
  | true =>
    have nonzero := lowest.1.magnitude_ne_zero sign
    simp only [if_true, true_iff]
    omega

theorem isNegative_iff_value_neg : x.isNegative = true ↔ x.value < 0 := by
  rw [isNegative_iff lowest, ← lowest.num_value, Rat.num_neg]

/-- A fraction gives a word if it denotes the same number. -/
theorem toWord?_eq_some_iff {word : UInt64} : x.toWord? = some word ↔ x.value = word.toNat := by
  rw [toWord?, Option.ite_none_right_eq_some, Natural.toWord?_eq_some_iff lowest.1.1,
    Bool.and_eq_true,
    Bool.not_eq_true', isInteger_iff lowest, ← Bool.not_eq_true, isNegative_iff lowest]
  constructor
  · rintro ⟨⟨⟨z, equal⟩, notNegative⟩, fits⟩
    have denotes := numerator_value_of_eq lowest equal
    have magnitude := Integer.natAbs_value x.numerator
    have whole : z = (word.toNat : ℤ) := by omega
    rw [equal, whole, cast_natCast]
  · intro equal
    have denotes : x.numerator.value = (word.toNat : ℤ) :=
      numerator_value_of_eq lowest (by rw [equal, cast_natCast])
    have magnitude := Integer.natAbs_value x.numerator
    exact ⟨⟨⟨word.toNat, by rw [equal, cast_natCast]⟩, by omega⟩, by omega⟩

omit lowest

theorem lowestTerms_ofInteger {n : Integer} (canonical : n.Canonical) :
    (ofInteger n).LowestTerms := by
  refine ⟨canonical, trimmed_one, ?_, ?_⟩
  · simp [ofInteger]
  · simp [ofInteger]

theorem lowestTerms_ofNatural {n : Natural} (trimmed : n.Trimmed) : (ofNatural n).LowestTerms :=
  lowestTerms_ofInteger (Integer.canonical_ofSign _ trimmed)

@[simp]
theorem value_ofInteger (n : Integer) : (ofInteger n).value = n.value := by
  rw [value, ofInteger, value_one, Nat.cast_one, div_one]

theorem lowestTerms_one : one.LowestTerms := lowestTerms_ofNatural trimmed_one

theorem value_one : one.value = 1 := by
  rw [one, ofNatural, value_ofInteger, Integer.ofNatural, Integer.value_ofSign, Natural.value_one]
  rfl

/-! ## Reduction to lowest terms -/

/-- Dividing numerator and denominator by a common divisor keeps the value. -/
theorem value_cancel {numerator reduced : ℤ} {denominator divided divisor : ℕ}
    (positive : divisor ≠ 0)
    (top : reduced * divisor = numerator) (bottom : divided * divisor = denominator) :
    (reduced : ℚ) / divided = (numerator : ℚ) / denominator := by
  rw [← top, ← bottom, cast_mul, Nat.cast_mul, cast_natCast,
    mul_div_mul_right _ _ (Nat.cast_ne_zero.mpr positive)]

/-- Reducing a fraction keeps its value and gives lowest terms. -/
theorem make?_spec (canonical : numerator.Canonical) (trimmed : denominator.Trimmed)
    (nonzero : denominator.value ≠ 0) : ∃ r, make? numerator denominator = some r ∧ r.LowestTerms ∧
      r.value = (numerator.value : ℚ) / (denominator.value : ℚ) := by
  have present : ¬ denominator.isZero = true := by rwa [isZero_iff trimmed]
  have divisorTrimmed := trimmed_gcd canonical.1 trimmed
  have divisorValue := value_gcd canonical.1 trimmed
  have positive : 0 < Nat.gcd numerator.magnitude.value denominator.value :=
    Nat.gcd_pos_of_pos_right _ (Nat.pos_of_ne_zero nonzero)
  rw [make?, if_neg present]
  generalize numerator.magnitude.gcd denominator = divisor at divisorTrimmed divisorValue
  dsimp only
  split
  · next trivial =>
    -- The divisor is not zero, so it is one, and nothing has to be divided.
    have coprime : Nat.gcd numerator.magnitude.value denominator.value = 1 := by
      rw [Bool.or_eq_true_iff, isZero_iff divisorTrimmed, isOne_iff divisorTrimmed,
        divisorValue] at trivial
      omega
    exact ⟨_, rfl, ⟨canonical, trimmed, nonzero, coprime⟩, rfl⟩
  · have divisorNonzero : divisor.value ≠ 0 := by omega
    have top := divmod_divides canonical.1 divisorTrimmed divisorNonzero
    have bottom := divmod_divides trimmed divisorTrimmed divisorNonzero
    have topParts : (numerator.magnitude.divmod divisor).1.value * divisor.value =
        numerator.magnitude.value := by
      rw [top.value_quotient, divisorValue]
      exact Nat.div_mul_cancel (Nat.gcd_dvd_left _ _)
    have bottomParts :
        (denominator.divmod divisor).1.value * divisor.value = denominator.value := by
      rw [bottom.value_quotient, divisorValue]
      exact Nat.div_mul_cancel (Nat.gcd_dvd_right _ _)
    refine ⟨_, rfl, ⟨Integer.canonical_ofSign _ top.quotient, bottom.quotient, ?_, ?_⟩, ?_⟩
    · intro zero
      rw [zero, Nat.zero_mul] at bottomParts
      exact nonzero bottomParts.symm
    · dsimp only [Integer.ofSign]
      rw [top.value_quotient, bottom.value_quotient, divisorValue]
      exact Nat.coprime_div_gcd_div_gcd positive
    · refine value_cancel divisorNonzero ?_ bottomParts
      rw [Integer.value_ofSign, Integer.value, ← topParts]
      cases numerator.negative <;> simp

/-! ## Exact results -/

/-- A result is exact: it is given precisely if the exact value is defined and within the limit, and
then it is that value in lowest terms. -/
structure Exactly (result : Option Fraction) (defined : Prop) (exact : ℚ) : Prop where
  given : result.isSome = true ↔ defined ∧ WithinLimit exact
  sound : ∀ r, result = some r → r.LowestTerms ∧ r.value = exact

/-- An exact result is determined by its value, and so is its absence. -/
theorem Exactly.unique {other : Option Fraction} (exactly : Exactly result defined exact)
    (exactly' : Exactly other defined exact) : result = other := by
  have alike : result.isSome = true ↔ other.isSome = true := exactly.given.trans exactly'.given.symm
  cases result with
  | none =>
    cases other with
    | none => rfl
    | some s => cases alike.mpr rfl
  | some r =>
    cases other with
    | none => cases alike.mp rfl
    | some s =>
      obtain ⟨lowest, equal⟩ := exactly.sound r rfl
      obtain ⟨lowest', equal'⟩ := exactly'.sound s rfl
      rw [(value_eq_iff lowest lowest').mpr (equal.trans equal'.symm)]

/-- A result is given under a condition, and then it is the exact value in lowest terms. -/
structure Gives (result : Option Fraction) (condition : Prop) (exact : ℚ) : Prop where
  given : result.isSome = true ↔ condition
  sound : ∀ r, result = some r → r.LowestTerms ∧ r.value = exact

theorem Gives.present (lowest : r.LowestTerms) (equal : r.value = exact) (holds : condition) :
    Gives (some r) condition exact where
  given := ⟨fun _ => holds, fun _ => rfl⟩
  sound := by
    intro r' same
    cases same
    exact ⟨lowest, equal⟩

theorem Gives.absent (missing : ¬ condition) : Gives none condition exact where
  given := by simp [missing]
  sound := by simp

/-- One operation after another: the conditions of both have to hold. -/
theorem Gives.bind {next : Fraction → Option Fraction} {after : Prop} {last : ℚ}
    (first : Gives result condition exact)
    (second : ∀ r, r.LowestTerms → r.value = exact → Gives (next r) after last) :
    Gives (result.bind next) (condition ∧ after) last := by
  cases result with
  | none =>
    have missing : ¬ condition := by simpa using first.given
    exact .absent fun holds => missing holds.1
  | some r =>
    obtain ⟨lowest, equal⟩ := first.sound r rfl
    have holds : condition := first.given.mp rfl
    have rest := second r lowest equal
    exact ⟨by rw [Option.bind_some, rest.given, and_iff_right holds], rest.sound⟩

/-- An exact result is given if it is defined and within the limit. -/
theorem exactly_iff_gives :
    Exactly result defined exact ↔ Gives result (defined ∧ WithinLimit exact) exact :=
  ⟨fun exactly => ⟨exactly.given, exactly.sound⟩, fun gives => ⟨gives.given, gives.sound⟩⟩

theorem Exactly.gives (exactly : Exactly result defined exact) :
    Gives result (defined ∧ WithinLimit exact) exact :=
  exactly_iff_gives.mp exactly

theorem Exactly.absent (missing : ¬ (defined ∧ WithinLimit exact)) : Exactly none defined exact :=
  exactly_iff_gives.mpr (.absent missing)

theorem Exactly.present (lowest : r.LowestTerms) (equal : r.value = exact)
    (within : WithinLimit exact) : Exactly (some r) True exact :=
  exactly_iff_gives.mpr (.present lowest equal ⟨trivial, within⟩)

/-- An exact result is one under a condition that holds. -/
theorem Exactly.when (exactly : Exactly result True exact) (holds : defined) :
    Exactly result defined exact where
  given := by rw [exactly.given, true_and, and_iff_right holds]
  sound := exactly.sound

/-- Keeping a result if it is within the limit makes it exact. -/
theorem Exactly.limited {r : Fraction} {exact : ℚ} (lowest : r.LowestTerms)
    (equal : r.value = exact) : Exactly (limited (some r)) True exact := by
  have limit := exceedsLimit_eq_false_iff lowest
  rw [equal] at limit
  rw [Fraction.limited, Option.filter_some]
  cases fits : r.exceedsLimit with
  | false => exact .present lowest equal (limit.mp fits)
  | true =>
    refine .absent fun holds => ?_
    rw [limit.mpr holds.2] at fits
    cases fits

theorem exactly_limited (canonical : numerator.Canonical) (trimmed : denominator.Trimmed)
    (nonzero : denominator.value ≠ 0)
    (denotes : (numerator.value : ℚ) / (denominator.value : ℚ) = exact) :
    Exactly (limited (make? numerator denominator)) True exact := by
  obtain ⟨r, made, lowest, equal⟩ := make?_spec canonical trimmed nonzero
  rw [made]
  exact .limited lowest (equal.trans denotes)

theorem lowestTerms_neg (lowest : x.LowestTerms) : x.neg.LowestTerms :=
  ⟨Integer.canonical_neg lowest.1, lowest.2⟩

theorem value_neg (x : Fraction) : x.neg.value = -x.value := by
  rw [neg, value, value, Integer.value_neg, cast_neg, neg_div]

variable (lowest : x.LowestTerms)

include lowest

variable (lowest' : y.LowestTerms)

include lowest'

theorem mul_denominators_ne_zero : (x.denominator.mul y.denominator).value ≠ 0 := by
  rw [value_mul]
  exact Nat.mul_ne_zero lowest.2.2.1 lowest'.2.2.1

theorem add_exactly : Exactly (x.add y) True (x.value + y.value) := by
  refine exactly_limited (Integer.canonical_add _ _) (trimmed_mul _ _)
    (mul_denominators_ne_zero lowest lowest') ?_
  rw [Integer.value_add (Integer.canonical_scale _ _) (Integer.canonical_scale _ _),
    Integer.value_scale, Integer.value_scale, value_mul, value, value,
    div_add_div _ _ lowest.denominator_ne_zero lowest'.denominator_ne_zero]
  push_cast
  ring

theorem sub_exactly : Exactly (x.sub y) True (x.value - y.value) := by
  have exactly := add_exactly lowest (lowestTerms_neg lowest')
  rwa [value_neg, ← sub_eq_add_neg] at exactly

theorem mul_exactly : Exactly (x.mul y) True (x.value * y.value) := by
  refine exactly_limited (Integer.canonical_mul _ _) (trimmed_mul _ _)
    (mul_denominators_ne_zero lowest lowest') ?_
  rw [Integer.value_mul, value_mul, value, value, div_mul_div_comm]
  push_cast
  rfl

omit lowest'

theorem isZero_iff : x.isZero = true ↔ x.value = 0 := by
  rw [isZero, Integer.isZero_iff lowest.1, value, div_eq_zero_iff, cast_eq_zero]
  exact (or_iff_left lowest.denominator_ne_zero).symm

omit lowest

/-- The sign of a quotient moves from the divisor to the dividend. -/
theorem value_moveSign (dividend divisor : Integer) :
    ((Integer.ofSign (dividend.negative != divisor.negative) dividend.magnitude).value : ℚ) /
        (divisor.magnitude.value : ℚ) = (dividend.value : ℚ) / (divisor.value : ℚ) := by
  rw [Integer.value_ofSign, Integer.value, Integer.value]
  cases dividend.negative <;> cases divisor.negative <;> simp [div_neg, neg_div]

theorem div_exactly (lowest : x.LowestTerms) (lowest' : y.LowestTerms) :
    Exactly (x.div y) (y.value ≠ 0) (x.value / y.value) := by
  rw [div]
  split
  · next zero =>
    rw [isZero_iff lowest'] at zero
    exact .absent fun holds => holds.1 zero
  · next nonzero =>
    rw [isZero_iff lowest'] at nonzero
    have divisor : y.numerator.value ≠ 0 := by
      intro zero
      rw [value, zero, cast_zero, zero_div] at nonzero
      exact nonzero rfl
    have exactly : Exactly (limited (make? (.ofSign ((x.numerator.scale y.denominator).negative !=
        y.numerator.negative) (x.numerator.scale y.denominator).magnitude)
        (x.denominator.mul y.numerator.magnitude))) True (x.value / y.value) := by
      refine exactly_limited (Integer.canonical_ofSign _ (trimmed_mul _ _)) (trimmed_mul _ _) ?_ ?_
      · rw [value_mul, ← Integer.natAbs_value y.numerator]
        exact Nat.mul_ne_zero lowest.2.2.1 (natAbs_ne_zero.mpr divisor)
      · rw [value_mul, Nat.cast_mul, mul_comm (x.denominator.value : ℚ), ← div_div]
        have moved := value_moveSign (x.numerator.scale y.denominator) y.numerator
        rw [Integer.value_scale] at moved
        refine (congrArg (· / (x.denominator.value : ℚ)) moved).trans ?_
        rw [value, value, div_div_div_eq, div_div, mul_comm (y.numerator.value : ℚ)]
        push_cast
        rfl
    exact exactly.when nonzero

/-- Arithmetic on fractions in lowest terms is exact: a result is missing only if it is not defined
or too long, and a result is again in lowest terms. Equality of fractions is equality of their
values, and their order is that of the rational numbers. -/
theorem arithmetic_exact (x y : Fraction) (lowest : x.LowestTerms) (lowest' : y.LowestTerms) :
    Exactly (x.add y) True (x.value + y.value) ∧
    Exactly (x.sub y) True (x.value - y.value) ∧
    Exactly (x.mul y) True (x.value * y.value) ∧
    Exactly (x.div y) (y.value ≠ 0) (x.value / y.value) ∧
    (x = y ↔ x.value = y.value) ∧
    x.cmp y = compare x.value y.value :=
  ⟨add_exactly lowest lowest', sub_exactly lowest lowest', mul_exactly lowest lowest',
    div_exactly lowest lowest', value_eq_iff lowest lowest', cmp_eq lowest lowest'⟩

/-- Operands of two limbs and with different signs. -/
theorem arithmetic_exact_two_limbs :
    let x : Fraction := ⟨⟨true, ⟨[1, 1]⟩⟩, ⟨[0, 2]⟩⟩
    let y : Fraction := ⟨⟨false, ⟨[3]⟩⟩, ⟨[1, 0, 7]⟩⟩
    x.LowestTerms ∧ y.LowestTerms ∧ Exactly (x.add y) True (x.value + y.value) ∧
      Exactly (x.div y) (y.value ≠ 0) (x.value / y.value) ∧ x.cmp y = compare x.value y.value := by
  intro x y
  have lowest : x.LowestTerms := by decide
  have lowest' : y.LowestTerms := by decide
  obtain ⟨sum, -, -, quotient, -, order⟩ := arithmetic_exact x y lowest lowest'
  exact ⟨lowest, lowest', sum, quotient, order⟩

end Fraction

end ContractTyping
