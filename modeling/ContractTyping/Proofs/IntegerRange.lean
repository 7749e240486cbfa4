import ContractTyping.Proofs.CommonType
import Mathlib.Algebra.Order.Ring.Int
import Mathlib.Data.Set.Basic

/-!
# Integer types as sets of values

An integer type stands for an interval of integers (`Ty.range`). Conversions and widths are worked
out from numbers of bits, and here they are compared with the intervals.

* `Fraction.fitsInteger_iff_range`: an integer type holds a literal if the value is an integer of
  its interval.
* `integers_convert_iff_subset`: integers convert if one interval lies in the other.
* `narrowest_integer`: the type that a literal takes by itself is as narrow as whole bytes can be.
-/

namespace ContractTyping

open Ty

namespace Ty

variable {bits bits' : Nat} {signed signed' : Bool}

/-- The least integer of a width and signedness. -/
def least (bits : Nat) (signed : Bool) : ℤ := if signed then -2 ^ (bits - 1) else 0

/-- The greatest integer of a width and signedness. -/
def greatest (bits : Nat) (signed : Bool) : ℤ := if signed then 2 ^ (bits - 1) - 1 else 2 ^ bits - 1

/-- The integers of a width and signedness. -/
def range (bits : Nat) (signed : Bool) : Set ℤ :=
  {value | least bits signed ≤ value ∧ value ≤ greatest bits signed}

theorem least_le_greatest (bits : Nat) (signed : Bool) :
    least bits signed ≤ greatest bits signed := by
  have half : (0 : ℤ) < 2 ^ (bits - 1) := pow_pos two_pos _
  have whole : (0 : ℤ) < 2 ^ bits := pow_pos two_pos _
  cases signed <;> simp only [least, greatest, if_true, Bool.false_eq_true, if_false] <;> omega

theorem range_subset_iff : range bits signed ⊆ range bits' signed' ↔
      least bits' signed' ≤ least bits signed ∧ greatest bits signed ≤ greatest bits' signed' := by
  constructor
  · intro inclusion
    have ordered := least_le_greatest bits signed
    have low := inclusion ⟨Int.le_refl _, ordered⟩
    have high := inclusion ⟨ordered, Int.le_refl _⟩
    exact ⟨low.1, high.2⟩
  · rintro ⟨below, above⟩ value ⟨low, high⟩
    exact ⟨Int.le_trans below low, Int.le_trans high above⟩

theorem two_pow_le_iff {m n : Nat} : (2 : ℤ) ^ m ≤ 2 ^ n ↔ m ≤ n :=
  pow_le_pow_iff_right₀ (by decide)

/-- Integers convert if the target reaches at least as far on both sides. -/
theorem integer_converts_iff_subset (positive : 1 ≤ bits) (positive' : 1 ≤ bits') :
    (integer bits signed).implicitlyConvertible (integer bits' signed') = true ↔
      range bits signed ⊆ range bits' signed' := by
  rw [integer_converts_iff, range_subset_iff]
  have half : (0 : ℤ) < 2 ^ (bits - 1) := pow_pos two_pos _
  have half' : (0 : ℤ) < 2 ^ (bits' - 1) := pow_pos two_pos _
  cases signed with
  | false =>
    cases signed' with
    | false =>
      have wider : (2 : ℤ) ^ bits ≤ 2 ^ bits' ↔ bits ≤ bits' := two_pow_le_iff
      simp [least, greatest, wider]
    | true =>
      -- The sign takes one bit of the target.
      have wider : (2 : ℤ) ^ bits ≤ 2 ^ (bits' - 1) ↔ bits < bits' := by
        rw [two_pow_le_iff]
        omega
      simp [least, greatest, wider]
  | true =>
    cases signed' with
    | false =>
      simp only [least, greatest, if_true, Bool.false_eq_true, if_false]
      constructor
      · rintro (⟨opposite, -⟩ | ⟨opposite, -, -⟩)
        · cases opposite
        · cases opposite
      · rintro ⟨below, -⟩
        omega
    | true =>
      have wider : (2 : ℤ) ^ (bits - 1) ≤ 2 ^ (bits' - 1) ↔ bits ≤ bits' := by
        rw [two_pow_le_iff]
        omega
      simp [least, greatest, wider]

end Ty

/-! ## Literals -/

namespace Fraction

variable {x : Fraction} {bits width : Nat} {signed : Bool}

variable (lowest : x.LowestTerms)

include lowest

/-- The bits of the payload bound the numerator on both sides: a negative one from below, where a
power of two is still reached, and another one from above, where it is not. -/
theorem payload_bits_le_iff :
    x.payload.bits ≤ bits ↔ -2 ^ bits ≤ x.numerator.value ∧ x.numerator.value < 2 ^ bits := by
  have magnitude : x.numerator.magnitude.Trimmed := lowest.1.1
  have power : (2 : ℤ) ^ bits = ((2 ^ bits : Nat) : ℤ) := by push_cast; rfl
  have positive : 0 < 2 ^ bits := Nat.two_pow_pos bits
  unfold payload isNegative Integer.value
  cases sign : x.numerator.negative with
  | false =>
    simp only [Bool.false_eq_true, if_false]
    rw [Natural.bits_eq magnitude, Nat.size_le]
    omega
  | true =>
    have nonzero := lowest.1.magnitude_ne_zero sign
    have one : Natural.one.value ≤ x.numerator.magnitude.value := by
      rw [Natural.value_one]
      omega
    simp only [if_true]
    rw [Natural.bits_eq (Natural.trimmed_sub _ _), Natural.value_sub one, Natural.value_one,
      size_pred_le_iff nonzero]
    omega

/-- An integer type holds a literal if the value of the literal is an integer of its interval. -/
theorem fitsInteger_iff_range (positive : 0 < bits) :
    x.fitsInteger bits signed = true ↔ ∃ z ∈ range bits signed, x.value = z := by
  rw [fitsInteger_iff lowest positive, isInteger_iff lowest, isNegative_iff lowest]
  have bounds : ((x.numerator.value < 0 → signed = true) ∧ x.payload.bits + signed.toNat ≤ bits) ↔
      x.numerator.value ∈ range bits signed := by
    cases signed with
    | false =>
      have room : x.payload.bits + false.toNat ≤ bits ↔ x.payload.bits ≤ bits := Iff.rfl
      have power : (0 : ℤ) < 2 ^ bits := pow_pos two_pos _
      rw [room, payload_bits_le_iff lowest]
      simp only [range, least, greatest, Set.mem_ofPred_eq, Bool.false_eq_true, if_false, imp_false]
      omega
    | true =>
      have room : x.payload.bits + true.toNat ≤ bits ↔ x.payload.bits ≤ bits - 1 := by
        rw [Bool.toNat_true]
        omega
      rw [room, payload_bits_le_iff lowest]
      simp only [range, least, greatest, Set.mem_ofPred_eq, if_true, implies_true, true_and]
      omega
  rw [bounds]
  constructor
  · rintro ⟨⟨z, equal⟩, inside⟩
    rw [numerator_value_of_eq lowest equal] at inside
    exact ⟨z, inside, equal⟩
  · rintro ⟨z, inside, equal⟩
    rw [numerator_value_of_eq lowest equal]
    exact ⟨⟨z, equal⟩, inside⟩

/-! ## The narrowest type -/

omit lowest in
theorem eight_le_roundedWidth (bits : Nat) : 8 ≤ roundedWidth bits :=
  Nat.le_of_dvd (roundedWidth_pos bits) (dvd_roundedWidth bits)

/-- What fits a type of at most 256 bits has a narrowest type. -/
theorem smallestInteger?_ne_none (positive : 0 < bits) (atMost : bits ≤ 256)
    (fits : x.fitsInteger bits signed = true) : x.smallestInteger? ≠ none := by
  obtain ⟨integer, sign, room⟩ := (fitsInteger_iff lowest positive).mp fits
  have needed : x.payload.bits + x.isNegative.toNat ≤ 256 := by
    have below : x.isNegative.toNat ≤ signed.toNat := Bool.toNat_le_toNat sign
    omega
  have rounded := roundedWidth_le needed (by decide) (by decide)
  rw [smallestInteger?_eq_some_iff.mpr ⟨integer, rfl, rfl, rounded⟩]
  exact Option.some_ne_none _

/-- A literal has no narrowest type if it is no integer or too large for every type. -/
theorem smallestInteger?_eq_none_iff : x.smallestInteger? = none ↔ (¬ ∃ z : ℤ, x.value = z) ∨
      ∀ bits signed, 8 ∣ bits → 0 < bits → bits ≤ 256 → x.fitsInteger bits signed = false := by
  constructor
  · intro missing
    refine .inr fun bits signed _ positive atMost => ?_
    exact Bool.eq_false_iff.mpr fun fits =>
      smallestInteger?_ne_none lowest positive atMost fits missing
  · intro refused
    by_contra given
    obtain ⟨⟨width, signed⟩, found⟩ := Option.ne_none_iff_exists'.mp given
    obtain ⟨integer, -, rounded, atMost⟩ := smallestInteger?_eq_some_iff.mp found
    rcases refused with fractional | tooLarge
    · exact fractional ((isInteger_iff lowest).mp integer)
    · have fits := fitsInteger_of_smallestInteger? lowest found
      have whole : 8 ∣ width := rounded ▸ dvd_roundedWidth _
      have positive : 0 < width := rounded ▸ roundedWidth_pos _
      rw [tooLarge width signed whole positive atMost] at fits
      cases fits

end Fraction

/-- **Conversions are inclusions.** An integer type converts to another one precisely if every
integer of the first is one of the second. A number literal converts to an integer type precisely if
its value is an integer of that type. -/
theorem integers_convert_iff_subset {bits bits' : Nat} (positive : 1 ≤ bits) (positive' : 1 ≤ bits')
    (signed signed' : Bool) :
    ((Ty.integer bits signed).implicitlyConvertible (.integer bits' signed') = true ↔
      Ty.range bits signed ⊆ Ty.range bits' signed') ∧
    ∀ (x : Fraction) (byteWidth : Option Nat), x.LowestTerms →
      ((Ty.number x byteWidth).implicitlyConvertible (.integer bits signed) = true ↔
        ∃ z ∈ Ty.range bits signed, x.value = z) := by
  refine ⟨Ty.integer_converts_iff_subset positive positive', fun x byteWidth lowest => ?_⟩
  rw [Ty.number_converts_integer_iff, Fraction.fitsInteger_iff_range lowest positive]

/-- Bytes with and without a sign, and the least value with a sign. -/
theorem integers_convert_iff_subset_byte :
    ¬ Ty.range 8 false ⊆ Ty.range 8 true ∧ Ty.range 8 false ⊆ Ty.range 9 true ∧
      ∃ z ∈ Ty.range 8 true, (⟨⟨true, ⟨[128]⟩⟩, ⟨[1]⟩⟩ : Fraction).value = z := by
  have lowest : (⟨⟨true, ⟨[128]⟩⟩, ⟨[1]⟩⟩ : Fraction).LowestTerms := by decide
  obtain ⟨same, -⟩ := @integers_convert_iff_subset 8 8 (by decide) (by decide) false true
  obtain ⟨wider, -⟩ := @integers_convert_iff_subset 8 9 (by decide) (by decide) false true
  obtain ⟨-, literal⟩ := @integers_convert_iff_subset 8 8 (by decide) (by decide) true true
  refine ⟨fun inside => ?_, wider.mp (by decide +kernel),
    (literal _ none lowest).mp (by decide +kernel)⟩
  exact absurd (same.mpr inside) (by decide +kernel)

/-- **The narrowest type.** The type that a literal takes by itself has between one and 32 whole
bytes, it is signed precisely if the value is negative, it holds the value, and no type of whole
bytes that holds the value is narrower, with a sign or without. There is none precisely if the value
is not an integer or no type of at most 256 bits holds it; then not even a width between whole bytes
would do. -/
theorem narrowest_integer {x : Fraction} (lowest : x.LowestTerms) :
    (∀ width signed, x.smallestInteger? = some (width, signed) →
      (8 ∣ width ∧ 8 ≤ width ∧ width ≤ 256) ∧ (signed = true ↔ x.value < 0) ∧
        x.fitsInteger width signed = true ∧
        ∀ other sign, 8 ∣ other → 0 < other → x.fitsInteger other sign = true → width ≤ other) ∧
    (x.smallestInteger? = none ↔ (¬ ∃ z : ℤ, x.value = z) ∨
      ∀ width signed, 8 ∣ width → 0 < width → width ≤ 256 → x.fitsInteger width signed = false) ∧
    (x.smallestInteger? = none →
      ∀ width signed, 0 < width → width ≤ 256 → x.fitsInteger width signed = false) := by
  refine ⟨fun width signed found => ?_, Fraction.smallestInteger?_eq_none_iff lowest, ?_⟩
  · obtain ⟨-, sign, rounded, atMost⟩ := Fraction.smallestInteger?_eq_some_iff.mp found
    refine ⟨⟨?_, ?_, atMost⟩, ?_, Fraction.fitsInteger_of_smallestInteger? lowest found, ?_⟩
    · exact rounded ▸ Fraction.dvd_roundedWidth _
    · exact rounded ▸ Fraction.eight_le_roundedWidth _
    · rw [sign, Fraction.isNegative_iff_value_neg lowest]
    · intro other sign' multiple positive fits
      exact Fraction.le_of_fitsInteger lowest found fits multiple positive
  · intro missing width signed positive atMost
    exact Bool.eq_false_iff.mpr fun fits =>
      Fraction.smallestInteger?_ne_none lowest positive atMost fits missing

/-- One below the least value of two signed bytes takes a third byte. -/
theorem narrowest_integer_third_byte :
    let x : Fraction := ⟨⟨true, ⟨[32769]⟩⟩, ⟨[1]⟩⟩
    x.LowestTerms ∧ x.smallestInteger? = some (24, true) ∧ x.value < 0 ∧
      ∀ other sign, 8 ∣ other → 0 < other → x.fitsInteger other sign = true → 24 ≤ other := by
  intro x
  have lowest : x.LowestTerms := by decide
  have found : x.smallestInteger? = some (24, true) := by decide +kernel
  obtain ⟨-, sign, -, least⟩ := (narrowest_integer lowest).1 24 true found
  exact ⟨lowest, found, sign.mp rfl, least⟩

end ContractTyping
