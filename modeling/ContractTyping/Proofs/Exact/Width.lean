import ContractTyping.Proofs.Exact.Fraction

/-!
# Widths of integer types

Whether an integer type holds the value of a literal depends on the number of bits that are left
when the sign is set aside. A negative value is one below the negation of its complement, so it
needs the bits of a magnitude that is smaller by one; that is why a signed type reaches one further
down than up.

* `fitsInteger_iff`: an integer type holds a value if it has room for these bits and, if signed, for
  the sign.
* `le_of_fitsInteger`: no type of whole bytes that holds it is narrower than the narrowest one.
-/

namespace ContractTyping

namespace Fraction

variable {x : Fraction} {bits width : Nat} {signed : Bool}

/-- The magnitude of the value or, if it is negative, of its bitwise complement. -/
def payload (x : Fraction) : Natural :=
  if x.isNegative then x.numerator.magnitude.sub .one else x.numerator.magnitude

/-! ## Values that fit -/

/-- The largest magnitude of a negative value is a power of two. The next below has one bit less. -/
theorem size_pred_le_iff {n bits : Nat} (positive : n ≠ 0) :
    (n - 1).size ≤ bits ↔ n ≤ 2 ^ bits := by
  rw [Nat.size_le]
  omega

/-- A magnitude is at most a power of two if the one below has no more bits than the exponent. -/
theorem cmp_shl_one_iff {n : Natural} (trimmed : n.Trimmed) (positive : n.value ≠ 0) :
    (n.cmp (Natural.one.shl bits) != .gt) = true ↔ (n.sub .one).bits ≤ bits := by
  have one : Natural.one.value ≤ n.value := by
    rw [Natural.value_one]
    omega
  rw [bne_iff_ne, Natural.cmp_eq trimmed (Natural.trimmed_shl _ _), compare_le_iff_le,
    Natural.value_shl,
    Natural.value_one, one_mul, Natural.bits_eq (Natural.trimmed_sub _ _), Natural.value_sub one,
    Natural.value_one, size_pred_le_iff positive]

/-- An integer type holds an integer if it has room for the payload and, if it is signed, for the
sign. Only signed types hold negative values. -/
theorem fitsInteger_iff (lowest : x.LowestTerms) (positive : 0 < bits) :
    x.fitsInteger bits signed = true ↔
      x.isInteger = true ∧ (x.isNegative = true → signed = true) ∧
        x.payload.bits + signed.toNat ≤ bits := by
  rw [fitsInteger, Bool.and_eq_true]
  refine and_congr_right fun _ => ?_
  cases signed with
  | false => cases sign : x.isNegative <;> simp [payload, sign]
  | true =>
    cases sign : x.isNegative with
    | false =>
      simp only [payload, sign, if_true, Bool.false_eq_true, if_false, decide_eq_true_eq,
        false_implies, true_and, Bool.toNat_true]
      exact Nat.lt_iff_add_one_le
    | true =>
      -- Here alone the bound is on the magnitude, which may reach the power of two.
      have nonzero := lowest.1.magnitude_ne_zero sign
      simp only [if_true, payload, sign, cmp_shl_one_iff lowest.1.1 nonzero]
      simp
      omega

/-! ## The narrowest type -/

theorem le_roundedWidth (bits : Nat) : bits ≤ roundedWidth bits := by
  unfold roundedWidth
  omega

theorem roundedWidth_pos (bits : Nat) : 0 < roundedWidth bits := by
  unfold roundedWidth
  omega

theorem dvd_roundedWidth (bits : Nat) : 8 ∣ roundedWidth bits := Nat.dvd_mul_left 8 _

/-- A width is not rounded beyond the next multiple of eight. -/
theorem roundedWidth_le (needed : bits ≤ width) (multiple : 8 ∣ width) (positive : 0 < width) :
    roundedWidth bits ≤ width := by
  unfold roundedWidth
  omega

/-- The narrowest type has the sign of the value and whole bytes for the payload and the sign. -/
theorem smallestInteger?_eq_some_iff : x.smallestInteger? = some (width, signed) ↔
      x.isInteger = true ∧ signed = x.isNegative ∧
        width = roundedWidth (x.payload.bits + x.isNegative.toNat) ∧ width ≤ 256 := by
  have rounded : (if x.isNegative then roundedWidth ((x.numerator.magnitude.sub .one).bits + 1)
      else roundedWidth x.numerator.magnitude.bits) = roundedWidth
      (x.payload.bits + x.isNegative.toNat) := by
    unfold payload
    cases x.isNegative <;> rfl
  unfold smallestInteger?
  dsimp only
  rw [rounded]
  cases x.isInteger with
  | false => simp
  | true =>
    simp only [Bool.not_true, Bool.false_eq_true, if_false, Option.ite_none_right_eq_some,
      Option.some.injEq, Prod.mk.injEq, true_and]
    constructor
    · rintro ⟨fits, rfl, rfl⟩
      exact ⟨rfl, rfl, fits⟩
    · rintro ⟨rfl, rfl, fits⟩
      exact ⟨fits, rfl, rfl⟩

variable (lowest : x.LowestTerms)

include lowest

theorem fitsInteger_of_smallestInteger?
    (found : x.smallestInteger? = some (width, signed)) : x.fitsInteger width signed = true := by
  obtain ⟨integer, rfl, rfl, -⟩ := smallestInteger?_eq_some_iff.mp found
  exact (fitsInteger_iff lowest (roundedWidth_pos _)).mpr ⟨integer, id, le_roundedWidth _⟩

/-- No type of whole bytes that holds a value is narrower than the narrowest one, of any sign. -/
theorem le_of_fitsInteger (found : x.smallestInteger? = some (width, signed))
    {other : Bool} (fits : x.fitsInteger bits other = true) (multiple : 8 ∣ bits)
    (positive : 0 < bits) : width ≤ bits := by
  obtain ⟨-, -, rfl, -⟩ := smallestInteger?_eq_some_iff.mp found
  obtain ⟨-, sign, room⟩ := (fitsInteger_iff lowest positive).mp fits
  refine roundedWidth_le ?_ multiple positive
  have below : x.isNegative.toNat ≤ other.toNat := Bool.toNat_le_toNat sign
  omega

/-- Two values that each fit the narrowest type of the other have the same narrowest type. -/
theorem smallestInteger?_eq_of_fitsInteger {y : Fraction} (lowest' : y.LowestTerms)
    {width' : Nat} {signed' : Bool} (found : x.smallestInteger? = some (width, signed))
    (found' : y.smallestInteger? = some (width', signed'))
    (fits : x.fitsInteger width' signed' = true)
    (fits' : y.fitsInteger width signed = true) : width = width' ∧ signed = signed' := by
  have le := le_of_fitsInteger lowest found fits
  have ge := le_of_fitsInteger lowest' found' fits'
  obtain ⟨-, rfl, rfl, -⟩ := smallestInteger?_eq_some_iff.mp found
  obtain ⟨-, rfl, rfl, -⟩ := smallestInteger?_eq_some_iff.mp found'
  refine ⟨Nat.le_antisymm ?_ ?_, ?_⟩
  · exact le (dvd_roundedWidth _) (roundedWidth_pos _)
  · exact ge (dvd_roundedWidth _) (roundedWidth_pos _)
  · obtain ⟨-, sign, -⟩ := (fitsInteger_iff lowest (roundedWidth_pos _)).mp fits
    obtain ⟨-, sign', -⟩ := (fitsInteger_iff lowest' (roundedWidth_pos _)).mp fits'
    exact Bool.eq_iff_iff.mpr ⟨sign, sign'⟩

end Fraction

end ContractTyping
