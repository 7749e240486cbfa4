import ContractTyping.Proofs.Exact.Division

/-!
# Restoring division

Division by hand goes through the bits of the dividend from the top. It shifts each of them into a
remainder, and where the divisor can be taken away it does so and sets a bit of the quotient in
place (`restoringDivision`). The numbers are not put into normal form on the way, and they do not
need to be: a bit is only ever set in a number that keeps its top limb or gets a new one.

* `restoringDivision_eq_divmod`: the result is the one that `divmod` finds.
-/

namespace ContractTyping

open Nat

namespace Natural

variable {a b : Natural} {index : Nat}
variable (n : Nat) (mask : UInt32) (position : Nat) (limbs : List UInt32) (r : Natural) (bit : Bool)
  {found : Natural × Natural}

/-! ## Setting a bit -/

/-- Sets the bits of a mask in the limb at a position. A list that is too short grows by zeros. -/
def setLimb (mask : UInt32) : Nat → List UInt32 → List UInt32
  | 0, [] => [mask]
  | 0, limb :: rest => (limb ||| mask) :: rest
  | position + 1, limbs => limbs.headD 0 :: setLimb mask position limbs.tail

/-- Sets the bit at an index. -/
def setBit (n : Natural) (index : Nat) : Natural :=
  ⟨setLimb (1 <<< (index % 32).toUInt32) (index / 32) n.limbs⟩

/-- A limb below a number takes bits that the number does not have. -/
theorem limb_add_eq_or (limb : UInt32) (high : Nat) :
    limb.toNat + 2 ^ 32 * high = 2 ^ 32 * high ||| limb.toNat := by
  rw [add_comm, two_pow_add_eq_or_of_lt limb.toNat_lt]

theorem two_pow_mul_or (a b : Nat) : 2 ^ n * (a ||| b) = 2 ^ n * a ||| 2 ^ n * b := by
  simp only [mul_comm (2 ^ n), ← shiftLeft_eq, shiftLeft_or_distrib]

theorem limbsValue_setLimb :
    limbsValue (setLimb mask position limbs) = limbsValue limbs ||| 2 ^
      (32 * position) * mask.toNat := by
  fun_induction setLimb mask position limbs with
  | case1 => simp
  | case2 limb rest =>
    rw [limbsValue_cons, limbsValue_cons, limb_add_eq_or, limb_add_eq_or, UInt32.toNat_or,
      Nat.or_assoc, mul_zero, pow_zero, one_mul]
  | case3 position limbs ih =>
    have shifted :
        2 ^ (32 * (position + 1)) * mask.toNat = 2 ^ 32 * (2 ^ (32 * position) * mask.toNat) := by
      rw [mul_succ, add_comm, pow_add, mul_assoc]
    rw [limbsValue_cons, limbsValue_head_tail limbs, ih, shifted, limb_add_eq_or, limb_add_eq_or,
      two_pow_mul_or, Nat.or_assoc, Nat.or_assoc, Nat.or_comm (limbs.headD 0).toNat]

theorem toNat_mask (index : Nat) :
    ((1 : UInt32) <<< (index % 32).toUInt32).toNat = 2 ^ (index % 32) := by
  have low : index % 32 < 32 := mod_lt _ (by decide)
  have word : (index % 32).toUInt32.toNat = index % 32 := mod_eq_of_lt (low.trans (by decide))
  have small : 2 ^ (index % 32) < 2 ^ 32 := Nat.pow_lt_pow_right (by decide) low
  rw [UInt32.toNat_shiftLeft, word, mod_mod, shiftLeft_eq, UInt32.toNat_one, one_mul,
    mod_eq_of_lt small]

@[simp]
theorem value_setBit (n : Natural) (index : Nat) :
    (n.setBit index).value = n.value ||| 2 ^ index := by
  have parts : 2 ^ index = 2 ^ (32 * (index / 32)) * 2 ^ (index % 32) := by
    rw [← pow_add, div_add_mod]
  rw [setBit, value, limbsValue_setLimb, toNat_mask, ← parts, value]

theorem setLimb_ne_nil : setLimb mask position limbs ≠ [] := by
  fun_cases setLimb mask position limbs <;> exact List.cons_ne_nil _ _

/-- The limb that gets a bit is not zero, and if it is not the last one then that stays as it is. -/
theorem getLast?_setLimb {mask : UInt32} (nonzero : mask ≠ 0) (position : Nat) (limbs : List UInt32)
    (trimmed : limbs.getLast? ≠ some 0) : (setLimb mask position limbs).getLast? ≠ some 0 := by
  fun_induction setLimb mask position limbs with
  | case1 => simpa using nonzero
  | case2 limb rest =>
    cases rest with
    | nil =>
      have combined : limb ||| mask ≠ 0 := by
        intro zero
        exact nonzero (UInt32.or_eq_zero_iff.mp zero).2
      simpa using combined
    | cons next others => rwa [List.getLast?_cons_cons] at trimmed ⊢
  | case3 position limbs ih =>
    obtain ⟨first, others, equal⟩ :=
      List.exists_cons_of_ne_nil (setLimb_ne_nil mask position limbs.tail)
    rw [equal, List.getLast?_cons_cons, ← equal]
    cases limbs with
    | nil => exact ih trimmed
    | cons limb rest => exact ih (getLast?_tail trimmed)

theorem trimmed_setBit {n : Natural} (trimmed : n.Trimmed) (index : Nat) :
    (n.setBit index).Trimmed := by
  refine getLast?_setLimb (fun zero => ?_) _ _ trimmed
  have mask := toNat_mask index
  rw [zero] at mask
  exact absurd mask (Nat.two_pow_pos _).ne

/-! ## Restoring division -/

/-- Takes the bit at an index into quotient and remainder. -/
def restoreStep (a b : Natural) (index : Nat) (found : Natural × Natural) : Natural × Natural :=
  let shifted := found.2.shl 1
  let remainder := if a.bit index then shifted.setBit 0 else shifted
  if remainder.cmp b = .lt then (found.1, remainder) else (found.1.setBit index, remainder.sub b)

/-- Takes the bits below an index, from the top down. -/
def restoreFrom (a b : Natural) : Nat → Natural × Natural → Natural × Natural
  | 0, found => found
  | index + 1, found => restoreFrom a b index (restoreStep a b index found)

/-- Division bit by bit. -/
def restoringDivision (a b : Natural) : Natural × Natural :=
  if a.cmp b = .lt then (zero, a)
  else
    let found := restoreFrom a b a.bits (zero, zero)
    (ofLimbs found.1.limbs, found.2)

/-- Quotient and remainder when the bits from an index up have been taken: the quotient has no bits
below the index, and what it has belongs to the part of the dividend that has been seen. -/
structure Restores (a b index : Nat) (found : Natural × Natural) : Prop where
  quotient : found.1.Trimmed
  remainder : found.2.Trimmed
  aligned : 2 ^ index ∣ found.1.value
  exact : a / 2 ^ index = found.1.value / 2 ^ index * b + found.2.value
  below : found.2.value < b

/-- The part of a number from an index up, by the part above and the bit at the index. -/
theorem div_two_pow_eq (index : Nat) :
    n / 2 ^ index = 2 * (n / 2 ^ (index + 1)) + (n.testBit index).toNat := by
  rw [Nat.toNat_testBit, Nat.pow_succ, ← Nat.div_div_eq_div_mul]
  omega

/-- The remainder with the next bit shifted in. -/
theorem value_shifted :
    (if bit then (r.shl 1).setBit 0 else r.shl 1).value = 2 * r.value + bit.toNat := by
  cases bit with
  | false => simp [mul_comm]
  | true =>
    have even : r.value * 2 ||| 1 = 2 ^ 1 * r.value + 1 := by
      rw [two_pow_add_eq_or_of_lt (by decide), pow_one, mul_comm]
    simpa using even

theorem trimmed_shifted : (if bit then (r.shl 1).setBit 0 else r.shl 1).Trimmed := by
  split
  · exact trimmed_setBit (trimmed_shl r 1) 0
  · exact trimmed_shl r 1

/-- A bit below all bits of a number is added to it. -/
theorem or_two_pow {n : Nat} (aligned : 2 ^ (index + 1) ∣ n) : n ||| 2 ^ index = n + 2 ^ index := by
  obtain ⟨k, rfl⟩ := aligned
  rw [Nat.two_pow_add_eq_or_of_lt (Nat.pow_lt_pow_succ (by decide))]

theorem restores_restoreStep (trimmed : b.Trimmed)
    (restores : Restores a.value b.value (index + 1) found) :
    Restores a.value b.value index (restoreStep a b index found) := by
  obtain ⟨quotient, remainder⟩ := found
  obtain ⟨normal, -, aligned, exact, below⟩ := restores
  dsimp only at normal aligned exact below
  have place : 0 < 2 ^ index := Nat.two_pow_pos index
  -- The bits taken so far are the quotient by the next higher power of two.
  obtain ⟨taken, equal⟩ := aligned
  have double : quotient.value = 2 ^ index * (2 * taken) := by
    rw [equal, Nat.pow_succ, Nat.mul_assoc]
  rw [equal, Nat.mul_div_cancel_left _ (Nat.two_pow_pos _)] at exact
  have bitBelow : (a.value.testBit index).toNat ≤ 1 := Bool.toNat_le _
  have seen := div_two_pow_eq a.value index
  unfold restoreStep
  dsimp only
  rw [bit_eq]
  have shifted := value_shifted remainder (a.value.testBit index)
  have shiftedTrimmed := trimmed_shifted remainder (a.value.testBit index)
  generalize (if a.value.testBit index = true then (remainder.shl 1).setBit 0
    else remainder.shl 1) = next at *
  split
  · next less =>
    rw [cmp_eq_lt_iff shiftedTrimmed trimmed] at less
    exact {
      quotient := normal
      remainder := shiftedTrimmed
      aligned := ⟨_, double⟩
      exact := by
        rw [double, Nat.mul_div_cancel_left _ place, seen, shifted, exact]
        ring
      below := less }
  · next notLess =>
    rw [cmp_eq_lt_iff shiftedTrimmed trimmed, Nat.not_lt] at notLess
    have left := value_sub notLess
    have odd : (quotient.setBit index).value = 2 ^ index * (2 * taken + 1) := by
      rw [value_setBit, or_two_pow ⟨taken, equal⟩, double]
      ring
    exact {
      quotient := trimmed_setBit normal index
      remainder := trimmed_sub _ _
      aligned := ⟨_, odd⟩
      exact := by
        rw [odd, Nat.mul_div_cancel_left _ place, left, Nat.add_mul, Nat.one_mul, Nat.add_assoc,
          Nat.add_sub_cancel' notLess, seen, shifted, exact]
        ring
      below := by
        rw [left]
        omega }

theorem restores_restoreFrom (trimmed : b.Trimmed)
    (restores : Restores a.value b.value index found) :
    Restores a.value b.value 0 (restoreFrom a b index found) := by
  induction index generalizing found with
  | zero => exact restores
  | succ index ih => exact ih (restores_restoreStep trimmed restores)

/-- Before the first bit is taken. -/
theorem restores_start (trimmed : a.Trimmed) (positive : b.value ≠ 0) :
    Restores a.value b.value a.bits (zero, zero) where
  quotient := trimmed_zero
  remainder := trimmed_zero
  aligned := dvd_zero _
  exact := by
    rw [bits_eq trimmed, div_eq_of_lt (lt_size_self _)]
    simp
  below := pos_of_ne_zero positive

theorem restoringDivision_divides (trimmed : a.Trimmed) (trimmed' : b.Trimmed)
    (positive : b.value ≠ 0) : Divides a.value b.value (restoringDivision a b) := by
  unfold restoringDivision
  split
  · next less =>
    rw [cmp_eq_lt_iff trimmed trimmed'] at less
    exact {
      quotient := trimmed_zero
      remainder := trimmed
      exact := by simp
      below := less }
  · have restores := restores_restoreFrom trimmed' (restores_start trimmed positive)
    have exact := restores.exact
    rw [Nat.pow_zero, Nat.div_one, Nat.div_one] at exact
    exact {
      quotient := trimmed_ofLimbs _
      remainder := restores.remainder
      exact := by
        rw [value_ofLimbs]
        exact exact
      below := restores.below }

/-- Quotient and remainder in normal form are unique. -/
theorem Divides.unique {a b : Nat} {result other : Natural × Natural} (divides : Divides a b result)
    (divides' : Divides a b other) : result = other := by
  refine Prod.ext ?_ ?_
  · exact value_injective divides.quotient divides'.quotient
      (divides.value_quotient.trans divides'.value_quotient.symm)
  · exact value_injective divides.remainder divides'.remainder
      (divides.value_remainder.trans divides'.value_remainder.symm)

theorem restoringDivision_eq_divmod (trimmed : a.Trimmed) (trimmed' : b.Trimmed)
    (positive : b.value ≠ 0) : restoringDivision a b = a.divmod b :=
  (restoringDivision_divides trimmed trimmed' positive).unique
    (divmod_divides trimmed trimmed' positive)

/-- **Division and greatest common divisor.** For numbers in normal form, division by one that is
not zero gives quotient and remainder, in normal form, and the remainder is below the divisor; it is
what division bit by bit ends with, where quotient and remainder are written in place. The Euclidean
loop ends for all numbers, with the greatest common divisor in normal form; of a number and zero
this is the number itself. -/
theorem division_exact {a b : Natural} (trimmed : a.Trimmed) (trimmed' : b.Trimmed) :
    (b.value ≠ 0 → Divides a.value b.value (a.divmod b) ∧ restoringDivision a b = a.divmod b) ∧
      Euclid a b (a.gcd b) ∧ (a.gcd b).Denotes (Nat.gcd a.value b.value) ∧ a.gcd zero = a := by
  refine ⟨fun positive => ?_, euclid_gcd trimmed trimmed',
    ⟨trimmed_gcd trimmed trimmed', value_gcd trimmed trimmed'⟩, ?_⟩
  · exact ⟨divmod_divides trimmed trimmed' positive,
      restoringDivision_eq_divmod trimmed trimmed' positive⟩
  · refine value_injective (trimmed_gcd trimmed trimmed_zero) trimmed ?_
    rw [value_gcd trimmed trimmed_zero, value_zero, Nat.gcd_zero_right]

/-- A divisor of two limbs, the lower of which is zero. -/
theorem division_exact_two_limbs :
    let a : Natural := ⟨[7, 0, 9]⟩
    let b : Natural := ⟨[0, 6]⟩
    a.Trimmed ∧ b.Trimmed ∧ b.value ≠ 0 ∧ a.divmod b = (⟨[0x80000000, 1]⟩, ⟨[7]⟩) ∧
      restoringDivision a b = a.divmod b ∧
      (a.gcd b).Denotes (Nat.gcd (7 + 2 ^ 64 * 9) (2 ^ 32 * 6)) := by
  intro a b
  have trimmed : a.Trimmed := by decide
  have trimmed' : b.Trimmed := by decide
  have positive : b.value ≠ 0 := by decide
  obtain ⟨division, -, divisor, -⟩ := division_exact trimmed trimmed'
  exact ⟨trimmed, trimmed', positive, by decide +kernel, (division positive).2, divisor⟩

end Natural

end ContractTyping
