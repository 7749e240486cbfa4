import ContractTyping.Proofs.Exact.Natural

/-!
# Division and greatest common divisor of limb numbers

* `divmod_divides`: long division gives quotient and remainder of the numbers denoted.
* `Euclid`: the Euclidean loop with no bound on its rounds. It ends for all numbers in normal form,
  and `gcd` is what it ends with (`euclid_gcd`).
-/

namespace ContractTyping

open Nat

namespace Natural

variable {a b : Natural}

/-! ## Long division -/

/-- A quotient and a remainder in normal form that belong to a dividend and a divisor. -/
structure Divides (a b : Nat) (result : Natural × Natural) : Prop where
  quotient : result.1.Trimmed
  remainder : result.2.Trimmed
  exact : a = result.1.value * b + result.2.value
  below : result.2.value < b

namespace Divides

variable {a b : Nat} {result : Natural × Natural}

theorem value_quotient (divides : Divides a b result) : result.1.value = a / b := by
  have positive : 0 < b := lt_of_le_of_lt (zero_le _) divides.below
  rw [divides.exact, add_comm, add_mul_div_right _ _ positive, div_eq_of_lt divides.below, zero_add]

theorem value_remainder (divides : Divides a b result) : result.2.value = a % b := by
  rw [divides.exact, add_comm, add_mul_mod_self_right, mod_eq_of_lt divides.below]

end Divides

/-- Bit by bit: the induction is on the bits of the quotient, with the divisor doubled each time. -/
theorem divideSteps_divides (trimmed : a.Trimmed) (steps : Nat) (trimmed' : b.Trimmed)
    (below : a.value < b.value * 2 ^ steps) :
    Divides a.value b.value (divideSteps a steps b) := by
  -- The steps before the last one divide by twice as much and leave a remainder below that.
  induction steps generalizing b with
  | zero =>
    rw [Nat.pow_zero, Nat.mul_one] at below
    exact {
      quotient := trimmed_zero
      remainder := trimmed
      exact := by simp [divideSteps]
      below := below }
  | succ steps ih =>
    have doubled : (b.shl 1).value = b.value * 2 := by simp
    have high := ih (trimmed_shl b 1) (by rw [doubled, Nat.mul_assoc, ← Nat.pow_succ']; exact below)
    rw [divideSteps]
    generalize divideSteps a steps (b.shl 1) = found at high
    obtain ⟨quotient, remainder⟩ := found
    have exact := high.exact
    have inDouble := high.below
    rw [doubled] at exact inDouble
    dsimp only at exact inDouble ⊢
    split
    · next less =>
      rw [cmp_eq_lt_iff high.remainder trimmed'] at less
      exact {
        quotient := trimmed_shl _ _
        remainder := high.remainder
        exact := by
          rw [value_shl, exact]
          ring
        below := less }
    · next notLess =>
      rw [cmp_eq_lt_iff high.remainder trimmed', Nat.not_lt] at notLess
      have left := value_sub notLess
      exact {
        quotient := trimmed_add _ _
        remainder := trimmed_sub _ _
        exact := by
          rw [value_add, value_shl, value_one, left, Nat.add_mul, Nat.one_mul, Nat.add_assoc,
            Nat.add_sub_cancel' notLess, exact]
          ring
        below := by
          rw [left]
          exact Nat.sub_lt_left_of_lt_add notLess (by rwa [← Nat.mul_two]) }

theorem divideLimb_exact {divisor : UInt64} (positive : 0 < divisor.toNat)
    (small : divisor.toNat < 2 ^ 32) (limbs : List UInt32) :
    limbsValue limbs = limbsValue (divideLimb divisor limbs).1 * divisor.toNat +
      (divideLimb divisor limbs).2.toNat ∧ (divideLimb divisor limbs).2.toNat < divisor.toNat := by
  induction limbs with
  | nil => simpa [divideLimb] using positive
  | cons limb rest ih =>
    obtain ⟨exact, below⟩ := ih
    have limbSmall := limb.toNat_lt
    rw [divideLimb]
    generalize divideLimb divisor rest = high at exact below
    obtain ⟨quotient, remainder⟩ := high
    dsimp only at exact below ⊢
    -- What the limbs above leave is below the divisor, so the next digit of the quotient is a limb.
    have bound : remainder.toNat * 2 ^ 32 + limb.toNat < divisor.toNat * 2 ^ 32 := by omega
    have wide :
      (remainder <<< 32 ||| limb.toUInt64).toNat = remainder.toNat * 2 ^ 32 + limb.toNat :=
      toNat_high_or_low (by omega) limb
    have digit : ((remainder <<< 32 ||| limb.toUInt64) / divisor).toNat < 2 ^ 32 := by
      rw [UInt64.toNat_div, wide]
      exact Nat.div_lt_of_lt_mul bound
    rw [limbsValue_cons, limbsValue_cons, toNat_low digit, UInt64.toNat_div, UInt64.toNat_mod,
      wide, exact]
    refine ⟨?_, mod_lt _ positive⟩
    have parts := div_add_mod (remainder.toNat * 2 ^ 32 + limb.toNat) divisor.toNat
    calc
      _ = 2 ^
        32 * (limbsValue quotient * divisor.toNat) + (remainder.toNat * 2 ^ 32 + limb.toNat) := by
        ring
      _ = 2 ^ 32 * (limbsValue quotient * divisor.toNat) +
          (divisor.toNat * ((remainder.toNat * 2 ^ 32 + limb.toNat) / divisor.toNat) +
            (remainder.toNat * 2 ^ 32 + limb.toNat) % divisor.toNat) := by
        rw [parts]
      _ = _ := by ring

/-- The bits of the quotient that long division looks for are enough. -/
theorem lt_mul_two_pow {a b : Nat} (positive : b ≠ 0) : a < b * 2 ^ (a.size + 1 - b.size) := by
  have top : 2 ^ (b.size - 1) ≤ b := by
    have : 0 < b.size := size_pos.mpr (pos_of_ne_zero positive)
    exact lt_size.mp (by omega)
  calc
    a < 2 ^ a.size := lt_size_self a
    _ ≤ 2 ^ (b.size - 1 + (a.size + 1 - b.size)) := Nat.pow_le_pow_right (by decide) (by omega)
    _ = 2 ^ (b.size - 1) * 2 ^ (a.size + 1 - b.size) := pow_add _ _ _
    _ ≤ b * 2 ^ (a.size + 1 - b.size) := mul_le_mul_right _ top

theorem divmod_divides (trimmed : a.Trimmed) (trimmed' : b.Trimmed) (positive : b.value ≠ 0) :
    Divides a.value b.value (a.divmod b) := by
  unfold divmod
  split
  · next divisor single =>
    have denoted : b.value = divisor.toUInt64.toNat := by simp [value, single]
    have parts := divideLimb_exact (denoted ▸ pos_of_ne_zero positive)
      (by rw [UInt32.toNat_toUInt64]; exact divisor.toNat_lt) a.limbs
    rw [← denoted] at parts
    exact {
      quotient := trimmed_ofLimbs _
      remainder := trimmed_ofWord _
      exact := by
        rw [value_ofLimbs, value_ofWord]
        exact parts.1
      below := by
        rw [value_ofWord]
        exact parts.2 }
  · refine divideSteps_divides trimmed _ trimmed' ?_
    rw [bits_eq trimmed, bits_eq trimmed']
    exact lt_mul_two_pow positive

/-! ## Greatest common divisor -/

/-- One round of the Euclidean algorithm on ordered operands takes a bit away. -/
theorem size_mod_lt {a b : Nat} (positive : b ≠ 0) (ordered : b ≤ a) : (a % b).size < a.size := by
  have half : 2 * (a % b) < a := by
    have below := mod_lt a (pos_of_ne_zero positive)
    have parts := div_add_mod a b
    have quotient : b ≤ b * (a / b) :=
      Nat.le_mul_of_pos_right _ (Nat.div_pos ordered (Nat.pos_of_ne_zero positive))
    omega
  have top := lt_size_self a
  have some : 0 < a.size := size_pos.mpr (by omega)
  have split : 2 ^ a.size = 2 * 2 ^ (a.size - 1) := by
    rw [← Nat.pow_succ']
    congr 1
    omega
  have shorter : (a % b).size ≤ a.size - 1 := size_le.mpr (by omega)
  omega

/-- What the Euclidean loop ends with: as long as the second number is not zero, it goes on with
that one and the remainder. -/
inductive Euclid : Natural → Natural → Natural → Prop
  | stop {a b : Natural} : b.isZero = true → Euclid a b a
  | round {a b result : Natural} :
      b.isZero = false → Euclid b (a.divmod b).2 result → Euclid a b result

variable (trimmed : a.Trimmed) (trimmed' : b.Trimmed)

include trimmed trimmed'

/-- Every round keeps the greatest common divisor. -/
theorem Euclid.denotes {result : Natural} (ends : Euclid a b result) :
    result.Denotes (Nat.gcd a.value b.value) := by
  induction ends with
  | stop empty =>
    rw [(isZero_iff trimmed').mp empty, gcd_zero_right]
    exact ⟨trimmed, rfl⟩
  | @round a b result nonzero _ ih =>
    have positive : b.value ≠ 0 := by rwa [ne_eq, ← isZero_iff trimmed', Bool.not_eq_true]
    have divides := divmod_divides trimmed trimmed' positive
    rw [Nat.gcd_comm a.value, gcd_rec b.value, Nat.gcd_comm (a.value % b.value),
      ← divides.value_remainder]
    exact ih trimmed' divides.remainder

/-- The loop ends within as many rounds as the numbers have bits, and one more where the first of
them brings the numbers in order. -/
theorem euclid_gcdRounds {rounds : Nat}
    (enough : a.value.size + b.value.size + (if a.value < b.value then 1 else 0) < rounds) :
    Euclid a b (gcdRounds rounds a b) := by
  induction rounds generalizing a b with
  | zero => exact absurd enough (not_lt_zero _)
  | succ rounds ih =>
    rw [gcdRounds]
    split
    · next empty => exact .stop empty
    · next nonzero =>
      have positive : b.value ≠ 0 := fun zero => nonzero ((isZero_iff trimmed').mpr zero)
      have divides := divmod_divides trimmed trimmed' positive
      refine .round (by simpa using nonzero) (ih trimmed' divides.remainder ?_)
      rw [if_neg (Nat.lt_asymm divides.below), divides.value_remainder]
      split at enough
      · next less =>
        rw [mod_eq_of_lt less]
        omega
      · next ordered =>
        have shorter := size_mod_lt positive (Nat.le_of_not_lt ordered)
        omega

/-- The rounds are enough. -/
theorem euclid_gcd : Euclid a b (a.gcd b) := by
  refine euclid_gcdRounds trimmed trimmed' ?_
  rw [bits_eq trimmed, bits_eq trimmed']
  split <;> omega

theorem trimmed_gcd : (a.gcd b).Trimmed :=
  ((euclid_gcd trimmed trimmed').denotes trimmed trimmed').trimmed

theorem value_gcd : (a.gcd b).value = Nat.gcd a.value b.value :=
  ((euclid_gcd trimmed trimmed').denotes trimmed trimmed').value

end Natural

end ContractTyping
