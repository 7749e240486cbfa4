import ContractTyping.Exact.Natural
import Mathlib.Data.Nat.Size
import Mathlib.Tactic.Ring

/-!
# Limb arithmetic denotes natural numbers

Every operation on limbs is tied to the operation on the numbers that the limbs denote. Each loop
has one lemma that speaks of the limbs still to come and of the carry, and the operation on numbers
in normal form follows from it (`limbs_exact`).
-/

namespace ContractTyping

open List Nat Option

namespace Natural

variable {word : UInt64} (n : Natural) (amount : Nat) (limbs others : List UInt32) (a b : Natural)
  {carry : UInt64}

/-! ## Words of 64 bits -/

/-- A word is its low limb and what is carried beyond it. -/
theorem low_add_high (word : UInt64) :
    word.toUInt32.toNat + 2 ^ 32 * (word >>> 32).toNat = word.toNat := by
  have high : (word >>> 32).toNat = word.toNat / 2 ^ 32 := by
    rw [UInt64.toNat_shiftRight, shiftRight_eq_div_pow]
    rfl
  rw [high]
  exact mod_add_div _ _

theorem toNat_low (small : word.toNat < 2 ^ 32) : word.toUInt32.toNat = word.toNat := by
  rw [UInt64.toNat_toUInt32, mod_eq_of_lt small]

/-- Two limbs make a word. -/
theorem toNat_high_or_low {high : UInt64} (small : high.toNat < 2 ^ 32) (low : UInt32) :
    (high <<< 32 ||| low.toUInt64).toNat = high.toNat * 2 ^ 32 + low.toNat := by
  have amount : (32 : UInt64).toNat % 64 = 32 := rfl
  rw [UInt64.toNat_or, UInt64.toNat_shiftLeft, amount, shiftLeft_eq, mod_eq_of_lt (by omega),
    UInt32.toNat_toUInt64, ← shiftLeft_eq, shiftLeft_add_eq_or_of_lt low.toNat_lt]

/-! ## Normal form -/

@[simp]
theorem limbsValue_nil : limbsValue [] = 0 := rfl

@[simp]
theorem limbsValue_cons (limb : UInt32) (rest : List UInt32) :
    limbsValue (limb :: rest) = limb.toNat + 2 ^ 32 * limbsValue rest := rfl

theorem limbsValue_head_tail :
    limbsValue limbs = (limbs.headD 0).toNat + 2 ^ 32 * limbsValue limbs.tail := by
  cases limbs with
  | nil => rfl
  | cons limb rest => rfl

theorem limbsValue_replicate_append (count : Nat) (limbs : List UInt32) :
    limbsValue (List.replicate count 0 ++ limbs) = 2 ^ (32 * count) * limbsValue limbs := by
  induction count with
  | zero => simp
  | succ count ih =>
    rw [replicate_succ, cons_append, limbsValue_cons, ih]
    simp only [UInt32.toNat_zero]
    ring

theorem limbsValue_trim : limbsValue (trim limbs) = limbsValue limbs := by
  induction limbs with
  | nil => rfl
  | cons limb rest ih =>
    rw [trim, limbsValue_cons, ← ih]
    split
    · next empty =>
      rw [empty]
      split
      · next zero => rw [zero]; rfl
      · rfl
    · rfl

theorem getLast?_trim : (trim limbs).getLast? ≠ some 0 := by
  induction limbs with
  | nil => simp [trim]
  | cons limb rest ih =>
    rw [trim]
    split
    · split
      · simp
      · next nonzero => simpa using nonzero
    · next high nonempty =>
      obtain ⟨top, others, equal⟩ := exists_cons_of_ne_nil nonempty
      rw [equal, getLast?_cons_cons, ← equal]
      exact ih

@[simp]
theorem value_ofLimbs : (ofLimbs limbs).value = limbsValue limbs :=
  limbsValue_trim limbs

@[simp]
theorem trimmed_ofLimbs : (ofLimbs limbs).Trimmed := getLast?_trim limbs

/-- What is left of a limb list in normal form without its lowest limb is in normal form. -/
theorem getLast?_tail {limb : UInt32} {rest : List UInt32}
    (trimmed : (limb :: rest).getLast? ≠ some 0) : rest.getLast? ≠ some 0 := by
  cases rest with
  | nil => simp
  | cons next others => rwa [getLast?_cons_cons] at trimmed

/-- The top limb of a limb list in normal form makes the number at least as large as its place. -/
theorem le_limbsValue {limbs : List UInt32} (nonempty : limbs ≠ [])
    (trimmed : limbs.getLast? ≠ some 0) : 2 ^ (32 * (limbs.length - 1)) ≤ limbsValue limbs := by
  induction limbs with
  | nil => contradiction
  | cons limb rest ih =>
    cases rest with
    | nil =>
      have nonzero : limb ≠ 0 := by simpa using trimmed
      have positive : limb.toNat ≠ 0 := fun zero => nonzero (UInt32.toNat_inj.mp zero)
      simp only [limbsValue_cons, limbsValue_nil, length_singleton]
      omega
    | cons next others =>
      have above := ih (cons_ne_nil _ _) (getLast?_tail trimmed)
      rw [limbsValue_cons, length_cons, Nat.add_sub_cancel]
      rw [length_cons, Nat.add_sub_cancel] at above
      rw [length_cons, mul_succ, pow_add]
      omega

theorem limbsValue_eq_zero {limbs : List UInt32} (trimmed : limbs.getLast? ≠ some 0)
    (zero : limbsValue limbs = 0) : limbs = [] := by
  by_contra nonempty
  have above := le_limbsValue nonempty trimmed
  have positive := Nat.two_pow_pos (32 * (limbs.length - 1))
  omega

theorem limbsValue_injective {limbs others : List UInt32} (trimmed : limbs.getLast? ≠ some 0)
    (trimmed' : others.getLast? ≠ some 0) (equal : limbsValue limbs = limbsValue others) :
    limbs = others := by
  induction limbs generalizing others with
  | nil => exact (limbsValue_eq_zero trimmed' equal.symm).symm
  | cons limb rest ih =>
    cases others with
    | nil => exact limbsValue_eq_zero trimmed equal
    | cons other rest' =>
      have small := limb.toNat_lt
      have small' := other.toNat_lt
      rw [limbsValue_cons, limbsValue_cons] at equal
      have low : limb = other := UInt32.toNat_inj.mp (by omega)
      have high : rest = rest' := ih (getLast?_tail trimmed) (getLast?_tail trimmed') (by omega)
      rw [low, high]

/-- Numbers in normal form are determined by what they denote. -/
theorem value_injective {a b : Natural} (trimmed : a.Trimmed) (trimmed' : b.Trimmed)
    (equal : a.value = b.value) : a = b := by
  cases a
  cases b
  exact congrArg Natural.mk (limbsValue_injective trimmed trimmed' equal)

@[simp]
theorem trimmed_zero : zero.Trimmed := by decide

@[simp]
theorem value_zero : zero.value = 0 := rfl

theorem trimmed_ofWord (word : UInt64) : (ofWord word).Trimmed := trimmed_ofLimbs _

@[simp]
theorem value_ofWord (word : UInt64) : (ofWord word).value = word.toNat := by
  have bound := word.toNat_lt
  have split := low_add_high word
  have high : (word >>> 32).toUInt32.toNat = (word >>> 32).toNat := toNat_low (by omega)
  rw [ofWord, value_ofLimbs, limbsValue_cons, limbsValue_cons, limbsValue_nil]
  omega

@[simp]
theorem trimmed_one : one.Trimmed := trimmed_ofWord 1

@[simp]
theorem value_one : one.value = 1 := value_ofWord 1

/-- A number that fits into a word is the word. -/
theorem toNat_of_toWord? {n : Natural} (fits : n.toWord? = some word) : word.toNat = n.value := by
  unfold toWord? at fits
  rw [value]
  split at fits
  · next empty =>
    cases fits
    rw [empty]
    rfl
  · next low single =>
    cases fits
    rw [single]
    rfl
  · next low high two =>
    cases fits
    have small : high.toUInt64.toNat < 2 ^ 32 := by
      exact high.toNat_lt
    rw [two, limbsValue_cons, limbsValue_cons, limbsValue_nil, UInt64.or_comm,
      toNat_high_or_low small, UInt32.toNat_toUInt64]
    ring
  · cases fits

/-- A number in normal form fits into a word if it is the value of one. -/
theorem toWord?_eq_some_iff {n : Natural} (trimmed : n.Trimmed) :
    n.toWord? = some word ↔ word.toNat = n.value := by
  refine ⟨toNat_of_toWord?, fun equal => ?_⟩
  cases fits : n.toWord? with
  | some found => rw [UInt64.toNat_inj.mp (equal.trans (toNat_of_toWord? fits).symm)]
  | none =>
    -- Only three limbs or more make no word, and the top one lies beyond all words.
    obtain ⟨limbs⟩ := n
    rcases limbs with _ | ⟨low, _ | ⟨middle, _ | ⟨high, rest⟩⟩⟩
    · cases fits
    · cases fits
    · cases fits
    · have bound := word.toNat_lt
      have top := le_limbsValue (cons_ne_nil _ _) trimmed
      have beyond : 2 ^ 64 ≤ 2 ^ (32 * ((low :: middle :: high :: rest).length - 1)) :=
        Nat.pow_le_pow_right (by decide) (by simp only [length_cons]; omega)
      rw [equal] at bound
      exact absurd (beyond.trans top) (not_le.mpr bound)

theorem isZero_iff {n : Natural} (trimmed : n.Trimmed) : n.isZero = true ↔ n.value = 0 := by
  constructor
  · intro empty
    rw [value, isEmpty_iff.mp empty, limbsValue_nil]
  · intro zero
    exact isEmpty_iff.mpr (limbsValue_eq_zero trimmed zero)

theorem isOne_iff {n : Natural} (trimmed : n.Trimmed) : n.isOne = true ↔ n.value = 1 := by
  constructor
  · intro single
    rw [value, eq_of_beq single]
    rfl
  · intro equal
    have same : n = one := value_injective trimmed trimmed_one (by rw [equal, value_one])
    rw [same]
    rfl

/-! ## Bits -/

theorem limbBits_eq (limb : UInt32) : limbBits limb = limb.toNat.size := by
  unfold limbBits
  split
  · next zero => rw [zero]; rfl
  · next nonzero =>
    have positive : limb.toNat ≠ 0 := fun zero => nonzero (UInt32.toNat_inj.mp zero)
    refine le_antisymm ?_ ?_
    · exact lt_size.mpr (log2_self_le positive)
    · exact size_le.mpr lt_log2_self

/-- A limb below a number that is not zero makes it longer by the bits of a limb. -/
theorem size_add_mul {low high : Nat} (small : low < 2 ^ 32) (positive : high ≠ 0) :
    (low + 2 ^ 32 * high).size = high.size + 32 := by
  have nonempty : 0 < high.size := size_pos.mpr (pos_of_ne_zero positive)
  have above : high < 2 ^ high.size := lt_size_self high
  have place : 2 ^ (high.size - 1) ≤ high := lt_size.mp (by omega)
  refine le_antisymm (size_le.mpr ?_) ?_
  · rw [pow_add]
    omega
  · have top : 2 ^ (high.size - 1 + 32) ≤ low + 2 ^ 32 * high := by
      rw [pow_add]
      omega
    have := lt_size.mpr top
    omega

/-- The length of a limb list in bits. -/
theorem size_limbsValue {limbs : List UInt32} {top : UInt32} (last : limbs.getLast? = some top)
    (nonzero : top ≠ 0) : (limbsValue limbs).size = (limbs.length - 1) * 32 + top.toNat.size := by
  induction limbs with
  | nil => simp at last
  | cons limb rest ih =>
    cases rest with
    | nil =>
      obtain rfl : limb = top := by simpa using last
      simp
    | cons next others =>
      rw [getLast?_cons_cons] at last
      have positive : limbsValue (next :: others) ≠ 0 := fun zero => by
        have empty := limbsValue_eq_zero (by rw [last]; simpa using nonzero) zero
        contradiction
      rw [limbsValue_cons, size_add_mul limb.toNat_lt positive, ih last]
      simp only [length_cons]
      omega

/-- The length in bits is that of the number denoted. -/
theorem bits_eq {n : Natural} (trimmed : n.Trimmed) : n.bits = n.value.size := by
  unfold bits
  split
  · next empty =>
    rw [value, getLast?_eq_none_iff.mp empty]
    simp
  · next top last =>
    have nonzero : top ≠ 0 := fun zero => trimmed (zero ▸ last)
    rw [limbBits_eq, value, size_limbsValue last nonzero]

/-! ## Order -/

theorem compareLimbs_eq {limbs others : List UInt32} (trimmed : limbs.getLast? ≠ some 0)
    (trimmed' : others.getLast? ≠ some 0) :
    compareLimbs limbs others = compare (limbsValue limbs) (limbsValue others) := by
  induction limbs generalizing others with
  | nil =>
    cases others with
    | nil => rfl
    | cons other rest' =>
      have positive : limbsValue (other :: rest') ≠ 0 := fun zero => by
        have := limbsValue_eq_zero trimmed' zero
        contradiction
      exact (Nat.compare_eq_lt.mpr (by rw [limbsValue_nil]; omega)).symm
  | cons limb rest ih =>
    cases others with
    | nil =>
      have positive : limbsValue (limb :: rest) ≠ 0 := fun zero => by
        have := limbsValue_eq_zero trimmed zero
        contradiction
      exact (Nat.compare_eq_gt.mpr (by rw [limbsValue_nil]; omega)).symm
    | cons other rest' =>
      have small := limb.toNat_lt
      have small' := other.toNat_lt
      rw [compareLimbs, ih (getLast?_tail trimmed) (getLast?_tail trimmed'),
        UInt32.compare_eq_toNat_compare_toNat, limbsValue_cons, limbsValue_cons]
      -- The higher limbs decide unless they are equal.
      rcases lt_trichotomy (limbsValue rest) (limbsValue rest') with less | equal | greater
      · rw [Nat.compare_eq_lt.mpr less]
        exact (Nat.compare_eq_lt.mpr (by omega)).symm
      · rw [Nat.compare_eq_eq.mpr equal, equal, Nat.compare_eq_ite_lt, Nat.compare_eq_ite_lt]
        simp
      · rw [Nat.compare_eq_gt.mpr greater]
        exact (Nat.compare_eq_gt.mpr (by omega)).symm

/-- The order is that of the numbers denoted. -/
theorem cmp_eq {a b : Natural} (trimmed : a.Trimmed) (trimmed' : b.Trimmed) :
    a.cmp b = compare a.value b.value := compareLimbs_eq trimmed trimmed'

theorem cmp_eq_lt_iff {a b : Natural} (trimmed : a.Trimmed) (trimmed' : b.Trimmed) :
    a.cmp b = .lt ↔ a.value < b.value := by
  rw [cmp_eq trimmed trimmed', Nat.compare_eq_lt]

/-! ## Checked words -/

/-- A sum that fits a word is found, and is exact. -/
theorem sum?_eq_some (a b : UInt64) (fits : a.toNat + b.toNat < 2 ^ 64) :
    ∃ sum, sum? a b = some sum ∧ sum.toNat = a.toNat + b.toNat :=
  ⟨a + b, if_pos fits, by rw [UInt64.toNat_add, mod_eq_of_lt fits]⟩

theorem product?_eq_some (a b : UInt64) (fits : a.toNat * b.toNat < 2 ^ 64) :
    ∃ product, product? a b = some product ∧ product.toNat = a.toNat * b.toNat :=
  ⟨a * b, if_pos fits, by rw [UInt64.toNat_mul, mod_eq_of_lt fits]⟩

theorem difference?_eq_some (a b : UInt64) (le : b.toNat ≤ a.toNat) :
    ∃ difference, difference? a b = some difference ∧ difference.toNat = a.toNat - b.toNat :=
  ⟨a - b, if_pos le, UInt64.toNat_sub_of_le _ _ le⟩

/-- What a loop on limbs finds is a limb, and what it finds in the limbs above. -/
theorem map_limbsValue_cons {low : UInt32} {high : Option (List UInt32)} {n : Nat}
    (found : high.map limbsValue = some n) :
    (high.bind fun high => some (low :: high)).map limbsValue = some (low.toNat + 2 ^ 32 * n) := by
  obtain ⟨limbs, rfl, rfl⟩ := map_eq_some_iff.mp found
  rfl

/-- The number that a loop on limbs has found, in normal form. -/
theorem value_getD {limbs : Option (List UInt32)} {n : Nat}
    (found : limbs.map limbsValue = some n) : (ofLimbs (limbs.getD [])).value = n := by
  obtain ⟨limbs, rfl, rfl⟩ := map_eq_some_iff.mp found
  exact value_ofLimbs limbs

/-! ## Sums and differences -/

/-- A carry is added without loss if there is room for it. -/
theorem limbsValue_addCarry (grows : Bool) (limbs : List UInt32) (small : carry.toNat < 2 ^ 32)
    (room : grows = false → limbsValue limbs + carry.toNat < 2 ^ (32 * limbs.length)) :
    (addCarry grows limbs carry).map limbsValue = some (limbsValue limbs + carry.toNat) := by
  induction limbs generalizing carry with
  | nil =>
    rw [addCarry]
    split
    · next zero => rw [zero]; rfl
    · next nonzero =>
      have positive : carry.toNat ≠ 0 := fun zero => nonzero (UInt64.toNat_inj.mp zero)
      split
      · simp [toNat_low small]
      · next fixed =>
        have := room (Bool.eq_false_iff.mpr fixed)
        simp at this
        omega
  | cons limb rest ih =>
    rw [addCarry]
    split
    · next zero => rw [zero]; rfl
    · have limbSmall := limb.toNat_lt
      obtain ⟨sum, found, exact⟩ := sum?_eq_some limb.toUInt64 carry (by
        rw [UInt32.toNat_toUInt64]; omega)
      rw [UInt32.toNat_toUInt64] at exact
      have split := low_add_high sum
      have carried : (sum >>> 32).toNat < 2 ^ 32 := by omega
      have above := ih carried fun fixed => by
        have := room fixed
        rw [limbsValue_cons, length_cons, mul_succ, pow_add] at this
        omega
      simp only [found, bind_eq_bind, bind_some, map_limbsValue_cons above, limbsValue_cons]
      refine congrArg some ?_
      omega

theorem limbsValue_addLimbs (small : carry.toNat < 2 ^ 32) :
    (addLimbs limbs others carry).map limbsValue =
      some (limbsValue limbs + limbsValue others + carry.toNat) := by
  induction limbs generalizing others carry with
  | nil => rw [addLimbs, limbsValue_addCarry true others small nofun, limbsValue_nil, zero_add]
  | cons limb rest ih =>
    cases others with
    | nil =>
      rw [addLimbs, limbsValue_addCarry true _ small nofun, limbsValue_nil, add_zero]
      simp
    | cons other rest' =>
      have limbSmall := limb.toNat_lt
      have otherSmall := other.toNat_lt
      obtain ⟨pair, foundPair, exactPair⟩ := sum?_eq_some limb.toUInt64 other.toUInt64 (by
        rw [UInt32.toNat_toUInt64, UInt32.toNat_toUInt64]; omega)
      rw [UInt32.toNat_toUInt64, UInt32.toNat_toUInt64] at exactPair
      obtain ⟨sum, found, exact⟩ := sum?_eq_some pair carry (by omega)
      have split := low_add_high sum
      have carried : (sum >>> 32).toNat < 2 ^ 32 := by omega
      have above := ih rest' carried
      simp only [addLimbs, foundPair, found, bind_eq_bind, bind_some, map_limbsValue_cons above,
        limbsValue_cons]
      refine congrArg some ?_
      omega

theorem trimmed_add : (a.add b).Trimmed := trimmed_ofLimbs _

@[simp]
theorem value_add : (a.add b).value = a.value + b.value :=
  value_getD (limbsValue_addLimbs a.limbs b.limbs (by decide))

/-- What is left is what was there before without what is taken away. -/
theorem limbsValue_subLimbs {borrow : UInt64} (small : borrow.toNat ≤ 1)
    (enough : limbsValue others + borrow.toNat ≤ limbsValue limbs) :
    (subLimbs limbs others borrow).map
      limbsValue = some (limbsValue limbs - (limbsValue others + borrow.toNat)) := by
  induction limbs generalizing others borrow with
  | nil =>
    simp [subLimbs]
  | cons limb rest ih =>
    have limbSmall := limb.toNat_lt
    have otherSmall := (others.headD 0).toNat_lt
    obtain ⟨taken, foundTaken, exactTaken⟩ := sum?_eq_some (others.headD 0).toUInt64 borrow (by
      rw [UInt32.toNat_toUInt64]; omega)
    rw [UInt32.toNat_toUInt64] at exactTaken
    rw [limbsValue_head_tail others, limbsValue_cons] at enough ⊢
    simp only [subLimbs, foundTaken, bind_eq_bind, bind_some]
    split
    · next less =>
      rw [UInt64.lt_iff_toNat_lt, UInt32.toNat_toUInt64] at less
      obtain ⟨larger, foundLarger, exactLarger⟩ := sum?_eq_some limb.toUInt64 0x100000000 (by
        rw [UInt32.toNat_toUInt64]; show _ + 2 ^ 32 < _; omega)
      have exactLarger : larger.toNat = limb.toNat + 2 ^ 32 := by
        rw [exactLarger]
        rfl
      obtain ⟨difference, found, exact⟩ := difference?_eq_some larger taken (by omega)
      have one : (1 : UInt64).toNat = 1 := rfl
      have above := ih others.tail (show (1 : UInt64).toNat ≤ 1 by decide) (by omega)
      simp only [foundLarger, found, bind_some, map_limbsValue_cons above]
      rw [toNat_low (by omega)]
      refine congrArg some ?_
      omega
    · next notLess =>
      rw [UInt64.lt_iff_toNat_lt, UInt32.toNat_toUInt64] at notLess
      obtain ⟨difference, found, exact⟩ := difference?_eq_some limb.toUInt64 taken (by
        rw [UInt32.toNat_toUInt64]; omega)
      rw [UInt32.toNat_toUInt64] at exact
      have zero : (0 : UInt64).toNat = 0 := rfl
      have above := ih others.tail (show (0 : UInt64).toNat ≤ 1 by decide) (by omega)
      simp only [found, bind_some, map_limbsValue_cons above]
      rw [toNat_low (by omega)]
      refine congrArg some ?_
      omega

theorem trimmed_sub : (a.sub b).Trimmed := trimmed_ofLimbs _

theorem value_sub {a b : Natural} (enough : b.value ≤ a.value) :
    (a.sub b).value = a.value - b.value :=
  value_getD (limbsValue_subLimbs a.limbs b.limbs (show (0 : UInt64).toNat ≤ 1 by decide) enough)

/-! ## Products -/

theorem limbsValue_lt : limbsValue limbs < 2 ^ (32 * limbs.length) := by
  induction limbs with
  | nil => exact one_pos
  | cons limb rest ih =>
    have small := limb.toNat_lt
    rw [limbsValue_cons, length_cons, mul_succ, pow_add]
    omega

theorem length_addCarry {limbs result : List UInt32}
    (added : addCarry false limbs carry = some result) : result.length = limbs.length := by
  induction limbs generalizing carry result with
  | nil =>
    rw [addCarry] at added
    split at added <;> cases added
    rfl
  | cons limb rest ih =>
    rw [addCarry] at added
    split at added
    · cases added
      rfl
    · obtain ⟨sum, -, added⟩ := bind_eq_some_iff.mp added
      obtain ⟨high, above, added⟩ := bind_eq_some_iff.mp added
      cases added
      rw [length_cons, length_cons, ih above]

theorem length_mulLimb {factor : UInt32} {limbs buffer result : List UInt32}
    (added : mulLimb factor limbs buffer carry = some result) : result.length = buffer.length := by
  induction limbs generalizing buffer carry result with
  | nil => exact length_addCarry added
  | cons limb rest ih =>
    cases buffer with
    | nil => cases added
    | cons old buffer =>
      obtain ⟨product, -, added⟩ := bind_eq_some_iff.mp added
      obtain ⟨pair, -, added⟩ := bind_eq_some_iff.mp added
      obtain ⟨sum, -, added⟩ := bind_eq_some_iff.mp added
      obtain ⟨high, above, added⟩ := bind_eq_some_iff.mp added
      cases added
      rw [length_cons, length_cons, ih above]

/-- A row is added without loss if there is room for it. The sum of a limb, a product of two limbs
and a carry can be as large as a word, but not larger. -/
theorem limbsValue_mulLimb (factor : UInt32) (limbs buffer : List UInt32)
    (small : carry.toNat < 2 ^ 32) (long : limbs.length ≤ buffer.length)
    (room : limbsValue buffer + factor.toNat * limbsValue limbs + carry.toNat < 2 ^
      (32 * buffer.length)) :
    (mulLimb factor limbs buffer carry).map limbsValue =
      some (limbsValue buffer + factor.toNat * limbsValue limbs + carry.toNat) := by
  induction limbs generalizing buffer carry with
  | nil =>
    exact limbsValue_addCarry false buffer small fun _ => room
  | cons limb rest ih =>
    cases buffer with
    | nil => exact absurd long (not_succ_le_zero _)
    | cons old buffer =>
      have factorSmall := factor.toNat_lt
      have limbSmall := limb.toNat_lt
      have oldSmall := old.toNat_lt
      have bound : factor.toNat * limb.toNat ≤ (2 ^ 32 - 1) * (2 ^ 32 - 1) :=
        Nat.mul_le_mul (by omega) (by omega)
      obtain ⟨product, foundProduct, exactProduct⟩ :=
        product?_eq_some factor.toUInt64 limb.toUInt64 (by
        rw [UInt32.toNat_toUInt64, UInt32.toNat_toUInt64]; omega)
      rw [UInt32.toNat_toUInt64, UInt32.toNat_toUInt64] at exactProduct
      obtain ⟨pair, foundPair, exactPair⟩ := sum?_eq_some old.toUInt64 product (by
        rw [UInt32.toNat_toUInt64]; omega)
      rw [UInt32.toNat_toUInt64] at exactPair
      obtain ⟨sum, found, exact⟩ := sum?_eq_some pair carry (by omega)
      have split := low_add_high sum
      have total :
          limbsValue (old :: buffer) + factor.toNat * limbsValue (limb :: rest) + carry.toNat =
          sum.toUInt32.toNat +
            2 ^ 32 * (limbsValue buffer + factor.toNat * limbsValue rest + (sum >>> 32).toNat) := by
        rw [limbsValue_cons, limbsValue_cons, mul_add, mul_left_comm]
        omega
      have carried : (sum >>> 32).toNat < 2 ^ 32 := by omega
      have above := ih buffer carried (le_of_succ_le_succ long) (by
        rw [length_cons, mul_succ, pow_add] at room
        omega)
      simp only [mulLimb, foundProduct, foundPair, found, bind_eq_bind, bind_some,
        map_limbsValue_cons above]
      rw [total]

/-- Rows are added without loss. Before each of them the buffer holds a number that is no longer
than the right factor, so the carry of the row ends one limb above it at the latest. -/
theorem limbsValue_mulRows (buffer : List UInt32)
    (length : buffer.length = limbs.length + others.length)
    (below : limbsValue buffer < 2 ^ (32 * others.length)) :
    (mulRows limbs others buffer).map limbsValue =
      some (limbsValue buffer + limbsValue limbs * limbsValue others) := by
  induction limbs generalizing buffer with
  | nil => simp [mulRows]
  | cons limb rest ih =>
    have limbSmall := limb.toNat_lt
    have othersSmall := limbsValue_lt others
    have rowSmall :
        limbsValue buffer + limb.toNat * limbsValue others < 2 ^ (32 * others.length) * 2 ^ 32 := by
      have : limb.toNat * limbsValue others ≤ (2 ^ 32 - 1) * 2 ^ (32 * others.length) :=
        Nat.mul_le_mul (by omega) (by omega)
      omega
    have longer : 2 ^ (32 * others.length) * 2 ^ 32 ≤ 2 ^ (32 * buffer.length) := by
      rw [← Nat.pow_add, length, length_cons]
      exact Nat.pow_le_pow_right (by decide) (by omega)
    have row := limbsValue_mulLimb limb others buffer (show (0 : UInt64).toNat < 2 ^ 32 by decide)
      (by omega) (Nat.lt_of_lt_of_le rowSmall longer)
    obtain ⟨result, found, exact⟩ := map_eq_some_iff.mp row
    rw [UInt64.toNat_zero] at exact
    have kept := length_mulLimb found
    cases result with
    | nil =>
      rw [length] at kept
      simp at kept
      omega
    | cons low high =>
      rw [limbsValue_cons] at exact
      have above := ih high (by simp at kept length; omega) (by omega)
      simp only [mulRows, found, bind_eq_bind, bind_some, map_limbsValue_cons above]
      rw [limbsValue_cons, Nat.mul_add, ← Nat.add_assoc, exact]
      refine congrArg some ?_
      ring

theorem limbsValue_mulLimbs :
    (mulLimbs limbs others).map limbsValue = some (limbsValue limbs * limbsValue others) := by
  have empty : limbsValue (List.replicate (limbs.length + others.length) 0) = 0 := by
    have := limbsValue_replicate_append (limbs.length + others.length) []
    rwa [append_nil] at this
  rw [mulLimbs, limbsValue_mulRows, empty, zero_add]
  · exact length_replicate
  · rw [empty]
    exact Nat.two_pow_pos _

theorem trimmed_mul : (a.mul b).Trimmed := trimmed_ofLimbs _

@[simp]
theorem value_mul : (a.mul b).value = a.value * b.value :=
  value_getD (limbsValue_mulLimbs a.limbs b.limbs)

/-! ## Shifts -/

section Limb

variable {limb low shift : UInt32} (small : shift.toNat < 32)

include small

theorem two_pow_split : (2 : Nat) ^ 32 = 2 ^ (32 - shift.toNat) * 2 ^ shift.toNat := by
  rw [← pow_add, Nat.sub_add_cancel small.le]

/-- A limb that is shifted up keeps the bits that are not carried. Other bits are put below them. -/
theorem toNat_shiftLeft_or (below : low.toNat < 2 ^ shift.toNat) :
    (limb <<< shift ||| low).toNat = limb.toNat * 2 ^ shift.toNat % 2 ^ 32 + low.toNat := by
  rw [UInt32.toNat_or, UInt32.toNat_shiftLeft, mod_eq_of_lt small, shiftLeft_eq,
    two_pow_split small, Nat.mul_mod_mul_right, ← shiftLeft_eq, shiftLeft_add_eq_or_of_lt below]

variable (positive : shift ≠ 0)

include positive

/-- The bits that are carried out of a limb. -/
theorem toNat_complement : (32 - shift).toNat = 32 - shift.toNat ∧ 32 - shift.toNat < 32 := by
  have some : shift.toNat ≠ 0 := fun none => positive (UInt32.toNat_inj.mp none)
  refine ⟨?_, by omega⟩
  rw [UInt32.toNat_sub_of_le]
  · rfl
  · exact UInt32.le_iff_toNat_le.mpr small.le

theorem toNat_carried (limb : UInt32) :
    (limb >>> (32 - shift)).toNat = limb.toNat * 2 ^ shift.toNat / 2 ^ 32 := by
  obtain ⟨amount, less⟩ := toNat_complement small positive
  rw [UInt32.toNat_shiftRight, amount, mod_eq_of_lt less, shiftRight_eq_div_pow,
    two_pow_split small, Nat.mul_div_mul_right _ _ (Nat.two_pow_pos _)]

/-- A limb that is shifted down makes room for the lowest bits of the next one. -/
theorem toNat_shiftRight_or {next : UInt32} : (limb >>> shift ||| next <<< (32 - shift)).toNat =
    limb.toNat / 2 ^ shift.toNat + 2 ^ (32 - shift.toNat) * (next.toNat % 2 ^ shift.toNat) := by
  obtain ⟨amount, less⟩ := toNat_complement small positive
  have split := (two_pow_split small).trans (mul_comm _ _)
  have low : (limb >>> shift).toNat = limb.toNat / 2 ^ shift.toNat := by
    rw [UInt32.toNat_shiftRight, mod_eq_of_lt small, shiftRight_eq_div_pow]
  have below : (limb >>> shift).toNat < 2 ^ (32 - shift).toNat := by
    rw [low, amount]
    exact Nat.div_lt_of_lt_mul (split ▸ limb.toNat_lt)
  rw [UInt32.or_comm, toNat_shiftLeft_or (amount ▸ less) below, low, amount, split,
    Nat.mul_mod_mul_right, add_comm, mul_comm (next.toNat % _)]

end Limb

theorem limbsValue_shlLimbs {shift carry : UInt32} (small : shift.toNat < 32)
    (below : carry.toNat < 2 ^ shift.toNat) : limbsValue (shlLimbs shift limbs carry) =
      limbsValue limbs * 2 ^ shift.toNat + carry.toNat := by
  induction limbs generalizing carry with
  | nil =>
    rw [shlLimbs]
    split
    · next zero => simp [zero]
    · simp
  | cons limb rest ih =>
    rw [shlLimbs, limbsValue_cons]
    split
    · next zero =>
      have none : carry.toNat = 0 := by simpa [zero] using below
      rw [limbsValue_cons, ih below, none, zero]
      simp
    · next positive =>
      have carried := toNat_carried small positive limb
      have parts := mod_add_div (limb.toNat * 2 ^ shift.toNat) (2 ^ 32)
      have less : (limb >>> (32 - shift)).toNat < 2 ^ shift.toNat := by
        rw [carried]
        exact Nat.div_lt_of_lt_mul (mul_lt_mul_of_pos_right limb.toNat_lt (Nat.two_pow_pos _))
      rw [limbsValue_cons, ih less, toNat_shiftLeft_or small below, carried, add_mul, mul_assoc]
      omega

theorem trimmed_shl : (n.shl amount).Trimmed := by
  unfold shl
  split
  · exact trimmed_zero
  · exact trimmed_ofLimbs _

theorem toNat_toUInt64 {n : Nat} (small : n < 2 ^ 64) : n.toUInt64.toNat = n := by
  rw [UInt64.toNat_ofNat', mod_eq_of_lt small]

theorem toNat_shift : (amount % 32).toUInt32.toNat = amount % 32 := by
  rw [UInt32.toNat_ofNat', mod_eq_of_lt (by omega)]

@[simp]
theorem value_shl : (n.shl amount).value = n.value * 2 ^ amount := by
  unfold shl
  split
  · next empty => simp [value, isEmpty_iff.mp empty, zero]
  · have small : (amount % 32).toUInt32.toNat < 32 := by
      rw [toNat_shift]
      exact mod_lt _ (by decide)
    rw [value_ofLimbs, limbsValue_replicate_append, limbsValue_shlLimbs _ small (Nat.two_pow_pos _),
      toNat_shift, UInt32.toNat_zero, value]
    conv_rhs => rw [← div_add_mod amount 32]
    ring

theorem limbsValue_shrLimbs {shift : UInt32} (small : shift.toNat < 32) :
    limbsValue (shrLimbs shift limbs) = limbsValue limbs / 2 ^ shift.toNat := by
  induction limbs with
  | nil => simp [shrLimbs]
  | cons limb rest ih =>
    rw [shrLimbs, limbsValue_cons limb rest]
    split
    · next zero =>
      rw [limbsValue_cons, ih, zero]
      simp
    · next positive =>
      have split := (two_pow_split small).trans (mul_comm _ _)
      -- Only the lowest bits of the rest reach the lowest limb, and the next limb has them.
      have visible :
          (rest.headD 0).toNat % 2 ^ shift.toNat = limbsValue rest % 2 ^ shift.toNat := by
        rw [limbsValue_head_tail rest, split, mul_assoc, add_mul_mod_self_left]
      have parts := div_add_mod (limbsValue rest) (2 ^ shift.toNat)
      rw [limbsValue_cons, ih, toNat_shiftRight_or small positive, visible, split,
        mul_assoc _ _ (limbsValue rest), Nat.add_mul_div_left _ _ (Nat.two_pow_pos _), add_assoc]
      congr 1
      conv_rhs => rw [← parts]
      ring

theorem limbsValue_drop (count : Nat) (limbs : List UInt32) :
    limbsValue (limbs.drop count) = limbsValue limbs / 2 ^ (32 * count) := by
  induction count generalizing limbs with
  | zero => simp
  | succ count ih =>
    cases limbs with
    | nil => simp
    | cons limb rest =>
      have small := limb.toNat_lt
      rw [drop_succ_cons, ih, limbsValue_cons, mul_succ, add_comm (32 * count), pow_add,
        ← Nat.div_div_eq_div_mul]
      congr 1
      omega

/-- The bit at an index is that of the number denoted. -/
theorem bit_eq (index : Nat) : n.bit index = n.value.testBit index := by
  have low : index % 32 < 32 := mod_lt _ (by decide)
  -- The bit is in the lowest of the limbs that are left when all limbs before it are dropped.
  have place :
      n.value.testBit index = (limbsValue (n.limbs.drop (index / 32))).testBit (index % 32) := by
    rw [limbsValue_drop, testBit_div_two_pow, mod_add_div, value]
  rw [bit, place, ← head?_drop]
  cases n.limbs.drop (index / 32) with
  | nil => simp
  | cons limb rest =>
    rw [limbsValue_cons, add_comm, testBit_two_pow_mul_add _ limb.toNat_lt, if_pos low]
    rfl

theorem trimmed_shr : (n.shr amount).Trimmed := by
  unfold shr
  split
  · exact trimmed_zero
  · exact trimmed_ofLimbs _

@[simp]
theorem value_shr : (n.shr amount).value = n.value / 2 ^ amount := by
  have value_drop : n.value / 2 ^ amount =
      limbsValue (n.limbs.drop (amount / 32)) / 2 ^ (amount % 32) := by
    rw [limbsValue_drop, Nat.div_div_eq_div_mul, ← Nat.pow_add, Nat.div_add_mod, value]
  rw [value_drop, shr]
  split
  · next beyond => rw [drop_eq_nil_of_le beyond, limbsValue_nil, Nat.zero_div, value_zero]
  · have small : (amount % 32).toUInt32.toNat < 32 := by
      rw [toNat_shift]
      exact mod_lt _ (by decide)
    rw [value_ofLimbs, limbsValue_shrLimbs _ small, toNat_shift]

/-! ## All together -/

/-- A number in normal form that denotes the given one. -/
structure Denotes (n : Natural) (k : Nat) : Prop where
  trimmed : n.Trimmed
  value : n.value = k

theorem isSome_of_map {limbs : Option (List UInt32)} {n : Nat}
    (found : limbs.map limbsValue = some n) : limbs.isSome := by
  rw [← isSome_map (f := limbsValue), found]
  rfl

/-- The operations on numbers in normal form are those on natural numbers, and give numbers in
normal form. The loops behind sums, differences and products come to their end: no word wraps around
and no limb is written beyond the end of a buffer. -/
theorem limbs_exact {a b : Natural} (trimmed : a.Trimmed) (trimmed' : b.Trimmed)
    (amount index : Nat) :
    ((a.add b).Denotes (a.value + b.value) ∧ (addLimbs a.limbs b.limbs 0).isSome) ∧
    ((a.mul b).Denotes (a.value * b.value) ∧ (mulLimbs a.limbs b.limbs).isSome) ∧
    (b.value ≤ a.value →
      (a.sub b).Denotes (a.value - b.value) ∧ (subLimbs a.limbs b.limbs 0).isSome) ∧
    (a.shl amount).Denotes (a.value * 2 ^ amount) ∧
    (a.shr amount).Denotes (a.value / 2 ^ amount) ∧
    a.bits = a.value.size ∧
    a.bit index = a.value.testBit index ∧
    a.cmp b = compare a.value b.value := by
  refine ⟨⟨⟨trimmed_add a b, value_add a b⟩, ?_⟩, ⟨⟨trimmed_mul a b, value_mul a b⟩, ?_⟩,
    fun enough => ?_,
    ⟨trimmed_shl a amount, value_shl a amount⟩, ⟨trimmed_shr a amount, value_shr a amount⟩,
    bits_eq trimmed, bit_eq a index, cmp_eq trimmed trimmed'⟩
  · exact isSome_of_map (limbsValue_addLimbs a.limbs b.limbs (by decide))
  · exact isSome_of_map (limbsValue_mulLimbs a.limbs b.limbs)
  · refine ⟨⟨trimmed_sub a b, value_sub enough⟩, ?_⟩
    exact isSome_of_map (limbsValue_subLimbs a.limbs b.limbs (by decide) enough)

/-- Factors whose limbs are as large as they can be: the sum of a limb, a product and a carry
reaches the largest word. -/
theorem limbs_exact_largest :
    let a : Natural := ⟨[0xFFFFFFFF, 0xFFFFFFFF]⟩
    let b : Natural := ⟨[0xFFFFFFFF]⟩
    a.Trimmed ∧ b.Trimmed ∧ b.value ≤ a.value ∧
      (a.mul b).Denotes (0xFFFFFFFFFFFFFFFF * 0xFFFFFFFF) ∧
      (a.sub b).Denotes (0xFFFFFFFFFFFFFFFF - 0xFFFFFFFF) ∧ a.bit 63 = true ∧ a.cmp b = .gt := by
  intro a b
  have trimmed : a.Trimmed := by decide
  have trimmed' : b.Trimmed := by decide
  have left : a.value = 0xFFFFFFFFFFFFFFFF := by decide
  have right : b.value = 0xFFFFFFFF := by decide
  obtain ⟨-, ⟨product, -⟩, difference, -, -, -, bit, order⟩ := limbs_exact trimmed trimmed' 0 63
  rw [left, right] at product difference order
  rw [left] at bit
  rw [left, right]
  exact ⟨trimmed, trimmed', by decide, product, (difference (by decide)).1, bit.trans (by decide),
    order.trans (by decide)⟩

end Natural

end ContractTyping
