import ContractTyping.Proofs.Exact.Fraction
import Mathlib.Data.Int.Bitwise

/-!
# Bitwise operations

An integer is read as a two's complement word without end, whose bits from some place up are all
equal to the sign (`Int.testBit`). A word of finite width stands for it if the sign shows in the top
bit: then the bit at any index is the bit of the word at that index or, beyond the top, the top bit
itself. Since both operands and the result are read in this way, an operation on single bits can be
done limb by limb.

* `Integer.testBit_bitwise`: integers of any sign are combined bit by bit.
* `bitwise_twosComplement`: so are the values of fractions that are integers; the complement is
  exact.
-/

namespace ContractTyping

open Natural Nat Bool
variable {width : Nat}

/-! ## Limbs -/

namespace Natural

/-- An operation on limbs combines each bit of one with the bit of the other at the same place. -/
def ActsBitwise (op : UInt32 → UInt32 → UInt32) (combine : Bool → Bool → Bool) : Prop :=
  ∀ (a b : UInt32) (i : Nat), (op a b).toNat.testBit i = combine (a.toNat.testBit i)
    (b.toNat.testBit i)

theorem actsBitwise_and : ActsBitwise (· &&& ·) and := by
  intro a b i
  rw [UInt32.toNat_and, testBit_and]

theorem actsBitwise_or : ActsBitwise (· ||| ·) or := by
  intro a b i
  rw [UInt32.toNat_or, testBit_or]

theorem actsBitwise_xor : ActsBitwise (· ^^^ ·) xor := by
  intro a b i
  rw [UInt32.toNat_xor, testBit_xor]

variable {op : UInt32 → UInt32 → UInt32} {combine : Bool → Bool → Bool}

/-- There are no bits beyond a limb, so nothing may become of two missing bits. -/
theorem ActsBitwise.combine_false (acts : ActsBitwise op combine) :
    combine false false = false := by
  have beyond := acts 0 0 32
  rw [testBit_lt_two_pow (op 0 0).toNat_lt] at beyond
  exact beyond.symm

theorem testBit_limbsValue_cons (limb : UInt32) (rest : List UInt32) (i : Nat) :
    (limbsValue (limb :: rest)).testBit i =
      if i < 32 then limb.toNat.testBit i else (limbsValue rest).testBit (i - 32) := by
  rw [limbsValue_cons, add_comm, testBit_two_pow_mul_add _ limb.toNat_lt]

/-- A limb list that is combined with nothing. -/
theorem testBit_map {change : UInt32 → UInt32} {f : Bool → Bool} (missing : f false = false)
    (acts : ∀ (a : UInt32) (i : Nat), (change a).toNat.testBit i = f (a.toNat.testBit i))
    (limbs : List UInt32) (i : Nat) :
    (limbsValue (limbs.map change)).testBit i = f ((limbsValue limbs).testBit i) := by
  induction limbs generalizing i with
  | nil => simp [missing]
  | cons limb rest ih =>
    rw [List.map_cons, testBit_limbsValue_cons, testBit_limbsValue_cons, acts, ih]
    split
    · rfl
    · rfl

variable (acts : ActsBitwise op combine)

include acts

theorem testBit_zipLimbs (limbs others : List UInt32) (i : Nat) :
    (limbsValue (zipLimbs op limbs others)).testBit i =
      combine ((limbsValue limbs).testBit i) ((limbsValue others).testBit i) := by
  have zero : ∀ i, (0 : UInt32).toNat.testBit i = false := zero_testBit
  induction limbs generalizing others i with
  | nil =>
    rw [limbsValue_nil, zero_testBit]
    exact testBit_map acts.combine_false (fun a i => by rw [acts, zero]) others i
  | cons limb rest ih =>
    cases others with
    | nil =>
      rw [zipLimbs, limbsValue_nil, zero_testBit]
      · exact testBit_map (f := (combine · false)) acts.combine_false
          (fun a i => by rw [acts, zero]) _ i
      · exact List.cons_ne_nil limb rest
    | cons other rest' =>
      rw [zipLimbs, testBit_limbsValue_cons, testBit_limbsValue_cons,
        testBit_limbsValue_cons, acts, ih]
      split
      · rfl
      · rfl

/-- Limbs are combined bit by bit. -/
theorem testBit_bitwise (a b : Natural) (i : Nat) :
    (bitwise op a b).value.testBit i = combine (a.value.testBit i) (b.value.testBit i) := by
  rw [bitwise, value_ofLimbs]
  exact testBit_zipLimbs acts a.limbs b.limbs i

/-- The combination of two numbers is no longer than they are. -/
theorem value_bitwise_lt {a b : Natural} (left : a.value < 2 ^ width)
    (right : b.value < 2 ^ width) : (bitwise op a b).value < 2 ^ width := by
  refine lt_pow_two_of_testBit _ fun i beyond => ?_
  have higher : 2 ^ width ≤ 2 ^ i := Nat.pow_le_pow_right (by decide) beyond
  rw [testBit_bitwise acts, testBit_lt_two_pow (left.trans_le higher),
    testBit_lt_two_pow (right.trans_le higher), acts.combine_false]

end Natural

/-! ## Words of finite width -/

namespace Integer

variable {n : Nat} {x : Integer}

/-- From some place up all bits of a natural number are zero. -/
theorem testBit_min {top : Nat} (below : n < 2 ^ top) (i : Nat) :
    n.testBit (min i top) = n.testBit i := by
  rcases le_total i top with inside | beyond
  · rw [min_eq_left inside]
  · have higher : 2 ^ top ≤ 2 ^ i := Nat.pow_le_pow_right (by decide) beyond
    rw [min_eq_right beyond, testBit_lt_two_pow below, testBit_lt_two_pow (below.trans_le higher)]

/-- The bits of a negative number are those of the number one below its magnitude, inverted. -/
theorem testBit_neg (positive : n ≠ 0) (i : Nat) : (-(n : ℤ)).testBit i = !(n - 1).testBit i := by
  obtain ⟨m, rfl⟩ := exists_eq_succ_of_ne_zero positive
  rfl

theorem value_one_shl (width : Nat) : (one.shl width).value = 2 ^ width := by
  rw [value_shl, value_one, one_mul]

theorem value_toTwosComplement_lt (canonical : x.Canonical) (room : x.magnitude.value < 2 ^ width) :
    (x.toTwosComplement width).value < 2 ^ width := by
  unfold toTwosComplement
  cases sign : x.negative with
  | false => exact room
  | true =>
    rw [if_pos rfl, value_sub (by rw [value_one_shl]; exact room.le), value_one_shl]
    exact Nat.sub_lt (Nat.two_pow_pos width) (Nat.pos_of_ne_zero (canonical.magnitude_ne_zero sign))

/-- A word wider than the magnitude shows the bits of an integer, with the sign in the top bit. -/
theorem testBit_toTwosComplement (canonical : x.Canonical) (positive : 0 < width)
    (room : x.magnitude.value < 2 ^ (width - 1)) (i : Nat) :
    (x.toTwosComplement width).value.testBit (min i (width - 1)) = x.value.testBit i := by
  unfold toTwosComplement value
  cases sign : x.negative with
  | false =>
    exact testBit_min room i
  | true =>
    have nonzero := canonical.magnitude_ne_zero sign
    have wider : x.magnitude.value < 2 ^ width :=
      room.trans_le (Nat.pow_le_pow_right (by decide) (Nat.sub_le _ _))
    have inside : min i (width - 1) < width :=
      (Nat.min_le_right _ _).trans_lt (Nat.sub_lt positive Nat.one_pos)
    have below : x.magnitude.value - 1 < 2 ^ (width - 1) := (Nat.sub_le _ _).trans_lt room
    have word : 2 ^ width - x.magnitude.value = 2 ^ width - (x.magnitude.value - 1 + 1) := by
      rw [Nat.sub_add_cancel (Nat.pos_of_ne_zero nonzero)]
    simp only [if_true]
    rw [value_sub (by rw [value_one_shl]; exact wider.le), value_one_shl, word,
      Nat.testBit_two_pow_sub_succ ((Nat.sub_le _ _).trans_lt wider), testBit_min below,
      testBit_neg nonzero, decide_eq_true inside, Bool.true_and]

/-- A word without its top bit is shorter. -/
theorem lt_of_testBit_top (room : n < 2 ^ width) (top : n.testBit (width - 1) = false) :
    n < 2 ^ (width - 1) := by
  refine lt_pow_two_of_testBit n fun i above => ?_
  rcases eq_or_lt_of_le above with same | beyond
  · rw [← same, top]
  · have higher : 2 ^ width ≤ 2 ^ i := Nat.pow_le_pow_right (by decide) (Nat.le_of_pred_lt beyond)
    exact testBit_lt_two_pow (room.trans_le higher)

/-- The integer of a word has the bits of the word, and above them the top bit again and again. -/
theorem testBit_ofTwosComplement {word : Natural} (room : word.value < 2 ^ width) (i : Nat) :
    (ofTwosComplement word width).value.testBit i = word.value.testBit (min i (width - 1)) := by
  unfold ofTwosComplement
  rw [bit_eq]
  cases top : word.value.testBit (width - 1) with
  | false =>
    rw [testBit_min (lt_of_testBit_top room top)]
    rfl
  | true =>
    have magnitude : ((one.shl width).sub word).value = 2 ^ width - word.value := by
      rw [value_sub (by rw [value_one_shl]; exact room.le), value_one_shl]
    rw [if_pos rfl, value_ofSign, if_pos rfl, magnitude, testBit_neg (Nat.sub_ne_zero_of_lt room),
      Nat.sub_sub, testBit_two_pow_sub_succ room]
    by_cases inside : i < width
    · rw [min_eq_left (le_sub_one_of_lt inside), decide_eq_true inside, Bool.true_and, Bool.not_not]
    · have beyond : width - 1 ≤ i := (sub_le _ _).trans (not_lt.mp inside)
      rw [min_eq_right beyond, top, decide_eq_false inside, Bool.false_and, Bool.not_false]

/-! ## Integers -/

variable {op : UInt32 → UInt32 → UInt32} {combine : Bool → Bool → Bool} {x y : Integer}

/-- The width of the words by which two integers are combined: one limb more than needed. -/
def wordWidth (x y : Integer) : Nat := (max x.magnitude.bits y.magnitude.bits / 32 + 2) * 32

/-- The word that two integers are combined to. -/
def combinedWord (op : UInt32 → UInt32 → UInt32) (x y : Integer) : Natural :=
  Natural.bitwise op (x.toTwosComplement (wordWidth x y)) (y.toTwosComplement (wordWidth x y))

theorem bitwise_eq (op : UInt32 → UInt32 → UInt32) (x y : Integer) :
    bitwise op x y = ofTwosComplement (combinedWord op x y) (wordWidth x y) := rfl

theorem wordWidth_pos (x y : Integer) : 0 < wordWidth x y := by
  unfold wordWidth
  omega

/-- The words leave room for the sign, also of a power of two or of full limbs. -/
theorem magnitude_lt_of_le {n : Natural} (trimmed : n.Trimmed)
    (longest : n.bits ≤ max x.magnitude.bits y.magnitude.bits) :
    n.value < 2 ^ (wordWidth x y - 1) := by
  have shorter : n.value.size ≤ wordWidth x y - 1 := by
    rw [← bits_eq trimmed]
    unfold wordWidth
    omega
  exact size_le.mp shorter

theorem value_combinedWord_lt (acts : Natural.ActsBitwise op combine) (canonical : x.Canonical)
    (canonical' : y.Canonical) : (combinedWord op x y).value < 2 ^ wordWidth x y := by
  have wider : 2 ^ (wordWidth x y - 1) ≤ 2 ^ wordWidth x y :=
    Nat.pow_le_pow_right (by decide) (Nat.sub_le _ _)
  have left := magnitude_lt_of_le canonical.1 (le_max_left _ y.magnitude.bits)
  have right := magnitude_lt_of_le canonical'.1 (le_max_right x.magnitude.bits _)
  exact value_bitwise_lt acts (value_toTwosComplement_lt canonical (left.trans_le wider))
    (value_toTwosComplement_lt canonical' (right.trans_le wider))

/-- Integers of any sign are combined bit by bit, as words without end. -/
theorem testBit_bitwise (acts : Natural.ActsBitwise op combine) (canonical : x.Canonical)
    (canonical' : y.Canonical) (i : Nat) :
    (bitwise op x y).value.testBit i = combine (x.value.testBit i) (y.value.testBit i) := by
  have positive := wordWidth_pos x y
  have left := magnitude_lt_of_le canonical.1 (le_max_left _ y.magnitude.bits)
  have right := magnitude_lt_of_le canonical'.1 (le_max_right x.magnitude.bits _)
  rw [bitwise_eq, testBit_ofTwosComplement (value_combinedWord_lt acts canonical canonical'),
    combinedWord, Natural.testBit_bitwise acts, testBit_toTwosComplement canonical positive left,
    testBit_toTwosComplement canonical' positive right]

theorem canonical_bitwise (op : UInt32 → UInt32 → UInt32) (x y : Integer) :
    (bitwise op x y).Canonical := by
  unfold bitwise ofTwosComplement
  dsimp only
  split
  · exact canonical_ofSign _ (trimmed_sub _ _)
  · exact canonical_ofSign _ (trimmed_ofLimbs _)

/-- The combination with the word cut off at its width before it is read. -/
def maskedBitwise (op : UInt32 → UInt32 → UInt32) (x y : Integer) : Integer :=
  let mask := (one.shl (wordWidth x y)).sub .one
  ofTwosComplement (Natural.bitwise (· &&& ·) (combinedWord op x y) mask) (wordWidth x y)

/-- There is nothing to cut off. -/
theorem maskedBitwise_eq (acts : Natural.ActsBitwise op combine) (canonical : x.Canonical)
    (canonical' : y.Canonical) : maskedBitwise op x y = bitwise op x y := by
  have room := value_combinedWord_lt acts canonical canonical'
  have mask : ((Natural.one.shl (wordWidth x y)).sub .one).value = 2 ^ wordWidth x y - 1 := by
    rw [value_sub, value_one_shl, value_one]
    rw [value_one_shl]
    exact Nat.one_le_two_pow
  have kept :
      Natural.bitwise (· &&& ·) (combinedWord op x y) ((Natural.one.shl (wordWidth x y)).sub .one) =
      combinedWord op x y := by
    refine Natural.value_injective (Natural.trimmed_ofLimbs _) (Natural.trimmed_ofLimbs _) ?_
    refine eq_of_testBit_eq fun i => ?_
    rw [Natural.testBit_bitwise Natural.actsBitwise_and, mask, ← testBit_and,
      and_two_pow_sub_one_eq_mod, mod_eq_of_lt room]
  rw [bitwise_eq, maskedBitwise, kept]

end Integer

/-! ## Fractions -/

namespace Fraction

variable {op : UInt32 → UInt32 → UInt32} {combine : Bool → Bool → Bool} {x y r : Fraction}

theorem lowestTerms_bitwise (given : bitwise op x y = some r) : r.LowestTerms := by
  obtain ⟨-, equal⟩ := Option.ite_none_right_eq_some.mp given
  cases equal
  exact lowestTerms_ofInteger (Integer.canonical_bitwise op _ _)

/-- The result is an integer in lowest terms, and its bits as a two's complement word without end
are combined from those of two integers. -/
def Combines (combine : Bool → Bool → Bool) (m n : ℤ) (result : Option Fraction) : Prop :=
  ∃ (r : Fraction) (z : ℤ), result = some r ∧ r.LowestTerms ∧ r.value = z ∧
    ∀ i, z.testBit i = combine (m.testBit i) (n.testBit i)

theorem bitwise_combines (acts : ActsBitwise op combine) (lowest : x.LowestTerms)
    (lowest' : y.LowestTerms) {m n : ℤ} (left : x.value = m) (right : y.value = n) :
    Combines combine m n (bitwise op x y) := by
  have integer : (x.isInteger && y.isInteger) = true := by
    rw [and_eq_true, isInteger_iff lowest, isInteger_iff lowest']
    exact ⟨⟨m, left⟩, ⟨n, right⟩⟩
  have given : bitwise op x y = some (ofInteger (Integer.bitwise op x.numerator y.numerator)) :=
    if_pos integer
  refine ⟨_, _, given, lowestTerms_bitwise given, value_ofInteger _, fun i => ?_⟩
  rw [Integer.testBit_bitwise acts lowest.1 lowest'.1, numerator_value_of_eq lowest left,
    numerator_value_of_eq lowest' right]

theorem bitwise_eq_none (lowest : x.LowestTerms) (lowest' : y.LowestTerms)
    (fractional : ¬ ((∃ m : ℤ, x.value = m) ∧ ∃ n : ℤ, y.value = n)) : bitwise op x y = none := by
  rw [← isInteger_iff lowest, ← isInteger_iff lowest', ← and_eq_true] at fractional
  exact if_neg fractional

theorem bitNot_exactly (lowest : x.LowestTerms) :
    Exactly x.bitNot (∃ m : ℤ, x.value = m) (-x.value - 1) := by
  rw [← isInteger_iff lowest, bitNot]
  have exactly := sub_exactly (lowestTerms_neg lowest) lowestTerms_one
  rw [value_neg, value_one] at exactly
  split
  · next integer => exact exactly.when integer
  · next fractional => exact .absent fun holds => fractional holds.1

end Fraction

/-- **Bitwise operations.** Integers of any sign and size are combined by and, or and exclusive or
as two's complement words without end: the result is always given, it is an integer in lowest terms,
and each of its bits is combined from the bits of the operands at the same place. Cutting a combined
word off at its width before it is read changes nothing. The complement of an integer is one below
its negation, and is missing only if that is beyond the limit. For numbers that are not integers
none of the four has a result. -/
theorem bitwise_twosComplement {x y : Fraction} (lowest : x.LowestTerms) (lowest' : y.LowestTerms) :
    (∀ m n : ℤ, x.value = m → y.value = n →
      Fraction.Combines and m n (x.bitAnd y) ∧ Fraction.Combines or m n (x.bitOr y) ∧
        Fraction.Combines xor m n (x.bitXor y)) ∧
    (¬ ((∃ m : ℤ, x.value = m) ∧ ∃ n : ℤ, y.value = n) →
      x.bitAnd y = none ∧ x.bitOr y = none ∧ x.bitXor y = none) ∧
    (∀ op combine, Natural.ActsBitwise op combine →
      Integer.maskedBitwise op x.numerator y.numerator = Integer.bitwise op x.numerator
        y.numerator) ∧
    Fraction.Exactly x.bitNot (∃ m : ℤ, x.value = m) (-x.value - 1) := by
  refine ⟨fun m n left right => ?_, fun fractional => ?_, fun op combine acts => ?_,
    Fraction.bitNot_exactly lowest⟩
  · exact ⟨Fraction.bitwise_combines Natural.actsBitwise_and lowest lowest' left right,
      Fraction.bitwise_combines Natural.actsBitwise_or lowest lowest' left right,
      Fraction.bitwise_combines Natural.actsBitwise_xor lowest lowest' left right⟩
  · exact ⟨Fraction.bitwise_eq_none lowest lowest' fractional,
      Fraction.bitwise_eq_none lowest lowest' fractional,
      Fraction.bitwise_eq_none lowest lowest' fractional⟩
  · exact Integer.maskedBitwise_eq acts lowest.1 lowest'.1

/-- A negative power of two at the end of a limb, and a number that reaches beyond it. -/
theorem bitwise_twosComplement_limb :
    let x : Fraction := ⟨⟨true, ⟨[0, 1]⟩⟩, ⟨[1]⟩⟩
    let y : Fraction := ⟨⟨false, ⟨[5, 3]⟩⟩, ⟨[1]⟩⟩
    x.LowestTerms ∧ y.LowestTerms ∧ x.value = (-4294967296 : ℤ) ∧ y.value = (12884901893 : ℤ) ∧
      Fraction.Combines and (-4294967296) 12884901893 (x.bitAnd y) ∧
      x.bitAnd y = some ⟨⟨false, ⟨[0, 3]⟩⟩, ⟨[1]⟩⟩ := by
  intro x y
  have lowest : x.LowestTerms := by decide
  have lowest' : y.LowestTerms := by decide
  have left : x.value = (-4294967296 : ℤ) := by decide +kernel
  have right : y.value = (12884901893 : ℤ) := by decide +kernel
  have combined := (bitwise_twosComplement lowest lowest').1 _ _ left right
  exact ⟨lowest, lowest', left, right, combined.1, by decide +kernel⟩

end ContractTyping
