import ContractTyping.Proofs.Exact.Division
import ContractTyping.Proofs.Literal.Digit
import Mathlib.Data.Nat.Digits.Lemmas

/-!
# Decimal numerals

The decimal numeral of a number is put together from groups of nine digits. These are the digits of
the number in base `1000000000` (`Natural.groups_eq`): each round of divisions takes one group off,
and there are rounds enough for all of them (`Natural.groupRounds_eq`). All groups but the first are
written with nine digits, so that the text is a numeral of the number without leading zeros, and
reading gives the number back (`Natural.numerals_exact`).
-/

namespace ContractTyping

open List Nat

namespace Natural

variable {v : Nat} {n : Natural} (k : Nat)

/-! ## Groups -/

/-- The groups of a number, the least significant first. -/
def groupsOf (v : Nat) : List UInt64 := (digits 1000000000 v).map toUInt64

theorem groupsOf_zero : groupsOf 0 = [] := rfl

theorem groupsOf_pos (positive : 0 < v) :
    groupsOf v = (v % 1000000000).toUInt64 :: groupsOf (v / 1000000000) := by
  rw [groupsOf, digits_def' (by decide) positive, map_cons, groupsOf]

theorem groupsOf_of_lt (positive : 0 < v) (small : v < 1000000000) : groupsOf v = [v.toUInt64] := by
  rw [groupsOf_pos positive, mod_eq_of_lt small, div_eq_of_lt small, groupsOf_zero]

/-- In enough rounds a number is split into its groups. Each round takes the least significant group
off, and what is left is the quotient. -/
theorem groupRounds_eq {rounds : Nat} (trimmed : n.Trimmed)
    (enough : n.value < 1000000000 ^ rounds) : groupRounds rounds n = groupsOf n.value := by
  induction rounds generalizing n with
  | zero =>
    rw [pow_zero, lt_one_iff] at enough
    rw [enough]
    rfl
  | succ rounds ih =>
    rw [groupRounds]
    split
    · next empty => rw [(isZero_iff trimmed).mp empty, groupsOf_zero]
    · next some =>
      have positive : 0 < n.value := Nat.pos_of_ne_zero fun none =>
        some ((isZero_iff trimmed).mpr none)
      obtain ⟨parts, below⟩ :=
        divideLimb_exact (show 0 < groupSize.toNat by decide) (by decide) n.limbs
      have size : groupSize.toNat = 1000000000 := rfl
      rw [size] at parts below
      have quotient : (ofLimbs (divideLimb groupSize n.limbs).1).value = n.value / 1000000000 := by
        rw [value_ofLimbs, value]
        omega
      have group : (divideLimb groupSize n.limbs).2 = (n.value % 1000000000).toUInt64 := by
        rw [← UInt64.toNat_inj, toNat_toUInt64 (by omega), value]
        omega
      have fewer : n.value / 1000000000 < 1000000000 ^ rounds :=
        Nat.div_lt_of_lt_mul (pow_succ' 1000000000 rounds ▸ enough)
      rw [groupsOf_pos positive, ← group, ← quotient]
      exact congrArg _ (ih (trimmed_ofLimbs _) (quotient ▸ fewer))

theorem groups_eq (trimmed : n.Trimmed) : n.groups = groupsOf n.value := by
  refine groupRounds_eq trimmed (Nat.lt_of_lt_of_le (limbsValue_lt n.limbs) ?_)
  rw [pow_mul, pow_mul]
  exact Nat.pow_le_pow_left (by decide) _

/-! ## Texts -/

theorem digitChar_eq : ∀ k : Fin 10, digitChar k = Digit.char ⟨k, false⟩ := by decide

/-- The numeral of a number, digit by digit, without leading zeros. -/
theorem exists_digits_toDigits : ∃ digits : List (Digit 10), toDigits 10 k = digits.map Digit.char ∧
    Digit.number digits = k ∧ (k ≠ 0 → ∃ d rest, digits = d :: rest ∧ (d.value : Nat) ≠ 0) := by
  induction k using Nat.strongRecOn with
  | ind k ih =>
    rw [toDigits_eq_if (by decide)]
    split
    · next small =>
      refine ⟨[⟨⟨k, small⟩, false⟩],
        ?_, by simp [Digit.number], fun positive => ⟨_, [], rfl, positive⟩⟩
      exact congrArg (fun c => [c]) (digitChar_eq ⟨k, small⟩)
    · next large =>
      obtain ⟨digits, chars, number, leading⟩ := ih (k / 10) (by omega)
      obtain ⟨d, rest, rfl, positive⟩ := leading (by omega)
      have last : k % 10 < 10 := mod_lt k (by decide)
      refine ⟨d :: rest ++ [⟨⟨k % 10, last⟩, false⟩], ?_, ?_, fun _ => ⟨d, _, rfl, positive⟩⟩
      · rw [chars, digitChar_eq ⟨k % 10, last⟩, map_append]
        rfl
      · rw [Digit.number_append, number]
        simp [Digit.number]
        omega

theorem number_zeros : Digit.number (replicate k (⟨0, false⟩ : Digit 10)) = 0 := by
  simp [Digit.number]

theorem toList_zeros : ("".pushn '0' k).toList = replicate k '0' := by
  rw [String.pushn_eq_repeat_push]
  induction k with
  | zero => rfl
  | succ k ih => rw [Nat.repeat, String.toList_push, ih, replicate_succ']

/-- A group is written with nine digits. -/
theorem exists_digits_groupText {group : UInt64} (small : group.toNat < 1000000000) :
    ∃ digits : List (Digit 10), (groupText group).toList = digits.map Digit.char ∧
      digits.length = 9 ∧ Digit.number digits = group.toNat := by
  obtain ⟨digits, chars, number, -⟩ := exists_digits_toDigits group.toNat
  have length := congrArg length chars
  have short : (toDigits 10 group.toNat).length ≤ 9 :=
    (length_toDigits_le_iff (by decide) (by decide)).mpr small
  rw [length_map] at length
  refine ⟨replicate (9 - digits.length) ⟨0, false⟩ ++ digits, ?_, ?_, ?_⟩
  · have zero : Digit.char (⟨0, false⟩ : Digit 10) = '0' := rfl
    rw [map_append, map_replicate, ← chars, ← length, zero]
    simp [groupText, repr_eq_ofList_toDigits, toList_zeros]
  · rw [length_append, length_replicate]
    omega
  · rw [Digit.number_append, number_zeros, number, zero_mul, zero_add]

/-- Each group that is written next adds nine digits. -/
theorem exists_digits_foldl {rest : List UInt64} (small : ∀ group ∈ rest, group.toNat < 1000000000)
    {text : String} {digits : List (Digit 10)} (written : text.toList = digits.map Digit.char) :
    ∃ more, (rest.foldl (fun text group => text ++ groupText group) text).toList =
      (digits ++ more).map Digit.char ∧ Digit.number (digits ++ more) =
        rest.foldl (fun value group => value * 1000000000 + group.toNat) (Digit.number digits) := by
  induction rest generalizing text digits with
  | nil => exact ⟨[], by rw [append_nil]; exact written, by rw [append_nil]; rfl⟩
  | cons group rest ih =>
    obtain ⟨first, others⟩ := forall_mem_cons.mp small
    obtain ⟨nine, chars, length, number⟩ := exists_digits_groupText first
    have longer : (text ++ groupText group).toList = (digits ++ nine).map Digit.char := by
      rw [String.toList_append, written, chars, map_append]
    obtain ⟨more, text, value⟩ := ih others longer
    rw [append_assoc] at text value
    refine ⟨nine ++ more, text, value.trans ?_⟩
    rw [Digit.number_append digits nine, length, number]
    norm_num

/-- The groups from the most significant one on, which is not zero. -/
theorem exists_reverse_groupsOf (positive : 0 < v) :
    ∃ top rest, (groupsOf v).reverse = top :: rest ∧
    top.toNat ≠ 0 ∧ (∀ group ∈ rest, group.toNat < 1000000000) ∧
    rest.foldl (fun value group => value * 1000000000 + group.toNat) top.toNat = v := by
  induction v using Nat.strongRecOn with
  | ind v ih =>
    by_cases small : v < 1000000000
    · have word : v.toUInt64.toNat = v := toNat_toUInt64 (by omega)
      exact ⟨v.toUInt64,
        [], by rw [groupsOf_of_lt positive small]; rfl, by omega, forall_mem_nil _, word⟩
    · obtain ⟨top, rest, groups, leading, below, value⟩ := ih (v / 1000000000) (by omega) (by omega)
      have word : (v % 1000000000).toUInt64.toNat = v % 1000000000 := toNat_toUInt64 (by omega)
      refine ⟨top, rest ++ [(v % 1000000000).toUInt64], ?_, leading, ?_, ?_⟩
      · rw [groupsOf_pos positive, reverse_cons, groups]
        rfl
      · exact forall_mem_append.mpr ⟨below, forall_mem_singleton.mpr (by omega)⟩
      · rw [foldl_append, foldl_cons, foldl_nil]
        omega

theorem exists_digits_decimal (trimmed : n.Trimmed) : ∃ digits : List (Digit 10), digits ≠ [] ∧
    n.decimal.toList = digits.map Digit.char ∧ Digit.number digits = n.value ∧
    (n.value = 0 → n.decimal = "0") ∧
    (n.value ≠ 0 → ∃ d rest, digits = d :: rest ∧ (d.value : Nat) ≠ 0) := by
  rw [decimal, groups_eq trimmed]
  rcases Nat.eq_zero_or_pos n.value with none | positive
  · rw [none]
    exact ⟨[⟨0, false⟩], cons_ne_nil _ _, rfl, rfl, fun _ => rfl, fun some => absurd rfl some⟩
  · obtain ⟨top, rest, groups, leading, below, value⟩ := exists_reverse_groupsOf positive
    obtain ⟨digits, chars, number, first⟩ := exists_digits_toDigits top.toNat
    obtain ⟨d, others, rfl, nonzero⟩ := first leading
    obtain ⟨more, text, total⟩ := exists_digits_foldl below (Nat.toList_repr.trans chars)
    rw [groups]
    exact ⟨d :: others ++ more, cons_ne_nil _ _, text, total.trans (number ▸ value),
      fun none => absurd none positive.ne', fun _ => ⟨d, _, rfl, nonzero⟩⟩

/-- **Numerals.** The text of a number in normal form is a decimal numeral of it, without leading
zeros, and reading this gives the number back. In each base, a numeral of one or more digits is read
as the number it denotes, in normal form, and nothing else is read. -/
theorem numerals_exact {n : Natural} (trimmed : n.Trimmed) {base : Nat} (most : base ≤ 36)
    (text : List Char) :
    (∃ digits : List (Digit 10), n.decimal.toList = digits.map Digit.char ∧
      Digit.number digits = n.value ∧
      (n.value = 0 → n.decimal = "0") ∧
        (n.value ≠ 0 → ∃ d rest, digits = d :: rest ∧ (d.value : Nat) ≠ 0)) ∧
    ofDigits? 10 n.decimal.toList = some n ∧
    (∀ digits : List (Digit base), digits ≠ [] → text = digits.map Digit.char →
      ∃ m, ofDigits? base text = some m ∧ m.Denotes (Digit.number digits)) ∧
    ((∀ digits : List (Digit base), digits ≠ [] → text ≠ digits.map Digit.char) →
      ofDigits? base text = none) := by
  obtain ⟨digits, present, chars, number, zero, leading⟩ := exists_digits_decimal trimmed
  refine ⟨⟨digits, chars, number, zero, leading⟩, ?_, ?_, fun noNumeral => ?_⟩
  · obtain ⟨m, read, denotes⟩ := ofDigits?_chars (by decide) present
    rw [chars, read, value_injective denotes.trimmed trimmed (denotes.value.trans number)]
  · rintro digits present rfl
    exact ofDigits?_chars most present
  · refine Option.eq_none_iff_forall_ne_some.mpr fun m read => ?_
    obtain ⟨digits, present, chars⟩ := exists_digits_of_ofDigits? most read
    exact noNumeral digits present chars

/-- The second group has zeros in front. -/
theorem numerals_exact_inner_zeros :
    (⟨[705032711, 1]⟩ : Natural).decimal = "5000000007" ∧
    ofDigits? 10 "5000000007".toList = some ⟨[705032711, 1]⟩ ∧
      ∃ m, ofDigits? 16 "fF".toList = some m ∧ m.Denotes 255 := by
  have text : (⟨[705032711, 1]⟩ : Natural).decimal = "5000000007" := by decide
  obtain ⟨-, back, read, -⟩ :=
    numerals_exact (n := ⟨[705032711, 1]⟩) (by decide) (show 16 ≤ 36 by decide) "fF".toList
  exact ⟨text, text ▸ back, read [⟨15, false⟩, ⟨15, true⟩] (cons_ne_nil _ _) (by decide)⟩

end Natural

end ContractTyping
