import ContractTyping.Proofs.Exact.Limit
import Mathlib.Data.Nat.Digits.Defs

/-!
# Digits and numerals

A numeral is a list of digits, and a digit is a number below the base together with the way it is
written. What a numeral denotes does not depend on a reader; the readers are tied to it here.

* `readNumeral?_eq_some_iff`: a text is read as a number if it is a numeral of that number.
-/

namespace ContractTyping

open List Option

variable {c : Char} {base k : Nat} {text : List Char}

/-- A digit as it is written: from ten on it is a letter, which may be a capital. -/
structure Digit (base : Nat) where
  value : Fin base
  capital : Bool := false

namespace Digit

variable {base : Nat}

def char (d : Digit base) : Char :=
  if (d.value : Nat) < 10 then Char.ofNat (d.value + '0'.toNat)
  else Char.ofNat (d.value - 10 + (if d.capital then 'A' else 'a').toNat)

/-- The number that digits denote, the most significant first. -/
def number (digits : List (Digit base)) : Nat :=
  Nat.ofDigits base (digits.reverse.map fun d => (d.value : Nat))

theorem number_append (digits more : List (Digit base)) :
    number (digits ++ more) = number digits * base ^ more.length + number more := by
  unfold number
  rw [reverse_append, map_append, Nat.ofDigits_append, length_map, length_reverse]
  ring

/-- Summing up from the left gives the number denoted. -/
theorem digitsValue_eq (digits : List (Digit base)) :
    digitsValue base (digits.map fun d => (d.value : Nat)) = number digits := by
  rw [number, Nat.ofDigits_eq_foldr, map_reverse, foldr_reverse, digitsValue]
  congr
  funext value digit
  simp only [Nat.cast_id]
  ring

end Digit

/-! ## Single digits -/

/-- A character with an offset from another one is that other one moved by the offset. -/
theorem ofNat_offset {start : Char} (above : start ≤ c) :
    Char.ofNat (c.toNat - start.toNat + start.toNat) = c := by
  have above : start.toNat ≤ c.toNat := above
  rw [Nat.sub_add_cancel above, Char.ofNat_toNat]

/-- A character that has a value is a written digit. -/
theorem exists_char (value : Fin base) (found : digitValue? c = some value) :
    ∃ capital, Digit.char ⟨value, capital⟩ = c := by
  have offset {start : Char} {k : Nat} (moved : c.toNat - start.toNat + 10 = k) :
      ¬ k < 10 ∧ k - 10 = c.toNat - start.toNat := by
    omega
  unfold digitValue? at found
  split at found
  · next decimal =>
    have value := some.inj found
    have below : c.toNat ≤ '9'.toNat := decimal.2
    have small : c.toNat - '0'.toNat < 10 := by
      have nine : '9'.toNat = '0'.toNat + 9 := rfl
      omega
    refine ⟨false, ?_⟩
    rw [Digit.char, ← value, if_pos small, ofNat_offset decimal.1]
  · split at found
    · next letter =>
      obtain ⟨large, value⟩ := offset (some.inj found)
      refine ⟨false, ?_⟩
      rw [Digit.char, if_neg large, value]
      exact ofNat_offset letter.1
    · split at found
      · next letter =>
        obtain ⟨large, value⟩ := offset (some.inj found)
        refine ⟨true, ?_⟩
        rw [Digit.char, if_neg large, value]
        exact ofNat_offset letter.1
      · cases found

theorem digitValue?_char_of_lt : ∀ k < 36, ∀ capital,
    digitValue? (Digit.char (⟨Fin.last k, capital⟩ : Digit (k + 1))) = some k := by decide

section

variable {base : Nat} (small : base ≤ 36)

include small

theorem digit?_char (d : Digit base) : digit? base d.char = some d.value := by
  have value : digitValue? d.char = some d.value :=
    digitValue?_char_of_lt d.value (Nat.lt_of_lt_of_le d.value.isLt small) d.capital
  simp [digit?, value]

theorem digit?_eq_some_iff :
    digit? base c = some k ↔ ∃ d : Digit base, d.char = c ∧ d.value = k := by
  constructor
  · intro read
    obtain ⟨found, below⟩ := filter_eq_some_iff.mp read
    obtain ⟨capital, written⟩ := exists_char ⟨k, by simpa using below⟩ found
    exact ⟨_, written, rfl⟩
  · rintro ⟨d, rfl, rfl⟩
    exact digit?_char small d

/-- A character that is no digit is not among written digits. -/
theorem not_mem_chars (noDigit : digit? base c = none) (digits : List (Digit base)) :
    c ∉ digits.map Digit.char := by
  intro mem
  obtain ⟨d, -, rfl⟩ := mem_map.mp mem
  rw [digit?_char small] at noDigit
  cases noDigit

/-! ## Numerals -/

theorem mapM_digit?_eq_some_iff {values : List Nat} :
    text.mapM (digit? base) = some values ↔ ∃ digits : List (Digit base),
      text = digits.map Digit.char ∧ values = digits.map fun d => (d.value : Nat) := by
  induction text generalizing values with
  | nil =>
    constructor
    · rintro ⟨⟩
      exact ⟨[], rfl, rfl⟩
    · rintro ⟨digits, empty, rfl⟩
      rw [map_eq_nil_iff.mp empty.symm]
      rfl
  | cons c text ih =>
    rw [mapM_cons]
    constructor
    · intro read
      obtain ⟨value, first, read⟩ := bind_eq_some_iff.mp read
      obtain ⟨others, more, same⟩ := bind_eq_some_iff.mp read
      cases same
      obtain ⟨d, rfl, rfl⟩ := (digit?_eq_some_iff small).mp first
      obtain ⟨digits, rfl, rfl⟩ := ih.mp more
      exact ⟨d :: digits, rfl, rfl⟩
    · rintro ⟨digits, written, rfl⟩
      obtain ⟨d, rest, rfl, rfl, rfl⟩ := map_eq_cons_iff.mp written.symm
      rw [digit?_char small, ih.mpr ⟨rest, rfl, rfl⟩]
      rfl

/-- A text is read as a number if it is a numeral of that number. -/
theorem readNumeral?_eq_some_iff : readNumeral? base text = some k ↔ ∃ digits : List (Digit base),
      digits ≠ [] ∧ text = digits.map Digit.char ∧ k = Digit.number digits := by
  unfold readNumeral?
  split
  · next empty =>
    constructor
    · rintro ⟨⟩
    · rintro ⟨digits, present, rfl, -⟩
      rw [List.isEmpty_iff, List.map_eq_nil_iff] at empty
      exact absurd empty present
  · next present =>
    rw [map_eq_some_iff]
    constructor
    · rintro ⟨values, read, rfl⟩
      obtain ⟨digits, rfl, rfl⟩ := (mapM_digit?_eq_some_iff small).mp read
      refine ⟨digits, ?_, rfl, Digit.digitsValue_eq digits⟩
      rintro rfl
      exact present rfl
    · rintro ⟨digits, -, rfl, rfl⟩
      exact ⟨_, (mapM_digit?_eq_some_iff small).mpr ⟨digits, rfl, rfl⟩, Digit.digitsValue_eq digits⟩

theorem readNumeral?_chars {digits : List (Digit base)} (present : digits ≠ []) :
    readNumeral? base (digits.map Digit.char) = some (Digit.number digits) :=
  (readNumeral?_eq_some_iff small).mpr ⟨digits, present, rfl, rfl⟩

end

namespace Natural

/-- What one more digit does to a number that is read into limbs. -/
theorem value_addDigit {digit : Nat} (small : base < 2 ^ 32) (below : digit < base) (n : Natural) :
    ((n.mulSmall base.toUInt32).add (ofWord digit.toUInt64)).value = n.value * base + digit := by
  have factor : base.toUInt32.toUInt64.toNat = base := by
    exact Nat.mod_eq_of_lt small
  have word : digit.toUInt64.toNat = digit := toNat_toUInt64 (by omega)
  rw [value_add, mulSmall, value_mul, value_ofWord, value_ofWord, factor, word, Nat.mul_comm]

/-- Reads one more digit. -/
def addDigit? (base : Nat) (n : Natural) (c : Char) : Option Natural := do
  let digit ← digit? base c
  pure ((n.mulSmall base.toUInt32).add (ofWord digit.toUInt64))

theorem ofDigits?_eq (base : Nat) (text : List Char) :
    ofDigits? base text = if text.isEmpty then none else text.foldlM (addDigit? base) zero := rfl

theorem value_foldlM_addDigit? (small : base < 2 ^ 32) (text : List Char) (start : Natural) :
    (text.foldlM (addDigit? base) start).map value = (text.mapM (digit? base)).map fun digits =>
      digits.foldl (fun value digit => value * base + digit) start.value := by
  induction text generalizing start with
  | nil => rfl
  | cons c text ih =>
    rw [foldlM_cons, mapM_cons, addDigit?]
    cases read : digit? base c with
    | none => rfl
    | some digit =>
      have below : digit < base := by simpa using (filter_eq_some_iff.mp read).2
      have next := ih ((start.mulSmall base.toUInt32).add (ofWord digit.toUInt64))
      rw [value_addDigit small below] at next
      refine next.trans ?_
      cases text.mapM (digit? base) <;> rfl

/-- Reading a numeral into limbs gives the number that plain reading gives. -/
theorem value_ofDigits? (small : base < 2 ^ 32) (text : List Char) :
    (ofDigits? base text).map value = readNumeral? base text := by
  rw [ofDigits?_eq]
  unfold readNumeral?
  split
  · rfl
  · exact value_foldlM_addDigit? small text zero

section

variable {base : Nat} (small : base ≤ 36)

include small

theorem ofDigits?_chars {digits : List (Digit base)} (present : digits ≠ []) :
    ∃ n, ofDigits? base (digits.map Digit.char) = some n ∧ n.Denotes (Digit.number digits) := by
  have fits : base < 2 ^ 32 := by omega
  have read := value_ofDigits? fits (digits.map Digit.char)
  rw [readNumeral?_chars small present, map_eq_some_iff] at read
  obtain ⟨n, found, value⟩ := read
  exact ⟨n, found, trimmed_ofDigits? found, value⟩

theorem exists_digits_of_ofDigits? {n : Natural} (read : ofDigits? base text = some n) :
    ∃ digits : List (Digit base), digits ≠ [] ∧ text = digits.map Digit.char := by
  have fits : base < 2 ^ 32 := by omega
  have plain := value_ofDigits? fits text
  rw [read, map_some, eq_comm, readNumeral?_eq_some_iff small] at plain
  obtain ⟨digits, present, written, -⟩ := plain
  exact ⟨digits, present, written⟩

end

end Natural

/-! ## Bounded decimals -/

/-- A plus sign, if there is one. -/
def plusSign (plus : Bool) : List Char := if plus then ['+'] else []

theorem readBounded?_plus (bound : Nat) (text : List Char) :
    readBounded? bound ('+' :: text) = (readNumeral? 10 text).filter (· < bound) := rfl

theorem readBounded?_of_head_ne (noSign : text.head? ≠ some '+') (bound : Nat) :
    readBounded? bound text = (readNumeral? 10 text).filter (· < bound) := by
  cases text with
  | nil => rfl
  | cons c rest =>
    have other : c ≠ '+' := by simpa using noSign
    simp [readBounded?, other]

theorem head?_chars_ne (digits : List (Digit 10)) : (digits.map Digit.char).head? ≠ some '+' := by
  intro first
  exact not_mem_chars (by decide) (by decide) digits (mem_of_mem_head? first)

theorem readBounded?_chars (bound : Nat) (plus : Bool) {digits : List (Digit 10)}
    (present : digits ≠ []) : readBounded? bound (plusSign plus ++ digits.map Digit.char) =
      (some (Digit.number digits)).filter (· < bound) := by
  rw [← readNumeral?_chars (by decide) present]
  cases plus with
  | true => exact readBounded?_plus bound _
  | false => exact readBounded?_of_head_ne (head?_chars_ne digits) bound

/-- A bounded decimal is a numeral, with a plus sign in front or without. -/
theorem exists_digits_of_readBounded? {bound : Nat} (read : readBounded? bound text = some k) :
    ∃ plus, ∃ digits : List (Digit 10), digits ≠ [] ∧
      text = plusSign plus ++ digits.map Digit.char := by
  have numeral {text : List Char} (read : (readNumeral? 10 text).filter (· < bound) = some k) :
      ∃ digits : List (Digit 10), digits ≠ [] ∧ text = digits.map Digit.char := by
    obtain ⟨plain, -⟩ := filter_eq_some_iff.mp read
    obtain ⟨digits, present, written, -⟩ := (readNumeral?_eq_some_iff (by decide)).mp plain
    exact ⟨digits, present, written⟩
  by_cases signed : text.head? = some '+'
  · obtain ⟨rest, rfl⟩ := head?_eq_some_iff.mp signed
    obtain ⟨digits, present, rfl⟩ := numeral read
    exact ⟨true, digits, present, rfl⟩
  · rw [readBounded?_of_head_ne signed] at read
    obtain ⟨digits, present, rfl⟩ := numeral read
    exact ⟨false, digits, present, rfl⟩

end ContractTyping
