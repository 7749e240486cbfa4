import ContractTyping.Proofs.Literal.Digit

/-!
# How numbers are spelled

The spelling of a number literal, said without a reader: a `Spelling` is a tree of digits, points
and signs that writes itself as characters (`Spelling.chars`) and denotes a rational number
(`Spelling.value`). A text spells a number if it becomes these characters when its underscores are
taken out, and if the underscores stand only between other characters, one at a time
(`Spelling.SpelledBy`).

In front of the digits of an exponent there may be a plus sign, behind a minus sign as well: `1e+5`,
`1e-+5`.
-/

namespace ContractTyping

open List

namespace NumberLiteral

open Fraction (WithinLimit)
variable {c : Char} (e : Exponent)

/-- Digits with a point or without: `12`, `1.5`, `.5`. There is a digit, and one behind a point. -/
inductive Mantissa
  | whole (digits : List (Digit 10)) (present : digits ≠ [])
  | pointed (before behind : List (Digit 10)) (present : behind ≠ [])

namespace Mantissa

def chars : Mantissa → List Char
  | whole digits _ => digits.map Digit.char
  | pointed before behind _ => before.map Digit.char ++ '.' :: behind.map Digit.char

/-- The number of digits behind the point. -/
def fractionDigits : Mantissa → Nat
  | whole _ _ => 0
  | pointed _ behind _ => behind.length

/-- The number denoted. -/
def value : Mantissa → ℚ
  | whole digits _ => Digit.number digits
  | pointed before behind _ => Digit.number before + Digit.number behind / 10 ^ behind.length

end Mantissa

/-- The exponent behind a mantissa: `e18`, `E-2`. -/
structure Exponent where
  capital : Bool
  negative : Bool
  plus : Bool
  digits : List (Digit 10)
  present : digits ≠ []

/-- A minus sign, if there is one. -/
def minusSign (negative : Bool) : List Char := if negative then ['-'] else []

namespace Exponent

/-- What stands behind the letter. -/
def tail (e : Exponent) : List Char :=
  minusSign e.negative ++ (plusSign e.plus ++ e.digits.map Digit.char)

def chars (e : Exponent) : List Char := (if e.capital then 'E' else 'e') :: e.tail

/-- The exponent without its sign. -/
def power (e : Exponent) : Nat := Digit.number e.digits

/-- The exponent denoted. -/
def value (e : Exponent) : ℤ := if e.negative then -(e.power : ℤ) else e.power

end Exponent

/-- A number as it is spelled without underscores. -/
inductive Spelling
  | hexadecimal (capital : Bool) (digits : List (Digit 16)) (present : digits ≠ [])
  | decimal (mantissa : Mantissa) (exponent : Option Exponent)

namespace Spelling

def chars : Spelling → List Char
  | hexadecimal capital digits _ => '0' :: (if capital then 'X' else 'x') :: digits.map Digit.char
  | decimal mantissa exponent => mantissa.chars ++ (exponent.map Exponent.chars).getD []

/-- The number denoted. -/
def value : Spelling → ℚ
  | hexadecimal _ digits _ => Digit.number digits
  | decimal mantissa exponent => mantissa.value * 10 ^ (exponent.map Exponent.value).getD 0

/-- The number of digits behind the point. -/
def fractionDigits : Spelling → Nat
  | hexadecimal _ _ _ => 0
  | decimal mantissa _ => mantissa.fractionDigits

/-- The exponent without its sign. -/
def power : Spelling → Nat
  | hexadecimal _ _ _ => 0
  | decimal _ exponent => (exponent.map Exponent.power).getD 0

/-- Whether there is a plus sign before the digits of the exponent. -/
def hasPlus : Spelling → Bool
  | hexadecimal _ _ _ => false
  | decimal _ exponent => (exponent.map Exponent.plus).getD false

/-- The limits on a number literal: on the power of ten below the fraction, on the exponent and its
power of ten, and on the number itself. -/
structure Bounded (n : Spelling) : Prop where
  fraction : (10 ^ n.fractionDigits).size ≤ Natural.maxBits
  word : n.power < UInt64.size
  scale : (10 ^ n.power).size ≤ Natural.maxBits
  number : WithinLimit n.value

end Spelling

/-- Underscores stand only between other characters, one at a time. -/
def Grouped (text : List Char) : Prop :=
  text.head? ≠ some '_' ∧ text.getLast? ≠ some '_' ∧ ¬ ['_', '_'] <:+: text

/-- A text spells a number, with underscores between its characters. -/
def Spelling.SpelledBy (n : Spelling) (text : String) : Prop :=
  Grouped text.toList ∧ text.toList.filter (· != '_') = n.chars

/-! ## Characters of spellings -/

variable (noDigit : digit? 10 c = none)

include noDigit

theorem Mantissa.not_mem_chars (noPoint : c ≠ '.') (m : Mantissa) : c ∉ m.chars := by
  have missing := ContractTyping.not_mem_chars (by decide) noDigit
  cases m with
  | whole digits present => exact missing digits
  | pointed before behind present =>
    intro mem
    rcases mem_append.mp mem with inBefore | later
    · exact missing before inBefore
    · exact (mem_cons.mp later).elim noPoint (missing behind)

theorem Exponent.mem_chars_iff (e : Exponent) :
    c ∈ e.chars ↔ c = (if e.capital then 'E' else 'e') ∨ c ∈ minusSign e.negative ∨
    c ∈ plusSign e.plus := by
  have missing := ContractTyping.not_mem_chars (by decide) noDigit e.digits
  rw [chars, tail, mem_cons, mem_append, mem_append, or_iff_left missing]

omit noDigit in
theorem Exponent.plus_mem_chars_iff : '+' ∈ e.chars ↔ e.plus = true := by
  rw [mem_chars_iff (by decide)]
  cases e.capital <;> cases e.negative <;> simp [minusSign, plusSign]

theorem Exponent.not_mem_chars (other : c ∉ ['e', 'E', '-', '+']) (e : Exponent) : c ∉ e.chars := by
  rw [mem_chars_iff noDigit]
  simp only [mem_cons, not_mem_nil, or_false, not_or] at other
  cases e.capital <;> cases e.negative <;> cases e.plus <;> simp [minusSign, plusSign, other]

omit noDigit in
theorem Exponent.numeral_unsigned :
    (plusSign e.plus ++ e.digits.map Digit.char).head? ≠ some '-' := by
  intro first
  rcases mem_append.mp (mem_of_mem_head? first) with sign | digit
  · cases plus : e.plus <;> simp [plusSign, plus] at sign
  · exact ContractTyping.not_mem_chars (by decide) (by decide) e.digits digit

theorem Spelling.not_mem_decimal (other : c ∉ ['.', 'e', 'E', '-', '+']) (m : Mantissa)
    (e : Option Exponent) : c ∉ (decimal m e).chars := by
  obtain ⟨noPoint, other⟩ := not_or.mp (mem_cons.not.mp other)
  have inMantissa := m.not_mem_chars noDigit noPoint
  cases e with
  | none => simpa [chars] using inMantissa
  | some e => simp [chars, inMantissa, e.not_mem_chars noDigit other]

omit noDigit

theorem Spelling.plus_mem_chars_iff (n : Spelling) : '+' ∈ n.chars ↔ n.hasPlus = true := by
  cases n with
  | hexadecimal capital digits present =>
    have missing :=
      ContractTyping.not_mem_chars (by decide) (by decide : digit? 16 '+' = none) digits
    cases capital <;> simp [chars, hasPlus, missing]
  | decimal m e =>
    have inMantissa := m.not_mem_chars (by decide : digit? 10 '+' = none) (by decide)
    cases e with
    | none => simp [chars, hasPlus, inMantissa]
    | some e => simp [chars, hasPlus, inMantissa, e.plus_mem_chars_iff]

theorem Mantissa.chars_ne_nil (m : Mantissa) : m.chars ≠ [] := by
  cases m with
  | whole digits present => simpa [chars] using present
  | pointed before behind present => simp [chars]

end NumberLiteral

end ContractTyping
