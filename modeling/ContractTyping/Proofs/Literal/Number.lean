import ContractTyping.Proofs.Literal.Spelling
import Mathlib.Tactic.FieldSimp

/-!
# Number literals denote exact values

The reader of number literals held against their spelling.

* `literal_exact`: a text that spells a number is read as that number in lowest terms, unless one of
  the limits on its length is exceeded.
* `literal_spelled`: nothing else is read.

The digits of an exponent are read by a reader of words, which takes a plus sign in front of them.
So there are more literals than those without a plus sign (`literal_plus_sign`).
-/

namespace ContractTyping

open List Natural Fraction Option

theorem Fraction.value_ofNatural (n : Natural) : (ofNatural n).value = n.value := by
  rw [ofNatural, value_ofInteger, Integer.ofNatural, Integer.value_ofSign]
  simp

namespace NumberLiteral

open Fraction (WithinLimit Gives)
variable {text : List Char} (m : Mantissa) {x : Fraction} {mantissa : List Char}
variable {before exponent digits : List Char} (capital : Bool)

/-! ## Splitting -/

section

variable {test : Char → Bool}

theorem splitFirst_eq_none (missing : ∀ c ∈ text, test c = false) :
    splitFirst test text = (text, none) := by
  induction text with
  | nil => rfl
  | cons c text ih =>
    rw [forall_mem_cons] at missing
    simp [splitFirst, missing.1, ih missing.2]

theorem splitFirst_append (missing : ∀ c ∈ before, test c = false) {c : Char}
    (found : test c = true)
    (after : List Char) : splitFirst test (before ++ c :: after) = (before, some after) := by
  induction before with
  | nil => simp [splitFirst, found]
  | cons d before ih =>
    rw [forall_mem_cons] at missing
    simp [splitFirst, missing.1, ih missing.2]

/-- A text has no such character, or it is split at one. -/
theorem splitFirst_cases (test : Char → Bool) (text : List Char) :
    splitFirst test text = (text, none) ∨ ∃ before c after, text = before ++ c :: after ∧
      test c = true ∧ splitFirst test text = (before, some after) := by
  induction text with
  | nil => exact .inl rfl
  | cons d text ih =>
    by_cases found : test d = true
    · exact .inr ⟨[], d, text, rfl, found, by simp [splitFirst, found]⟩
    · rcases ih with whole | ⟨before, c, after, rfl, found', split⟩
      · exact .inl (by simp [splitFirst, found, whole])
      · exact .inr ⟨d :: before, c, after, rfl, found', by simp [splitFirst, found, split]⟩

end

/-! ## Underscores -/

theorem hasDoubledUnderscore_iff (text : List Char) :
    hasDoubledUnderscore text = true ↔ ['_', '_'] <:+: text := by
  fun_induction hasDoubledUnderscore text with
  | case1 rest => simp [infix_cons_iff]
  | case2 c rest single ih =>
    rw [ih, infix_cons_iff, cons_prefix_cons]
    refine (or_iff_right ?_).symm
    rintro ⟨rfl, more, rfl⟩
    exact single more rfl rfl
  | case3 => simp

theorem misplacedUnderscore_eq_false_iff (text : List Char) :
    misplacedUnderscore text = false ↔ Grouped text := by
  unfold misplacedUnderscore Grouped
  rw [← hasDoubledUnderscore_iff]
  simp [and_assoc]

/-! ## Parts of a literal as options -/

section

variable {α β : Type}

theorem toOption_bind (m : Except Refusal α) (f : α → Except Refusal β) :
    (m >>= f).toOption = m.toOption.bind fun a => (f a).toOption := by
  cases m <;> rfl

@[simp]
theorem toOption_orRefuse (refusal : Refusal) (given : Option α) :
    (orRefuse refusal given).toOption = given := by
  cases given <;> rfl

end

theorem toOption_eq_some {result : Except Refusal Fraction} :
    result.toOption = some x ↔ result = .ok x := by
  cases result <;> simp [Except.toOption]

/-- Digits before and behind a point, as a fraction. -/
def readParts (before behind : List Char) : Option Fraction :=
  (ofDigits? 10 (before ++ behind)).bind fun numerator =>
    (ten.pow behind.length).bind fun denominator => make? (.ofNatural numerator) denominator

theorem toOption_parseMantissa {behind? : Option (List Char)}
    (split : splitFirst (· == '.') mantissa = (before, behind?)) :
    (parseMantissa mantissa).toOption =
      if (behind? = none → before ≠ []) ∧ behind? ≠ some [] then readParts before (behind?.getD [])
        else none := by
  have parts : (do
      let numerator ← orRefuse .decimal (ofDigits? 10 (before ++ behind?.getD []))
      let denominator ← orRefuse .tooLarge (ten.pow (behind?.getD []).length)
      orRefuse .decimal (make? (.ofNatural numerator) denominator)).toOption =
        readParts before (behind?.getD []) := by
    simp only [toOption_bind, toOption_orRefuse, readParts]
  unfold parseMantissa
  rw [split, ← parts]
  cases behind? with
  | none => cases before <;> rfl
  | some behind => cases behind <;> cases before <;> rfl

/-- Multiplies or divides by the power of ten that a numeral names. -/
def scaled (value : Fraction) (negative : Bool) (numeral : List Char) : Option Fraction :=
  (readBounded? UInt64.size numeral).bind fun power =>
    (ten.pow power).bind fun scale =>
      if negative then value.div (.ofNatural scale) else value.mul (.ofNatural scale)

theorem toOption_applyExponent (value : Fraction) {negative : Bool} {numeral : List Char}
    (unsigned : negative = false → numeral.head? ≠ some '-') :
    (applyExponent value (minusSign negative ++ numeral)).toOption = scaled value negative
      numeral := by
  have parts : (do
      let power ← orRefuse .exponent (readBounded? UInt64.size numeral)
      let scale ← orRefuse .tooLarge (ten.pow power)
      orRefuse .tooLarge (if negative then value.div (.ofNatural scale)
        else value.mul (.ofNatural scale))).toOption = scaled value negative numeral := by
    simp only [toOption_bind, toOption_orRefuse, scaled]
  rw [← parts]
  cases negative with
  | true => rfl
  | false =>
    cases numeral with
    | nil => rfl
    | cons c rest =>
      have other : c ≠ '-' := by simpa using unsigned rfl
      simp [minusSign, applyExponent, other]

/-- Whether a character separates an exponent from a mantissa. -/
def isExponentLetter (c : Char) : Bool := c == 'e' || c == 'E'

theorem toOption_parseDecimal_whole (split : splitFirst isExponentLetter text = (mantissa, none)) :
    (parseDecimal text).toOption = (parseMantissa mantissa).toOption.bind fun x =>
      (within x).toOption := by
  have split : splitFirst (fun c => c == 'e' || c == 'E') text = (mantissa, none) := split
  unfold parseDecimal
  rw [split]
  exact toOption_bind _ _

theorem toOption_parseDecimal_split
    (split : splitFirst isExponentLetter text = (mantissa, some exponent)) :
    (parseDecimal text).toOption = (parseMantissa mantissa).toOption.bind fun x =>
      (applyExponent x exponent).toOption.bind fun y => (within y).toOption := by
  have split : splitFirst (fun c => c == 'e' || c == 'E') text = (mantissa, some exponent) := split
  unfold parseDecimal
  rw [split]
  simp only [toOption_bind]

/-! ## Values -/

theorem toOption_within (x : Fraction) : (within x).toOption = limited (some x) := by
  rw [within, limited, filter_some]
  cases x.exceedsLimit <;> rfl

theorem gives_within {exact : ℚ} (lowest : x.LowestTerms) (equal : x.value = exact) :
    Gives (within x).toOption (WithinLimit exact) exact := by
  have gives := (Exactly.limited lowest equal).gives
  rwa [true_and, ← toOption_within] at gives

theorem pow_ten_withinBits (exponent : Nat) : WithinBits (ten.pow exponent) (10 ^ exponent) := by
  have power := pow_withinBits (trimmed_ofWord 10) exponent
  rwa [value_ofWord] at power

/-- Digits before and behind a point are one numeral over a power of ten. -/
theorem gives_readParts {before behind : List (Digit 10)} (present : before ++ behind ≠ []) :
    Gives (readParts (before.map Digit.char) (behind.map Digit.char))
      ((10 ^ behind.length).size ≤ maxBits)
      (Digit.number before + Digit.number behind / 10 ^ behind.length) := by
  obtain ⟨numerator, read, trimmed, denotes⟩ := ofDigits?_chars (by decide) present
  have power := pow_ten_withinBits behind.length
  rw [map_append] at read
  rw [readParts, read, bind_some, length_map, ← power.given]
  cases found : ten.pow behind.length with
  | none => exact .absent (by simp)
  | some denominator =>
    obtain ⟨trimmed', denotes'⟩ := power.denotes denominator found
    have nonzero : denominator.value ≠ 0 := by
      rw [denotes']
      exact pow_ne_zero _ (by decide)
    obtain ⟨x, made, lowest, equal⟩ :=
      make?_spec (Integer.canonical_ofSign false trimmed) trimmed' nonzero
    have exact : x.value = Digit.number before + Digit.number behind / 10 ^ behind.length := by
      rw [equal, Integer.value_ofSign, denotes, denotes', Digit.number_append]
      push_cast
      field_simp
    rw [bind_some, Integer.ofNatural, made]
    exact .present lowest exact rfl

theorem gives_parseMantissa : Gives (parseMantissa m.chars).toOption
    ((10 ^ m.fractionDigits).size ≤ maxBits) m.value := by
  have noPoint (digits : List (Digit 10)) : ∀ c ∈ digits.map Digit.char, (c == '.') = false := by
    intro c mem
    rw [beq_eq_false_iff_ne]
    rintro rfl
    exact not_mem_chars (by decide) (by decide) digits mem
  cases m with
  | whole digits present =>
    have value := @gives_readParts digits [] (by simpa using present)
    rw [Mantissa.chars, toOption_parseMantissa (splitFirst_eq_none (noPoint digits)),
      if_pos (by simpa using present)]
    simpa [Mantissa.value, Mantissa.fractionDigits, Digit.number] using value
  | pointed before behind present =>
    have split := splitFirst_append (noPoint before) (c := '.') rfl (behind.map Digit.char)
    rw [Mantissa.chars, toOption_parseMantissa split, if_pos (by simpa using present)]
    exact gives_readParts (by simp [present])

/-- Ten to the exponent is a multiplication or a division by a power of ten. -/
theorem Exponent.ten_pow_value (e : Exponent) :
    (10 : ℚ) ^ e.value = if e.negative then ((10 ^ e.power : ℕ) : ℚ)⁻¹
      else ((10 ^ e.power : ℕ) : ℚ) := by
  unfold Exponent.value
  split <;> simp

theorem gives_scaled (lowest : x.LowestTerms) (e : Exponent) :
    Gives (scaled x e.negative (plusSign e.plus ++ e.digits.map Digit.char))
      ((e.power < UInt64.size ∧ (10 ^ e.power).size ≤ maxBits) ∧
        WithinLimit (x.value * 10 ^ e.value))
      (x.value * 10 ^ e.value) := by
  have power := pow_ten_withinBits e.power
  rw [scaled, readBounded?_chars _ _ e.present, ← power.given, e.ten_pow_value]
  change Gives (Option.bind (Option.filter _ (some e.power)) _) _ _
  rw [filter_some]
  by_cases word : e.power < UInt64.size
  · rw [if_pos (decide_eq_true word), bind_some]
    cases found : ten.pow e.power with
    | none => exact .absent (by simp)
    | some scale =>
      obtain ⟨trimmed, denotes⟩ := power.denotes scale found
      have lowestScale := lowestTerms_ofNatural trimmed
      have value : (ofNatural scale).value = ((10 ^ e.power : ℕ) : ℚ) := by
        rw [value_ofNatural, denotes]
      cases e.negative with
      | true =>
        -- A quotient is always defined, since no power of ten is zero.
        have quotient := (div_exactly lowest lowestScale).gives
        rw [value, div_eq_mul_inv] at quotient
        exact ⟨quotient.given.trans (by simp [word]), quotient.sound⟩
      | false =>
        have product := (mul_exactly lowest lowestScale).gives
        rw [value] at product
        exact ⟨product.given.trans (by simp [word]), product.sound⟩
  · rw [if_neg (by simpa using word)]
    exact .absent fun holds => word holds.1.1

/-! ## Reading a spelling -/

theorem Mantissa.isExponentLetter_eq_false : ∀ c ∈ m.chars, isExponentLetter c = false := by
  intro c mem
  rw [isExponentLetter, Bool.or_eq_false_iff, beq_eq_false_iff_ne, beq_eq_false_iff_ne]
  constructor <;> rintro rfl
  · exact m.not_mem_chars (by decide) (by decide) mem
  · exact m.not_mem_chars (by decide) (by decide) mem

/-- Without an exponent, the limits on the exponent hold and the number is that of the mantissa. -/
theorem Spelling.bounded_whole_iff : (decimal m none).Bounded ↔
    (10 ^ m.fractionDigits).size ≤ maxBits ∧ WithinLimit m.value := by
  have value : (decimal m none).value = m.value := by simp [Spelling.value]
  constructor
  · intro bounded
    exact ⟨bounded.fraction, value ▸ bounded.number⟩
  · rintro ⟨fraction, number⟩
    have power : (decimal m none).power = 0 := rfl
    exact ⟨fraction, by rw [power]; decide, by rw [power]; decide, value.symm ▸ number⟩

theorem gives_parseDecimal (e : Option Exponent) :
    Gives (parseDecimal (Spelling.decimal m e).chars).toOption (Spelling.decimal m e).Bounded
      (Spelling.decimal m e).value := by
  have mantissa := gives_parseMantissa m
  cases e with
  | none =>
    have chars : (Spelling.decimal m none).chars = m.chars := append_nil _
    have value : (Spelling.decimal m none).value = m.value := by simp [Spelling.value]
    rw [chars, value, toOption_parseDecimal_whole (splitFirst_eq_none m.isExponentLetter_eq_false),
      Spelling.bounded_whole_iff]
    exact mantissa.bind fun x lowest equal => gives_within lowest equal
  | some e =>
    have letter : isExponentLetter (if e.capital then 'E' else 'e') = true := by
      cases e.capital <;> rfl
    have gives := mantissa.bind fun x lowest equal => by
      have scaling := gives_scaled lowest e
      rw [equal, ← toOption_applyExponent x fun _ => e.numeral_unsigned] at scaling
      exact scaling.bind fun y lowest' equal' => gives_within lowest' equal'
    have chars : (Spelling.decimal m (some e)).chars = m.chars ++
      (if e.capital then 'E' else 'e') :: e.tail := rfl
    rw [chars,
      toOption_parseDecimal_split (splitFirst_append m.isExponentLetter_eq_false letter e.tail)]
    refine ⟨gives.given.trans ?_, gives.sound⟩
    constructor
    · rintro ⟨fraction, ⟨⟨word, scale⟩, number⟩, -⟩
      exact ⟨fraction, word, scale, number⟩
    · rintro ⟨fraction, word, scale, number⟩
      exact ⟨fraction, ⟨⟨word, scale⟩, number⟩, number⟩

theorem gives_parseHexadecimal {digits : List (Digit 16)} (present : digits ≠ []) :
    Gives (parseHexadecimal (digits.map Digit.char)).toOption (WithinLimit (Digit.number digits))
      (Digit.number digits) := by
  obtain ⟨n, read, trimmed, denotes⟩ := ofDigits?_chars (by decide) present
  rw [parseHexadecimal, toOption_bind, toOption_orRefuse, read, bind_some]
  exact gives_within (lowestTerms_ofNatural trimmed) (by rw [value_ofNatural, denotes])

theorem not_isEmpty_of_filter {test : Char → Bool} (present : text.filter test ≠ []) :
    ¬ text.isEmpty = true := by
  intro empty
  rw [isEmpty_iff.mp empty] at present
  exact present rfl

theorem parseChars_of_hexadecimal (grouped : Grouped text) {letter : Char}
    (marked : letter = 'x' ∨ letter = 'X')
    (cleaned : text.filter (· != '_') = '0' :: letter :: digits) :
    parseChars text = parseHexadecimal digits := by
  have present := not_isEmpty_of_filter (by rw [cleaned]; exact cons_ne_nil _ _)
  rw [parseChars, if_neg present, (misplacedUnderscore_eq_false_iff text).mpr grouped, cleaned]
  rcases marked with rfl | rfl <;> rfl

theorem parseChars_of_decimal {chars : List Char} (grouped : Grouped text)
    (cleaned : text.filter (· != '_') = chars) (present : chars ≠ []) (noSmall : 'x' ∉ chars)
    (noCapital : 'X' ∉ chars) : parseChars text = parseDecimal chars := by
  have present := not_isEmpty_of_filter (cleaned.symm ▸ present)
  rw [parseChars, if_neg present, (misplacedUnderscore_eq_false_iff text).mpr grouped,
    if_neg Bool.false_ne_true, cleaned]
  split
  · simp at noSmall
  · simp at noCapital
  · rfl

theorem gives_parseChars {n : Spelling} (grouped : Grouped text)
    (cleaned : text.filter (· != '_') = n.chars) :
    Gives (parseChars text).toOption n.Bounded n.value := by
  cases n with
  | hexadecimal capital digits present =>
    have marked : (if capital then 'X' else 'x') = 'x' ∨ (if capital then 'X' else 'x') = 'X' := by
      cases capital <;> decide
    have gives := gives_parseHexadecimal present
    rw [parseChars_of_hexadecimal grouped marked cleaned]
    refine ⟨gives.given.trans ?_, gives.sound⟩
    constructor
    · intro number
      exact ⟨by rw [Spelling.fractionDigits]; decide, by rw [Spelling.power]; decide,
        by rw [Spelling.power]; decide, number⟩
    · intro bounded
      exact bounded.number
  | decimal m e =>
    have present : (Spelling.decimal m e).chars ≠ [] := by simp [Spelling.chars, m.chars_ne_nil]
    rw [parseChars_of_decimal grouped cleaned present
      (Spelling.not_mem_decimal (by decide) (by decide) m e)
      (Spelling.not_mem_decimal (by decide) (by decide) m e)]
    exact gives_parseDecimal m e

/-- **Number literals denote their exact value.** A text that spells a number is accepted exactly if
the power of ten below its fraction, the power of ten of its exponent and the number in lowest terms
have at most `maxBits` bits and the exponent is a word; and what is read is that number in lowest
terms. -/
theorem literal_exact {n : Spelling} {text : String} (spelled : n.SpelledBy text) :
    ((∃ x, parse text = .ok x) ↔ n.Bounded) ∧
      ∀ x, parse text = .ok x → x.LowestTerms ∧ x.value = n.value := by
  have gives := gives_parseChars spelled.1 spelled.2
  refine ⟨?_, fun x parsed => gives.sound x (toOption_eq_some.mpr parsed)⟩
  rw [← gives.given, Option.isSome_iff_exists]
  exact exists_congr fun x => toOption_eq_some.symm

/-- An underscore, a fraction that can be shortened and a negative exponent. -/
theorem literal_exact_shortened :
    let n : Spelling := .decimal
      (.pointed [⟨1, false⟩, ⟨2, false⟩] [⟨5, false⟩, ⟨0, false⟩] (List.cons_ne_nil _ _))
      (some ⟨true, true, false, [⟨1, false⟩], List.cons_ne_nil _ _⟩)
    let x : Fraction := ⟨⟨false, ⟨[5]⟩⟩, ⟨[4]⟩⟩
    n.SpelledBy "1_2.50E-1" ∧ parse "1_2.50E-1" = .ok x ∧ n.Bounded ∧ x.LowestTerms ∧
      x.value = n.value := by
  intro n x
  have grouped : Grouped "1_2.50E-1".toList := (misplacedUnderscore_eq_false_iff _).mp (by decide)
  have spelled : n.SpelledBy "1_2.50E-1" := ⟨grouped, by decide⟩
  have parsed : parse "1_2.50E-1" = .ok x := by decide +kernel
  obtain ⟨accepted, exact⟩ := literal_exact spelled
  exact ⟨spelled, parsed, accepted.mp ⟨x, parsed⟩, exact x parsed⟩

/-! ## Nothing else is read -/

theorem exists_mantissa_of_parseMantissa (parsed : parseMantissa mantissa = .ok x) :
    ∃ m : Mantissa, mantissa = m.chars := by
  rw [← toOption_eq_some] at parsed
  rcases splitFirst_cases (· == '.') mantissa with whole | ⟨before, c, behind, rfl, point, split⟩
  · rw [toOption_parseMantissa whole, ite_none_right_eq_some] at parsed
    obtain ⟨-, parsed⟩ := parsed
    obtain ⟨numerator, read, -⟩ := bind_eq_some_iff.mp parsed
    rw [getD_none, append_nil] at read
    obtain ⟨digits, present, rfl⟩ := exists_digits_of_ofDigits? (by decide) read
    exact ⟨.whole digits present, rfl⟩
  · rw [toOption_parseMantissa split, ite_none_right_eq_some] at parsed
    obtain ⟨⟨-, present⟩, parsed⟩ := parsed
    obtain ⟨numerator, read, -⟩ := bind_eq_some_iff.mp parsed
    obtain ⟨digits, -, written⟩ := exists_digits_of_ofDigits? (by decide) read
    obtain ⟨first, second, -, rfl, rfl⟩ := map_eq_append_iff.mp written.symm
    have point : c = '.' := by simpa using point
    have present : second ≠ [] := by simpa using present
    exact ⟨.pointed first second present, by rw [point]; rfl⟩

/-- A minus sign can be taken off the front. -/
theorem exists_minusSign (exponent : List Char) :
    ∃ negative numeral, exponent = minusSign negative ++ numeral ∧
    (negative = false → numeral.head? ≠ some '-') := by
  by_cases signed : exponent.head? = some '-'
  · obtain ⟨numeral, rfl⟩ := head?_eq_some_iff.mp signed
    exact ⟨true, numeral, rfl, by simp⟩
  · exact ⟨false, exponent, rfl, fun _ => signed⟩

theorem exists_exponent_of_applyExponent {y : Fraction}
    (applied : applyExponent x exponent = .ok y) :
    ∃ e : Exponent, e.capital = capital ∧ exponent = e.tail := by
  obtain ⟨negative, numeral, rfl, unsigned⟩ := exists_minusSign exponent
  rw [← toOption_eq_some, toOption_applyExponent x unsigned] at applied
  obtain ⟨power, read, -⟩ := bind_eq_some_iff.mp applied
  obtain ⟨plus, digits, present, rfl⟩ := exists_digits_of_readBounded? read
  exact ⟨⟨capital, negative, plus, digits, present⟩, rfl, rfl⟩

theorem exists_spelling_of_parseDecimal (parsed : parseDecimal text = .ok x) :
    ∃ n : Spelling, text = n.chars := by
  rw [← toOption_eq_some] at parsed
  rcases splitFirst_cases isExponentLetter text with whole | ⟨before, letter, exponent, rfl,
    isLetter, split⟩
  · rw [toOption_parseDecimal_whole whole] at parsed
    obtain ⟨y, read, -⟩ := bind_eq_some_iff.mp parsed
    obtain ⟨m, rfl⟩ := exists_mantissa_of_parseMantissa (toOption_eq_some.mp read)
    exact ⟨.decimal m none, (append_nil _).symm⟩
  · rw [toOption_parseDecimal_split split] at parsed
    obtain ⟨y, read, parsed⟩ := bind_eq_some_iff.mp parsed
    obtain ⟨z, applied, -⟩ := bind_eq_some_iff.mp parsed
    obtain ⟨m, rfl⟩ := exists_mantissa_of_parseMantissa (toOption_eq_some.mp read)
    obtain ⟨e, capital, rfl⟩ :=
      exists_exponent_of_applyExponent (letter == 'E') (toOption_eq_some.mp applied)
    have written : (if e.capital then 'E' else 'e') = letter := by
      rw [capital]
      rcases Bool.or_eq_true_iff.mp isLetter with small | large
      · rw [eq_of_beq small]
        rfl
      · rw [eq_of_beq large]
        rfl
    exact ⟨.decimal m (some e), by rw [← written]; rfl⟩

theorem exists_spelling_of_parseHexadecimal (parsed : parseHexadecimal digits = .ok x) :
    ∃ n : Spelling, '0' :: (if capital then 'X' else 'x') :: digits = n.chars := by
  obtain ⟨n, read, -⟩ := bind_eq_ok.mp parsed
  obtain ⟨digits, present, rfl⟩ := exists_digits_of_ofDigits? (by decide) (orRefuse_eq_ok.mp read)
  exact ⟨.hexadecimal capital digits present, rfl⟩

/-- **Nothing else is a number literal.** A text that is accepted spells a number, and its exponent
has a plus sign exactly if there is one in the text. -/
theorem literal_spelled {text : String} {x : Fraction} (parsed : parse text = .ok x) :
    ∃ n : Spelling, n.SpelledBy text ∧ (n.hasPlus = true ↔ '+' ∈ text.toList) := by
  have plus {n : Spelling} (cleaned : text.toList.filter (· != '_') = n.chars) :
      n.hasPlus = true ↔ '+' ∈ text.toList := by
    rw [← n.plus_mem_chars_iff, ← cleaned, List.mem_filter]
    simp
  unfold parse parseChars at parsed
  split at parsed
  · cases parsed
  split at parsed
  · cases parsed
  · next placed =>
    have grouped := (misplacedUnderscore_eq_false_iff text.toList).mp (by simpa using placed)
    obtain ⟨n, cleaned⟩ : ∃ n : Spelling, text.toList.filter (· != '_') = n.chars := by
      split at parsed
      · next digits cleaned =>
        rw [cleaned]
        exact exists_spelling_of_parseHexadecimal false parsed
      · next digits cleaned =>
        rw [cleaned]
        exact exists_spelling_of_parseHexadecimal true parsed
      · exact exists_spelling_of_parseDecimal parsed
    exact ⟨n, ⟨grouped, cleaned⟩, plus cleaned⟩

/-- Two signs in one exponent. -/
theorem literal_spelled_two_signs : parse "1e-+2" = .ok ⟨⟨false, ⟨[1]⟩⟩, ⟨[100]⟩⟩ ∧
    ∃ n : Spelling, n.SpelledBy "1e-+2" ∧ n.hasPlus = true := by
  have parsed : parse "1e-+2" = .ok ⟨⟨false, ⟨[1]⟩⟩, ⟨[100]⟩⟩ := by decide +kernel
  obtain ⟨n, spelled, plus⟩ := literal_spelled parsed
  exact ⟨parsed, n, spelled, plus.mpr (by decide)⟩

/-- Spellings without a plus sign are not all that is read. -/
theorem literal_plus_sign : parse "1e+5" = .ok ⟨⟨false, ⟨[100000]⟩⟩, ⟨[1]⟩⟩ ∧
    ¬ ∃ n : Spelling, n.hasPlus = false ∧ n.SpelledBy "1e+5" := by
  refine ⟨by decide +kernel, ?_⟩
  rintro ⟨n, plain, -, cleaned⟩
  have sign : '+' ∈ n.chars := by
    rw [← cleaned]
    decide
  rw [n.plus_mem_chars_iff, plain] at sign
  cases sign

end NumberLiteral
end ContractTyping
