import ContractTyping.Constant
import ContractTyping.Proofs.Exact.Power
import ContractTyping.Proofs.Exact.Rounding

/-!
# The limit on literals

Number literals are read into fractions in lowest terms within the limit, and every operator of
constants keeps them so. An operator that tests the size of its result gives an exact result within
the limit or none; a right shift does not test it, and has no need to.

* `Fraction.Admissible` is what a number literal may denote.
* `BinaryOp.admissible_fold?`: results of operators are admissible.
* `admissible_literalValue?`: so are the values of literals, with a unit or without.
-/

namespace ContractTyping

open Natural

variable {x : Fraction} {text : List Char}

namespace Fraction

/-- What a number literal may denote: a fraction in lowest terms within the limit. -/
structure Admissible (x : Fraction) : Prop where
  lowest : x.LowestTerms
  within : x.exceedsLimit = false

variable {x y r : Fraction}

theorem Admissible.of_withinLimit (lowest : x.LowestTerms) (within : WithinLimit x.value) :
    x.Admissible :=
  ⟨lowest, (exceedsLimit_eq_false_iff lowest).mpr within⟩

theorem Admissible.withinLimit (admissible : x.Admissible) : WithinLimit x.value :=
  (exceedsLimit_eq_false_iff admissible.lowest).mp admissible.within

/-- A word that is not zero as a fraction is not zero. -/
theorem toWord?_pos (lowest : x.LowestTerms) {word : UInt64} (fits : x.toWord? = some word)
    (nonzero : x.isZero = false) : 1 ≤ word.toNat := by
  obtain ⟨-, fits⟩ := Option.ite_none_right_eq_some.mp fits
  rw [Natural.toNat_of_toWord? fits]
  refine Nat.pos_of_ne_zero fun zero => ?_
  rw [isZero, Integer.isZero, (Natural.isZero_iff lowest.1.1).mpr zero] at nonzero
  cases nonzero

/-! ## Operators -/

/-- An exact result is admissible, because only such results are given. -/
theorem Exactly.admissible {result : Option Fraction} {defined : Prop} {exact : ℚ}
    (exactly : Exactly result defined exact) (given : result = some r) : r.Admissible := by
  obtain ⟨lowest, equal⟩ := exactly.sound r given
  have within := (exactly.given.mp (by rw [given]; rfl)).2
  rw [← equal] at within
  exact .of_withinLimit lowest within

theorem Admissible.neg (admissible : x.Admissible) : x.neg.Admissible :=
  ⟨lowestTerms_neg admissible.lowest, admissible.within⟩

theorem admissible_rem (lowest : x.LowestTerms) (lowest' : y.LowestTerms)
    (given : x.rem y = some r) : r.Admissible := by
  have gives := rem_gives lowest lowest'
  obtain ⟨lowestResult, equal⟩ := gives.sound r given
  have within := (gives.given.mp (by rw [given]; rfl)).2.2
  rw [← equal] at within
  exact .of_withinLimit lowestResult within

theorem admissible_pow (lowest : x.LowestTerms) (lowest' : y.LowestTerms)
    (given : x.pow y = some r) : r.Admissible := by
  cases integer : y.isInteger with
  | false =>
    rw [pow_eq_none (.inl integer)] at given
    cases given
  | true =>
    obtain ⟨z, exponent⟩ := (isInteger_iff lowest').mp integer
    exact (pow_exactly lowest lowest' exponent).admissible given

/-- What shifts a number is itself a natural number. -/
theorem exists_amount (lowest : y.LowestTerms) (given : x.shr y = some r ∨ x.shl y = some r) :
    ∃ k : ℕ, y.value = k := by
  by_contra other
  obtain ⟨noRight, noLeft⟩ := shift_eq_none (x := x) (.inr (toWord?_of_not_natural lowest other))
  rcases given with right | left
  · rw [noRight] at right
    cases right
  · rw [noLeft] at left
    cases left

theorem admissible_shl (lowest : x.LowestTerms) (lowest' : y.LowestTerms)
    (given : x.shl y = some r) : r.Admissible := by
  obtain ⟨k, amount⟩ := exists_amount lowest' (.inr given)
  exact (shl_exactly lowest lowest' amount).admissible given

/-- A right shift tests no limit, because it makes no number longer. -/
theorem admissible_shr (admissible : x.Admissible) (lowest' : y.LowestTerms)
    (given : x.shr y = some r) : r.Admissible := by
  obtain ⟨k, amount⟩ := exists_amount lowest' (.inl given)
  have gives := shr_gives admissible.lowest lowest' amount
  obtain ⟨lowest, equal⟩ := gives.sound r given
  obtain ⟨⟨n, integer⟩, -⟩ := gives.given.mp (by rw [given]; rfl)
  have limit := admissible.withinLimit
  have power : (2 : ℚ) ^ k = ((2 ^ k : ℕ) : ℚ) := by push_cast; rfl
  rw [integer, power, Rat.floor_intCast_div_natCast] at equal
  rw [integer] at limit
  refine .of_withinLimit lowest ?_
  rw [equal]
  refine ⟨(Nat.size_le_size ?_).trans limit.1, ?_⟩
  · exact Int.natAbs_ediv_le_natAbs n _
  · rw [Rat.den_intCast]
    decide

end Fraction

/-- Results of the operators of constants are admissible. -/
theorem BinaryOp.admissible_fold? {op : BinaryOp} (constant : op.isConstantOp = true)
    {y r : Fraction} (left : x.Admissible) (right : y.Admissible) (folded : op.fold? x y = some r) :
    r.Admissible := by
  cases op <;> try contradiction
  case add => exact (Fraction.add_exactly left.lowest right.lowest).admissible folded
  case sub => exact (Fraction.sub_exactly left.lowest right.lowest).admissible folded
  case mul => exact (Fraction.mul_exactly left.lowest right.lowest).admissible folded
  case div => exact (Fraction.div_exactly left.lowest right.lowest).admissible folded
  case mod => exact Fraction.admissible_rem left.lowest right.lowest folded
  case exp => exact Fraction.admissible_pow left.lowest right.lowest folded
  case shl => exact Fraction.admissible_shl left.lowest right.lowest folded
  case shr => exact Fraction.admissible_shr left right.lowest folded

/-! ## Literals -/

theorem Natural.trimmed_foldlM {step : Natural → Char → Option Natural}
    (steps : ∀ n c n', step n c = some n' → n'.Trimmed) {start n : Natural}
    (trimmed : start.Trimmed) (folded : text.foldlM step start = some n) : n.Trimmed := by
  induction text generalizing start with
  | nil =>
    cases folded
    exact trimmed
  | cons c rest ih =>
    obtain ⟨next, first, folded⟩ := Option.bind_eq_some_iff.mp folded
    exact ih (steps start c next first) folded

theorem Natural.trimmed_ofDigits? {base : Nat} {n : Natural} (read : ofDigits? base text = some n) :
    n.Trimmed := by
  unfold ofDigits? at read
  split at read
  · cases read
  · refine trimmed_foldlM ?_ trimmed_zero read
    intro number c next step
    obtain ⟨digit, -, step⟩ := Option.bind_eq_some_iff.mp step
    cases step
    exact trimmed_add _ _

theorem bind_eq_ok {ε α β : Type} {m : Except ε α} {f : α → Except ε β} {b : β} :
    (m >>= f) = .ok b ↔ ∃ a, m = .ok a ∧ f a = .ok b := by
  cases m <;> simp [bind, Except.bind]

namespace NumberLiteral

open Fraction

theorem orRefuse_eq_ok {α : Type} {refusal : Refusal} {given : Option α} {a : α} :
    orRefuse refusal given = .ok a ↔ given = some a := by
  cases given <;> simp [orRefuse]

theorem within_eq_ok {y : Fraction} : within x = .ok y ↔ x = y ∧ x.exceedsLimit = false := by
  unfold within
  split
  · next exceeds => simp [exceeds]
  · next fits => simp [fits]

theorem trimmed_pow_ten {exponent : Nat} {scale : Natural} (given : ten.pow exponent = some scale) :
    scale.Trimmed ∧ scale.value ≠ 0 := by
  obtain ⟨trimmed, value⟩ := (pow_withinBits (trimmed_ofWord 10) exponent).denotes scale given
  refine ⟨trimmed, ?_⟩
  rw [value, value_ofWord]
  exact pow_ne_zero _ (by decide)

theorem lowestTerms_parseMantissa {mantissa : List Char} (parsed : parseMantissa mantissa = .ok x) :
    x.LowestTerms := by
  unfold parseMantissa at parsed
  dsimp only at parsed
  split at parsed
  · cases parsed
  split at parsed
  · cases parsed
  obtain ⟨numerator, read, parsed⟩ := bind_eq_ok.mp parsed
  obtain ⟨denominator, scaled, parsed⟩ := bind_eq_ok.mp parsed
  have trimmed := trimmed_ofDigits? (orRefuse_eq_ok.mp read)
  obtain ⟨trimmed', nonzero⟩ := trimmed_pow_ten (orRefuse_eq_ok.mp scaled)
  obtain ⟨r, made, lowest, -⟩ :=
    make?_spec (Integer.canonical_ofSign false trimmed) trimmed' nonzero
  rw [orRefuse_eq_ok] at parsed
  have same : some r = some x := made.symm.trans parsed
  cases same
  exact lowest

theorem lowestTerms_applyExponent {value : Fraction} {exponent : List Char}
    (lowest : value.LowestTerms)
    (applied : applyExponent value exponent = .ok x) : x.LowestTerms := by
  obtain ⟨power, -, applied⟩ := bind_eq_ok.mp applied
  obtain ⟨scale, scaled, applied⟩ := bind_eq_ok.mp applied
  rw [orRefuse_eq_ok] at scaled applied
  have lowestScale := lowestTerms_ofNatural (trimmed_pow_ten scaled).1
  split at applied
  · exact ((div_exactly lowest lowestScale).sound _ applied).1
  · exact ((mul_exactly lowest lowestScale).sound _ applied).1

theorem admissible_parseDecimal (parsed : parseDecimal text = .ok x) : x.Admissible := by
  obtain ⟨mantissa, first, parsed⟩ := bind_eq_ok.mp parsed
  have lowest := lowestTerms_parseMantissa first
  split at parsed
  · obtain ⟨rfl, fits⟩ := within_eq_ok.mp parsed
    exact ⟨lowest, fits⟩
  · obtain ⟨value, applied, parsed⟩ := bind_eq_ok.mp parsed
    obtain ⟨rfl, fits⟩ := within_eq_ok.mp parsed
    exact ⟨lowestTerms_applyExponent lowest applied, fits⟩

theorem admissible_parseHexadecimal {digits : List Char}
    (parsed : parseHexadecimal digits = .ok x) : x.Admissible := by
  obtain ⟨value, read, parsed⟩ := bind_eq_ok.mp parsed
  obtain ⟨rfl, fits⟩ := within_eq_ok.mp parsed
  exact ⟨lowestTerms_ofNatural (trimmed_ofDigits? (orRefuse_eq_ok.mp read)), fits⟩

theorem admissible_parse {text : String} (parsed : parse text = .ok x) : x.Admissible := by
  unfold parse parseChars at parsed
  split at parsed
  · cases parsed
  split at parsed
  · cases parsed
  split at parsed
  · exact admissible_parseHexadecimal parsed
  · exact admissible_parseHexadecimal parsed
  · exact admissible_parseDecimal parsed

end NumberLiteral

theorem Denomination.lowestTerms_multiplier (unit : Denomination) :
    (Fraction.ofNatural (.ofWord unit.multiplier)).LowestTerms :=
  Fraction.lowestTerms_ofNatural (trimmed_ofWord _)

/-- Values of literals are admissible, also in a larger unit. -/
theorem admissible_literalValue? {text : String} {unit : Option Denomination}
    (given : literalValue? text unit = some x) : x.Admissible := by
  obtain ⟨value, parsed, given⟩ := Option.bind_eq_some_iff.mp given
  have admissible : value.Admissible := by
    cases outcome : NumberLiteral.parse text with
    | error refusal =>
      rw [outcome] at parsed
      cases parsed
    | ok read =>
      rw [outcome] at parsed
      cases parsed
      exact NumberLiteral.admissible_parse outcome
  cases unit with
  | none =>
    cases given
    exact admissible
  | some unit =>
    exact (Fraction.mul_exactly admissible.lowest unit.lowestTerms_multiplier).admissible given

end ContractTyping
