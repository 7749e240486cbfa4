import ContractTyping.Proofs.Constant.Folding
import ContractTyping.Proofs.Exact.Bitwise
import ContractTyping.Proofs.Resolved

/-!
# Well-formed types

What is promised of every type: widths and sizes that exist, array lengths that are not zero, number
literals in lowest terms within the limit, and data inside arrays and mappings at the place that its
container gives it. Whatever is built from well-formed types is well-formed, because data is moved
wherever it is put into something else.

* `Ty.WellFormed` is the promise, at every depth of a type.
* `Ty.WellFormed.hereditary`: operations on types keep it.
-/

namespace ContractTyping

open Option Fraction

variable {signed : Bool} {t : Ty} {x r : Fraction} {op : BinaryOp} {y : Fraction}

namespace Ty

variable {bits : Nat}

/-- Whether data of a type, if it is an array or a struct, is at the given place. -/
def PlacedAt (t : Ty) (place : Place) : Prop := ∀ other, t.place? = some other → other = place

/-- Whether a mapping can have keys of a type. -/
def IsKey (t : Ty) : Prop := t.isValueType = true ∨ ∃ isString, t = byteArray isString .memory

mutual

/-- Whether a type is as it should be, at every depth. -/
def WellFormed : Ty → Prop
  | integer bits _ => 8 ∣ bits ∧ 8 ≤ bits ∧ bits ≤ 256
  | number value _ => value.Admissible
  | fixedBytes size => 1 ≤ size ∧ size ≤ 32
  | array element length place =>
    (∀ n, length = some n → 1 ≤ n) ∧ element.PlacedAt ⟨place.location, true⟩ ∧ element.WellFormed
  | mapping key value =>
    key.IsKey ∧ value.PlacedAt ⟨.storage, true⟩ ∧ key.WellFormed ∧ value.WellFormed
  | function _ parameters returns => WellFormedAll parameters ∧ WellFormedAll returns
  | tuple components => WellFormedSlots components
  | typeType actual | metaType actual => actual.WellFormed
  | modifier types | handle types | overloaded types => WellFormedAll types
  | _ => True

def WellFormedAll : List Ty → Prop
  | [] => True
  | t :: rest => t.WellFormed ∧ WellFormedAll rest

def WellFormedSlots : List (Option Ty) → Prop
  | [] => True
  | none :: rest => WellFormedSlots rest
  | some t :: rest => t.WellFormed ∧ WellFormedSlots rest

end

theorem wellFormedAll_iff {types : List Ty} : WellFormedAll types ↔ ∀ t ∈ types, t.WellFormed := by
  induction types with
  | nil => simp [WellFormedAll]
  | cons t rest ih => simp [WellFormedAll, ih]

theorem wellFormedSlots_iff {components : List (Option Ty)} :
    WellFormedSlots components ↔ ∀ t, some t ∈ components → t.WellFormed := by
  induction components with
  | nil => simp [WellFormedSlots]
  | cons component rest ih =>
    cases component with
    | none => simp [WellFormedSlots, ih]
    | some t => simp [WellFormedSlots, ih]

theorem wellFormed_integer (multiple : 8 ∣ bits) (atLeast : 8 ≤ bits) (atMost : bits ≤ 256)
    (signed : Bool) : (integer bits signed).WellFormed :=
  ⟨multiple, atLeast, atMost⟩

theorem wellFormed_fixedBytes {size : Nat} (fits : 1 ≤ size ∧ size ≤ 32) :
    (fixedBytes size).WellFormed :=
  fits

/-! ## Places -/

theorem placedAt_moveTo (t : Ty) (place : Place) : (t.moveTo place).PlacedAt place := by
  intro other found
  cases t <;> cases found <;> rfl

theorem WellFormed.moveTo (wf : t.WellFormed) (place : Place) : (t.moveTo place).WellFormed := by
  fun_induction Ty.moveTo t place with
  | case1 => trivial
  | case2 place element length old ih => exact ⟨wf.1, placedAt_moveTo _ _, ih wf.2.2⟩
  | case3 => trivial
  | case4 => exact wf

theorem WellFormed.arrayOf {element : Ty} (wf : element.WellFormed) {length : Option Nat}
    (positive : ∀ n, length = some n → 1 ≤ n) (location : DataLocation) :
    (arrayOf element length location).WellFormed :=
  ⟨positive, placedAt_moveTo _ _, wf.moveTo _⟩

/-- Keys are taken from memory. -/
theorem isKey_moveTo {key : Ty} (allowed : key.isValueType || key.isByteArray) :
    (key.moveTo .memory).IsKey := by
  cases key with
  | byteArray isString place => exact .inr ⟨isString, rfl⟩
  | integer | number | bool | address | fixedBytes | contract | function => exact .inl rfl
  | _ => cases allowed

theorem WellFormed.mappingOf {key value : Ty} (allowed : key.isValueType || key.isByteArray)
    (keyWf : key.WellFormed) (valueWf : value.WellFormed) : (mappingOf key value).WellFormed :=
  ⟨isKey_moveTo allowed, placedAt_moveTo _ _, keyWf.moveTo _, valueWf.moveTo _⟩

/-! ## Results -/

/-- A width is rounded up to a multiple of eight. -/
theorem wellFormed_roundedWidth (fits : roundedWidth bits ≤ 256) (signed : Bool) :
    (integer (roundedWidth bits) signed).WellFormed := by
  refine wellFormed_integer (Nat.dvd_mul_left 8 _) ?_ fits signed
  exact Nat.le_mul_of_pos_left 8 (Nat.le_max_right _ _)

theorem wellFormed_smallestInteger? {value : Fraction}
    (found : value.smallestInteger? = some (bits, signed)) : (integer bits signed).WellFormed := by
  unfold smallestInteger? at found
  split at found
  · cases found
  obtain ⟨fits, equal⟩ := ite_none_right_eq_some.mp found
  cases equal
  split at fits
  · next negative =>
    rw [if_pos negative]
    exact wellFormed_roundedWidth fits _
  · next natural =>
    rw [if_neg natural]
    exact wellFormed_roundedWidth fits _

end Ty

/-! ## Exact results -/

theorem Fraction.Admissible.bitNot (admissible : x.Admissible) (given : x.bitNot = some r) :
    r.Admissible := by
  obtain ⟨-, given⟩ := ite_none_right_eq_some.mp given
  exact (sub_exactly admissible.neg.lowest (lowestTerms_ofNatural Natural.trimmed_one)).admissible
    given

/-- Results of all operators are in lowest terms, those on single bits without being reduced. -/
theorem BinaryOp.lowestTerms_fold? (left : x.Admissible) (right : y.Admissible)
    (folded : op.fold? x y = some r) : r.LowestTerms := by
  by_cases constant : op.isConstantOp = true
  · exact (admissible_fold? constant left right folded).lowest
  · cases op with
    | bitAnd | bitOr | bitXor => exact lowestTerms_bitwise folded
    | add | sub | mul | div | mod | exp | shl | shr => exact absurd rfl constant
    | _ => cases folded

namespace Ty

variable {digits : List Char}

theorem wellFormed_foldNumbers {result : Ty} (left : x.Admissible) (right : y.Admissible)
    (found : foldNumbers op x y = some result) : result.WellFormed := by
  unfold foldNumbers at found
  split at found
  · cases found
    trivial
  · obtain ⟨value, given, rfl⟩ := map_eq_some_iff.mp found
    obtain ⟨folded, within⟩ := filter_eq_some_iff.mp given
    exact ⟨op.lowestTerms_fold? left right folded, by simpa using within⟩

/-! ## Types of words and literals -/

theorem wellFormed_integerOfWidth? (found : integerOfWidth? signed digits = some t) :
    t.WellFormed := by
  obtain ⟨bits, given, rfl⟩ := map_eq_some_iff.mp found
  have allowed := (filter_eq_some_iff.mp given).2
  simp only [Bool.and_eq_true, bne_iff_ne, ne_eq, decide_eq_true_eq, beq_iff_eq] at allowed
  obtain ⟨⟨nonzero, atMost⟩, multiple⟩ := allowed
  have multiple : 8 ∣ bits := Nat.dvd_of_mod_eq_zero multiple
  exact wellFormed_integer multiple (Nat.le_of_dvd (Nat.pos_of_ne_zero nonzero) multiple)
    atMost signed

theorem wellFormed_fixedBytesOfSize? (found : fixedBytesOfSize? digits = some t) :
    t.WellFormed := by
  obtain ⟨size, given, rfl⟩ := map_eq_some_iff.mp found
  have allowed := (filter_eq_some_iff.mp given).2
  simp only [Bool.and_eq_true, bne_iff_ne, ne_eq, decide_eq_true_eq] at allowed
  exact ⟨Nat.pos_of_ne_zero allowed.1, allowed.2⟩

theorem wellFormed_sized? {word : List Char} (found : sized? word = some t) : t.WellFormed := by
  unfold sized? at found
  split at found
  · exact wellFormed_integerOfWidth? found
  · exact wellFormed_integerOfWidth? found
  · exact wellFormed_fixedBytesOfSize? found
  · cases found

theorem wellFormed_elementary? {name : String} {payable : Bool}
    (found : elementary? name payable = .ok t) : t.WellFormed := by
  unfold elementary? at found
  split at found
  case h_5 =>
    cases found
    exact wellFormed_fixedBytes (by decide)
  case h_6 =>
    split at found
    · next sized =>
      cases found
      exact wellFormed_sized? sized
    · split at found <;> cases found
  all_goals
    cases found
    trivial

end Ty

theorem wellFormed_literalType {kind : LiteralKind} {text : String} {unit : Option Denomination}
    (found : literalType kind text unit = .ok t) : t.WellFormed := by
  unfold literalType at found
  split at found
  · cases found
    trivial
  · cases found
    trivial
  · cases decoded : HexString.text? text with
    | none => rw [decoded] at found; cases found
    | some text => rw [decoded] at found; cases found; trivial
  · rcases literalType_number text unit with ⟨x, width, value, typed⟩ | ⟨-, fault, refused⟩
    · have same : t = .number x width := Except.ok.inj (found.symm.trans typed)
      subst same
      exact admissible_literalValue? value
    · cases found.symm.trans refused

namespace Ty

theorem WellFormed.ofBasic (isBasic : t.isBasic = true) : t.WellFormed := by
  cases t with
  | integer bits signed =>
    rcases Bool.or_eq_true_iff.mp isBasic with byte | word
    · cases eq_of_beq byte
      exact wellFormed_integer (by decide) (by decide) (by decide) signed
    · cases eq_of_beq word
      exact wellFormed_integer (by decide) (by decide) (by decide) signed
  | fixedBytes size =>
    simp only [Ty.isBasic, Bool.or_eq_true, beq_iff_eq] at isBasic
    exact wellFormed_fixedBytes (by omega)
  | _ => trivial

/-- Whatever is built from well-formed types is well-formed. -/
theorem WellFormed.hereditary : Hereditary WellFormed where
  basic := .ofBasic
  fixedBytes := wellFormed_fixedBytes
  struct _ _ _ := trivial
  contract _ := trivial
  magic _ := trivial
  elementary := wellFormed_elementary?
  literal := wellFormed_literalType
  narrowest := wellFormed_smallestInteger?
  folded left right _ _ := wellFormed_foldNumbers left right
  inverted operand := Admissible.bitNot operand
  negated operand := Admissible.neg operand
  moveTo := WellFormed.moveTo
  arrayOf := WellFormed.arrayOf
  element wf := wf.2.2
  mappingOf := WellFormed.mappingOf
  mapping wf := wf.2.2
  function := and_congr wellFormedAll_iff wellFormedAll_iff
  tuple := wellFormedSlots_iff
  typeType := .rfl
  metaType := .rfl
  modifier := wellFormedAll_iff
  handle := wellFormedAll_iff
  overloaded := wellFormedAll_iff

end Ty

end ContractTyping
