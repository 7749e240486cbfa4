import ContractTyping.Proofs.IntegerRange
import ContractTyping.Proofs.Placement
import ContractTyping.Proofs.WellFormed

/-!
# Rules of implicit conversion

The conversions between types other than the invalid one, as a list of rules (`Ty.Rule`), so that a
chain of two conversions can be taken apart by cases.

Conversions cannot be chained in general. A literal of some width converts to fixed bytes of that
width, and these to wider ones, which the literal does not convert to. Data is copied to a storage
reference from anywhere, and the reference converts to a storage pointer, which has nothing to point
to outside storage.

* `Ty.Rule.converts`, `Ty.Rule.of_converts`: the rules are what `implicitlyConvertible` decides.
* `Ty.Steady`: no part of some types is a literal with a width, other than zero, or a storage
  reference, and no contract among them lacks a base of a base.
* `Ty.Steady.trans`: conversions between parts of such types can be chained.
-/

namespace ContractTyping

open Bool
variable {place : Place}

/-! ## Places and functions -/

theorem Place.convertible_trans {origin middle : Place} (uncopied : middle ≠ ⟨.storage, false⟩)
    (first : origin.convertible middle = true) (second : middle.convertible place = true) :
    origin.convertible place = true := by
  obtain ⟨location, isPointer⟩ := origin
  obtain ⟨middleLocation, middlePointer⟩ := middle
  obtain ⟨targetLocation, targetPointer⟩ := place
  cases middleLocation <;> cases middlePointer <;> cases targetLocation <;> cases targetPointer <;>
    simp_all [Place.convertible]

/-- Where a literal can be written, everything that this place allows can be written as well. -/
theorem Place.literal_of_convertible {middle : Place} (uncopied : middle ≠ ⟨.storage, false⟩)
    (outside : middle.location ≠ .calldata) (differs : middle ≠ ⟨.storage, true⟩)
    (allowed : middle.convertible place = true) :
    place.location ≠ .calldata ∧ place ≠ ⟨.storage, true⟩ := by
  obtain ⟨location, isPointer⟩ := middle
  obtain ⟨targetLocation, targetPointer⟩ := place
  cases location <;> cases isPointer <;> cases targetLocation <;> cases targetPointer <;>
    simp_all [Place.convertible]

theorem Mutability.convertible_trans {source middle target : Mutability}
    (first : source.convertible middle = true)
    (second : middle.convertible target = true) : source.convertible target = true := by
  revert first second
  cases source <;> cases middle <;> cases target <;> decide

theorem CallTraits.convertible_trans {source middle target : CallTraits}
    (first : source.convertible middle = true) (second : middle.convertible target = true) :
    source.convertible target = true := by
  simp only [CallTraits.convertible, and_eq_true, or_eq_true, beq_iff_eq] at first second ⊢
  obtain ⟨⟨⟨⟨kind, bound⟩, gasSet⟩, valueSet⟩, mutability⟩ := first
  obtain ⟨⟨⟨⟨kind', bound'⟩, gasSet'⟩, valueSet'⟩, mutability'⟩ := second
  refine ⟨⟨⟨⟨?_, bound.trans bound'⟩, gasSet.trans gasSet'⟩, valueSet.trans valueSet'⟩,
    Mutability.convertible_trans mutability mutability'⟩
  rcases kind with kind | ⟨delegate, internal⟩
  · rwa [kind]
  · rcases kind' with kind' | ⟨delegate', -⟩
    · exact .inr ⟨delegate, kind' ▸ internal⟩
    · rw [internal] at delegate'
      cases delegate'

namespace Ty

variable {source target t : Ty} {types : List Ty}
variable {middle : Ty} {bits bits' : Nat} {signed signed' : Bool}

/-! ## The rules -/

/-- The rules of implicit conversion. -/
inductive Rule : Ty → Ty → Prop
  | same (t : Ty) : Rule t t
  | integer {bits targetBits : Nat} {signed targetSigned : Bool} :
      signed = targetSigned ∧ bits ≤ targetBits ∨ signed = false ∧ targetSigned = true ∧
      bits < targetBits →
        Rule (integer bits signed) (integer targetBits targetSigned)
  | numberToInteger {value : Fraction} {width : Option Nat} {bits : Nat} {signed : Bool} :
      value.fitsInteger bits signed = true → Rule (number value width) (integer bits signed)
  | numberToBytes {value : Fraction} {width : Option Nat} {size : Nat} :
      value.isZero = true ∨ width = some size → Rule (number value width) (fixedBytes size)
  | number {value : Fraction} {width targetWidth : Option Nat} :
      Rule (number value width) (number value targetWidth)
  | stringToBytes {text : String} {size : Nat} :
      text.utf8ByteSize ≤ size → Rule (stringLiteral text) (fixedBytes size)
  | stringToArray {text : String} {isString : Bool} {place : Place} :
      place.location ≠ .calldata → place ≠ ⟨.storage, true⟩ →
        Rule (stringLiteral text) (byteArray isString place)
  | fixedBytes {size targetSize : Nat} :
      size ≤ targetSize → Rule (fixedBytes size) (fixedBytes targetSize)
  | address {payable : Bool} : Rule (address payable) (address false)
  | contract {c base : ContractTy} :
      c.isSuper = false → base.isSuper = false → base.id ∈ c.bases →
        Rule (contract c) (contract base)
  | byteArray {isString : Bool} {origin place : Place} :
      origin.convertible place = true → Rule (byteArray isString origin) (byteArray isString place)
  /-- An array is copied into storage element by element. -/
  | copiedArray {element targetElement : Ty} {length targetLength : Option Nat} {origin : Place} :
      element.implicitlyConvertible targetElement = true → lengthFits length targetLength = true →
        Rule (array element length origin) (array targetElement targetLength ⟨.storage, false⟩)
  /-- To other places an array is moved as a whole, so only the places may differ. -/
  | movedArray {element targetElement : Ty} {length : Option Nat} {origin place : Place} :
      place ≠ ⟨.storage, false⟩ → origin.convertible place = true →
        element.moveTo ⟨origin.location, true⟩ = targetElement.moveTo ⟨origin.location, true⟩ →
        Rule (array element length origin) (array targetElement length place)
  | struct {id : NodeId} {name targetName : String} {origin place : Place} :
      origin.convertible place = true → Rule (struct id name origin) (struct id targetName place)
  | tuple {components targets : List (Option Ty)} :
      componentsConvertible components targets = true → Rule (tuple components) (tuple targets)
  | function {traits targetTraits : CallTraits} {parameters returns : List Ty} :
      traits.convertible targetTraits = true →
        Rule (function traits parameters returns) (function targetTraits parameters returns)

theorem Rule.converts (rule : Rule source target) : source.implicitlyConvertible target = true := by
  cases rule with
  | same => exact converts_self _
  | integer fits => exact integer_converts_iff.mpr fits
  | numberToInteger fits => exact number_converts_integer_iff.mpr fits
  | fixedBytes fits => exact fixedBytes_converts_iff.mpr fits
  | address => exact address_converts_iff.mpr nofun
  | byteArray allowed => exact byteArray_converts _ allowed
  | copiedArray elements lengths => exact array_converts_reference_iff.mpr ⟨elements, lengths⟩
  | movedArray uncopied allowed elements =>
    rw [implicitlyConvertible.eq_def]
    simp [allowed, uncopied, elements]
  | _ =>
    rw [implicitlyConvertible.eq_def]
    simp_all

theorem Rule.of_converts (valid : source ≠ invalid) (valid' : target ≠ invalid)
    (converts : source.implicitlyConvertible target = true) : Rule source target := by
  rw [implicitlyConvertible.eq_def, or_eq_true] at converts
  rcases converts with same | converts
  · cases beq_iff_eq.mp same
    exact .same _
  split at converts
  · exact absurd rfl valid
  · exact absurd rfl valid'
  · refine .integer (integer_converts_iff.mp ?_)
    rw [implicitlyConvertible.eq_def, or_eq_true]
    exact .inr converts
  · exact .numberToInteger converts
  · exact .numberToBytes ((or_eq_true_iff.mp converts).imp_right beq_iff_eq.mp)
  · cases beq_iff_eq.mp converts
    exact .number
  · exact .stringToBytes (of_decide_eq_true converts)
  · obtain ⟨outside, differs⟩ := and_eq_true_iff.mp converts
    exact .stringToArray (bne_iff_ne.mp outside) (bne_iff_ne.mp differs)
  · exact .fixedBytes (of_decide_eq_true converts)
  · next targetPayable =>
    cases targetPayable with
    | false => exact .address
    | true => cases converts
  · simp only [and_eq_true, not_eq_true', List.contains_iff_mem] at converts
    exact .contract converts.1.1 converts.1.2 converts.2
  · obtain ⟨sameKind, allowed⟩ := and_eq_true_iff.mp converts
    cases beq_iff_eq.mp sameKind
    exact .byteArray allowed
  · obtain ⟨allowed, arrays⟩ := and_eq_true_iff.mp converts
    split at arrays
    · next isReference =>
      cases beq_iff_eq.mp isReference
      obtain ⟨elements, lengths⟩ := and_eq_true_iff.mp arrays
      exact .copiedArray elements lengths
    · next notReference =>
      obtain ⟨elements, lengths⟩ := and_eq_true_iff.mp arrays
      cases beq_iff_eq.mp lengths
      exact .movedArray (fun same => notReference (beq_iff_eq.mpr same)) allowed
        (beq_iff_eq.mp elements)
  · obtain ⟨sameStruct, allowed⟩ := and_eq_true_iff.mp converts
    cases beq_iff_eq.mp sameStruct
    exact .struct allowed
  · exact .tuple converts
  · simp only [and_eq_true, beq_iff_eq] at converts
    obtain ⟨⟨traits, rfl⟩, rfl⟩ := converts
    exact .function traits
  · cases converts

/-- Fixed bytes convert only to fixed bytes. -/
theorem Rule.of_fixedBytes {size : Nat} (rule : Rule (.fixedBytes size) target) :
    ∃ targetSize, size ≤ targetSize ∧ target = .fixedBytes targetSize := by
  cases rule with
  | same => exact ⟨size, le_rfl, rfl⟩
  | fixedBytes fits => exact ⟨_, fits, rfl⟩

/-! ## Parts -/

/-- The parts of types: the types themselves and, through tuples of tuples, their components. -/
inductive Part (types : List Ty) : Ty → Prop
  | member {t : Ty} : t ∈ types → Part types t
  | component {components : List (Option Ty)} {t : Ty} :
      Part types (tuple components) → some t ∈ components → Part types t

theorem isInvalid_of_mem {components : List (Option Ty)} (valid : anyInvalid components = false)
    (mem : some t ∈ components) : t.isInvalid = false := by
  induction components with
  | nil => cases mem
  | cons component rest ih =>
    cases component with
    | none => exact ih valid ((List.mem_cons.mp mem).resolve_left nofun)
    | some first =>
      obtain ⟨own, others⟩ := or_eq_false_iff.mp valid
      rcases List.mem_cons.mp mem with same | later
      · cases same
        exact own
      · exact ih others later

theorem Part.not_isInvalid (valid : ∀ t ∈ types, t.isInvalid = false) (part : Part types t) :
    t.isInvalid = false := by
  induction part with
  | member mem => exact valid _ mem
  | component _ mem ih => exact isInvalid_of_mem ih mem

theorem Part.wellFormed (wf : ∀ t ∈ types, t.WellFormed) (part : Part types t) : t.WellFormed := by
  induction part with
  | member mem => exact wf _ mem
  | component _ mem ih => exact wellFormedSlots_iff.mp ih _ mem

theorem ne_invalid (valid : t.isInvalid = false) : t ≠ invalid := by
  rintro rfl
  cases valid

/-! ## Chains -/

/-- Whether no part of some types is of a kind that breaks chains of conversions. -/
structure Steady (types : List Ty) : Prop where
  literal : ∀ value width, Part types (number value (some width)) → value.isZero = true
  reference : ∀ t, Part types t → t.isStorageReference = false
  contract : ∀ a b c, Part types (contract a) → Part types (contract b) → Part types (contract c) →
    b.id ∈ a.bases → c.id ∈ b.bases → c.id ∈ a.bases

theorem integer_trans {bits'' : Nat} {signed'' : Bool}
    (first : signed = signed' ∧ bits ≤ bits' ∨ signed = false ∧ signed' = true ∧ bits < bits')
    (second : signed' = signed'' ∧ bits' ≤ bits'' ∨ signed' = false ∧ signed'' = true ∧
      bits' < bits'') :
    signed = signed'' ∧ bits ≤ bits'' ∨ signed = false ∧ signed'' = true ∧ bits < bits'' := by
  grind

/-- A type to which an integer type converts holds what that type holds. -/
theorem fitsInteger_of_converts {value : Fraction} (lowest : value.LowestTerms)
    (positive : 1 ≤ bits) (fits : value.fitsInteger bits signed = true)
    (wider : signed = signed' ∧ bits ≤ bits' ∨ signed = false ∧ signed' = true ∧ bits < bits') :
    value.fitsInteger bits' signed' = true := by
  have positive' : 1 ≤ bits' := by omega
  have inclusion : range bits signed ⊆ range bits' signed' :=
    (integer_converts_iff_subset positive positive').mp (integer_converts_iff.mpr wider)
  obtain ⟨z, inside, equal⟩ := (Fraction.fitsInteger_iff_range lowest positive).mp fits
  exact (Fraction.fitsInteger_iff_range lowest positive').mpr ⟨z, inclusion inside, equal⟩

/-- Whether data differs only in its places does not depend on the place that it is compared at. -/
theorem moveTo_eq_of_moveTo_eq (equal : source.moveTo place = target.moveTo place) (other : Place) :
    source.moveTo other = target.moveTo other := by
  rw [← moveTo_moveTo source place other, equal, moveTo_moveTo]

theorem ne_reference (plain : t.isStorageReference = false) (placed : t.place? = some place) :
    place ≠ ⟨.storage, false⟩ := by
  rintro rfl
  rw [isStorageReference, placed] at plain
  cases plain

/-- Two conversions in a row are one, if this is known about the components of tuples. -/
theorem Steady.chain (steady : Steady types) (wf : ∀ t ∈ types, t.WellFormed)
    (start : Part types source)
    (between : Part types middle) (stop : Part types target) (first : Rule source middle)
    (second : Rule middle target)
    (nested : ∀ xs ys zs, source = tuple xs → middle = tuple ys → target = tuple zs →
      componentsConvertible xs ys = true → componentsConvertible ys zs = true →
        componentsConvertible xs zs = true) : Rule source target := by
  cases first with
  | same => exact second
  | integer wider =>
    cases second with
    | same => exact .integer wider
    | integer wider' => exact .integer (integer_trans wider wider')
  | numberToInteger fits =>
    cases second with
    | same => exact .numberToInteger fits
    | integer wider =>
      have positive := (between.wellFormed wf).2.1
      exact .numberToInteger (fitsInteger_of_converts (start.wellFormed wf).1 (by omega) fits wider)
  | numberToBytes allowed =>
    cases second with
    | same => exact .numberToBytes allowed
    | fixedBytes fits =>
      rcases allowed with zero | rfl
      · exact .numberToBytes (.inl zero)
      · exact .numberToBytes (.inl (steady.literal _ _ start))
  | number =>
    cases second with
    | same | number => exact .number
    | numberToInteger fits => exact .numberToInteger fits
    | numberToBytes allowed =>
      rcases allowed with zero | rfl
      · exact .numberToBytes (.inl zero)
      · exact .numberToBytes (.inl (steady.literal _ _ between))
  | stringToBytes fits =>
    cases second with
    | same => exact .stringToBytes fits
    | fixedBytes fits' => exact .stringToBytes (fits.trans fits')
  | stringToArray outside differs =>
    cases second with
    | same => exact .stringToArray outside differs
    | byteArray allowed =>
      have uncopied := ne_reference (steady.reference _ between) rfl
      obtain ⟨outside', differs'⟩ := Place.literal_of_convertible uncopied outside differs allowed
      exact .stringToArray outside' differs'
  | fixedBytes fits =>
    cases second with
    | same => exact .fixedBytes fits
    | fixedBytes fits' => exact .fixedBytes (fits.trans fits')
  | address =>
    cases second with
    | same | address => exact .address
  | contract ordinary ordinary' mem =>
    cases second with
    | same => exact .contract ordinary ordinary' mem
    | contract _ ordinary'' mem' =>
      exact .contract ordinary ordinary'' (steady.contract _ _ _ start between stop mem mem')
  | byteArray allowed =>
    cases second with
    | same => exact .byteArray allowed
    | byteArray allowed' =>
      have uncopied := ne_reference (steady.reference _ between) rfl
      exact .byteArray (Place.convertible_trans uncopied allowed allowed')
  | copiedArray => cases steady.reference _ between
  | movedArray uncopied allowed elements =>
    cases second with
    | same => exact .movedArray uncopied allowed elements
    | copiedArray => cases steady.reference _ stop
    | movedArray uncopied' allowed' elements' =>
      exact .movedArray uncopied' (Place.convertible_trans uncopied allowed allowed')
        (elements.trans (moveTo_eq_of_moveTo_eq elements' _))
  | struct allowed =>
    cases second with
    | same => exact .struct allowed
    | struct allowed' =>
      have uncopied := ne_reference (steady.reference _ between) rfl
      exact .struct (Place.convertible_trans uncopied allowed allowed')
  | tuple converts =>
    cases second with
    | same => exact .tuple converts
    | tuple converts' => exact .tuple (nested _ _ _ rfl rfl rfl converts converts')
  | function allowed =>
    cases second with
    | same => exact .function allowed
    | function allowed' => exact .function (CallTraits.convertible_trans allowed allowed')

/-- Components are converted one by one. What the last tuple leaves out may be left out before. -/
theorem componentsConvertible_trans {xs ys zs : List (Option Ty)}
    (each : ∀ x y z, some x ∈ xs → some y ∈ ys → some z ∈ zs → x.implicitlyConvertible y = true →
      y.implicitlyConvertible z = true → x.implicitlyConvertible z = true)
    (first : componentsConvertible xs ys = true) (second : componentsConvertible ys zs = true) :
    componentsConvertible xs zs = true := by
  induction xs generalizing ys zs with
  | nil =>
    cases ys with
    | nil => exact second
    | cons y ys => cases y <;> cases first
  | cons x xs ih =>
    cases ys with
    | nil => cases x <;> cases first
    | cons y ys =>
      cases zs with
      | nil => cases y <;> cases second
      | cons z zs =>
        have rest (others : componentsConvertible xs ys = true)
            (others' : componentsConvertible ys zs = true) : componentsConvertible xs zs = true :=
          ih (fun a b c memA memB memC => each a b c (.tail _ memA) (.tail _ memB) (.tail _ memC))
            others others'
        cases y with
        | none =>
          cases z with
          | none => exact rest first second
          | some z => cases second
        | some y =>
          cases x with
          | none => cases first
          | some x =>
            obtain ⟨toMiddle, others⟩ := and_eq_true_iff.mp first
            cases z with
            | none => exact rest others second
            | some z =>
              obtain ⟨toTarget, others'⟩ := and_eq_true_iff.mp second
              exact and_eq_true_iff.mpr ⟨each x y z (.head _) (.head _) (.head _) toMiddle toTarget,
                rest others others'⟩

/-- **Chains.** Conversions between parts of steady types can be chained. -/
theorem Steady.trans (steady : Steady types) (valid : ∀ t ∈ types, t.isInvalid = false)
    (wf : ∀ t ∈ types, t.WellFormed) (start : Part types source) (between : Part types middle)
    (stop : Part types target) (first : source.implicitlyConvertible middle = true)
    (second : middle.implicitlyConvertible target = true) :
    source.implicitlyConvertible target = true := by
  induction size :
    sizeOf source using Nat.strong_induction_on generalizing source middle target with
  | _ n ih =>
    subst size
    have sourceValid := ne_invalid (start.not_isInvalid valid)
    have middleValid := ne_invalid (between.not_isInvalid valid)
    have targetValid := ne_invalid (stop.not_isInvalid valid)
    refine (steady.chain wf start between stop (.of_converts sourceValid middleValid first)
      (.of_converts middleValid targetValid second) ?_).converts
    rintro xs ys zs rfl rfl rfl converts converts'
    refine componentsConvertible_trans
      (fun x y z inSource inMiddle inTarget toMiddle toTarget => ?_) converts
      converts'
    have smaller : sizeOf x < sizeOf (tuple xs) := by
      have inList := List.sizeOf_lt_of_mem inSource
      simp only [Option.some.sizeOf_spec, tuple.sizeOf_spec] at inList ⊢
      omega
    exact ih _ smaller (.component start inSource) (.component between inMiddle)
      (.component stop inTarget) toMiddle toTarget rfl

end Ty

end ContractTyping
