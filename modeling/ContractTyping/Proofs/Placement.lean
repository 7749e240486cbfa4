import ContractTyping.Proofs.Location

/-!
# Conversions between places

What a conversion keeps in place, and what it copies.

A storage pointer is only made of data in storage and a value in calldata only of one in calldata,
and a mapping converts to nothing but itself. This holds of every part of a tuple, at any depth of
tuples (`converted_in_place`).

Data may always be copied to memory. It may be copied to storage as well, but the copy is made
element by element, and elements that are arrays or structs are pointed to. So an array of these is
taken from storage only, although each of its elements could be copied on its own
(`copy_converts_iff`, `nested_copy_refused`).
-/

namespace ContractTyping

open Bool

namespace Ty

variable {source target part : Ty}
variable {position : Nat}

/-! ## Parts of tuples -/

/-- The component of a tuple at a position, if it is not missing. -/
def component? : Ty → Nat → Option Ty
  | tuple components, position => components[position]?.join
  | _, _ => none

/-- The part of a type at a path of positions through tuples of tuples. -/
def part? (t : Ty) (path : List Nat) : Option Ty := path.foldlM component? t

/-- A component of the target takes a component of the source that converts to it. -/
theorem exists_of_componentsConvertible {components targets : List (Option Ty)}
    (converts : componentsConvertible components targets = true)
    (found : targets[position]?.join = some part) :
    ∃ t, components[position]?.join = some t ∧ t.implicitlyConvertible part = true := by
  induction components generalizing targets position with
  | nil =>
    cases targets with
    | nil => cases found
    | cons target targets => cases target <;> cases converts
  | cons component components ih =>
    cases targets with
    | nil => cases found
    | cons target targets =>
      cases target with
      | none =>
        cases position with
        | zero => cases found
        | succ position => exact ih converts found
      | some target =>
        cases component with
        | none => cases converts
        | some t =>
          obtain ⟨first, rest⟩ := and_eq_true_iff.mp converts
          cases position with
          | zero =>
            cases found
            exact ⟨t, rfl, first⟩
          | succ position => exact ih rest found

theorem Clean.component? {t : Ty} (clean : t.Clean) (found : t.component? position = some part) :
    part.Clean := by
  cases t with
  | tuple components =>
    exact cleanSlots_iff.mp clean part (List.mem_of_getElem? (Option.join_eq_some_iff.mp found))
  | _ => cases found

/-- What converts to a tuple is a tuple whose components convert. -/
theorem component?_of_converts (clean : source.Clean)
    (converts : source.implicitlyConvertible target = true)
    (found : target.component? position = some part) :
    ∃ t, source.component? position = some t ∧ t.Clean ∧ t.implicitlyConvertible part = true := by
  cases target with
  | tuple targets =>
    rw [implicitlyConvertible.eq_def, or_eq_true] at converts
    rcases converts with same | converts
    · cases beq_iff_eq.mp same
      exact ⟨part, found, clean.component? found, converts_self part⟩
    · cases source with
      | invalid => exact clean.elim
      | tuple components =>
        obtain ⟨t, inside, converts⟩ := exists_of_componentsConvertible converts found
        exact ⟨t, inside, clean.component? inside, converts⟩
      | _ => cases converts
  | _ => cases found

/-- A part of what is converted to comes from the part on the same path, and converts as well. -/
theorem part?_of_converts (clean : source.Clean)
    (converts : source.implicitlyConvertible target = true)
    {path : List Nat} (found : target.part? path = some part) :
    ∃ t, source.part? path = some t ∧ t.Clean ∧ t.implicitlyConvertible part = true := by
  induction path generalizing source target with
  | nil =>
    cases found
    exact ⟨source, rfl, clean, converts⟩
  | cons position path ih =>
    obtain ⟨component, first, rest⟩ := Option.bind_eq_some_iff.mp found
    obtain ⟨t, inside, cleanInside, convertsInside⟩ := component?_of_converts clean converts first
    obtain ⟨t', below, cleanBelow, convertsBelow⟩ := ih cleanInside convertsInside rest
    refine ⟨t', ?_, cleanBelow, convertsBelow⟩
    exact Option.bind_eq_some_iff.mpr ⟨t, inside, below⟩

/-! ## Data in place -/

/-- What a conversion says about the place its data comes from. -/
structure KeepsPlace (source target : Ty) : Prop where
  /-- A storage pointer has data in storage to point to. -/
  pointer : target.isStoragePointer = true → source.location? = some .storage
  calldata : target.location? = some .calldata → source.location? = some .calldata
  mapping : ∀ key value, target = mapping key value → source = target

theorem KeepsPlace.ofConverts (valid : source.isInvalid = false)
    (converts : source.implicitlyConvertible target = true) : KeepsPlace source target where
  pointer isPointer := by
    have placed : target.place? = some ⟨.storage, true⟩ := beq_iff_eq.mp isPointer
    refine storage_of_converts valid converts (location?_of_place? placed) ?_
    rw [isStorageReference, placed]
    rfl
  calldata := calldata_of_converts valid converts
  mapping key value equal := by
    subst equal
    exact eq_of_converts_mapping valid converts

end Ty

/-- **Conversions keep data in place.** Whatever part of a type without the invalid type ends up as
a storage pointer was in storage, what ends up in calldata was in calldata, and what ends up as a
mapping was that mapping. A part of the target that is not missing always has a part of the source
that it comes from. -/
theorem converted_in_place {source target part : Ty} (clean : source.Clean)
    (converts : source.implicitlyConvertible target = true) {path : List Nat}
    (found : target.part? path = some part) :
    ∃ origin, source.part? path = some origin ∧ Ty.KeepsPlace origin part := by
  obtain ⟨origin, inside, cleanInside, convertsInside⟩ := Ty.part?_of_converts clean converts found
  exact ⟨origin, inside, .ofConverts cleanInside.not_isInvalid convertsInside⟩

/-- Bytes in a tuple of tuples are pointed to, and the values beside them are left out. -/
theorem converted_in_place_nested :
    let source := Ty.tuple
      [some (.tuple [some .bool, some (.byteArray false ⟨.storage, false⟩)]), some .uint256]
    let target := Ty.tuple [some (.tuple [none, some (.byteArray false ⟨.storage, true⟩)]), none]
    source.Clean ∧ source.implicitlyConvertible target = true ∧
      target.part? [0, 1] = some (.byteArray false ⟨.storage, true⟩) ∧
      ∃ origin, source.part? [0, 1] = some origin ∧
        Ty.KeepsPlace origin (.byteArray false ⟨.storage, true⟩) := by
  intro source target
  have clean : source.Clean := ⟨⟨trivial, trivial, trivial⟩, trivial, trivial⟩
  have converts : source.implicitlyConvertible target = true := by decide +kernel
  exact ⟨clean, converts, rfl, converted_in_place clean converts rfl⟩

/-! ## Copies -/

namespace Ty

variable {origin place : Place}
variable (t : Ty)

theorem byteArray_converts (isString : Bool) (allowed : origin.convertible place = true) :
    (byteArray isString origin).implicitlyConvertible (byteArray isString place) = true := by
  rw [implicitlyConvertible.eq_def, or_eq_true]
  exact .inr (and_eq_true_iff.mpr ⟨beq_self_eq_true _, allowed⟩)

theorem struct_converts (id : NodeId) (name : String) (allowed : origin.convertible place = true) :
    (struct id name origin).implicitlyConvertible (struct id name place) = true := by
  rw [implicitlyConvertible.eq_def, or_eq_true]
  exact .inr (and_eq_true_iff.mpr ⟨beq_self_eq_true _, allowed⟩)

/-- Data moves to every place that its own place allows, except for copies into storage. -/
theorem moveTo_converts (allowed : origin.convertible place = true)
    (uncopied : place ≠ ⟨.storage, false⟩) :
    (t.moveTo origin).implicitlyConvertible (t.moveTo place) = true := by
  cases t with
  | byteArray isString old => exact byteArray_converts isString allowed
  | array element length old =>
    rw [implicitlyConvertible.eq_def, or_eq_true]
    refine .inr (and_eq_true_iff.mpr ⟨allowed, ?_⟩)
    rw [if_neg (by simpa using uncopied), moveTo_moveTo, moveTo_moveTo]
    simp
  | struct id name old => exact struct_converts id name allowed
  | _ => exact converts_self _

theorem place?_moveTo (place : Place) : (t.moveTo place).place? = t.place?.map fun _ => place := by
  cases t <;> rfl

/-- What has no place stays as it is. -/
theorem moveTo_eq_self {t : Ty} (unplaced : t.place? = none) (place : Place) :
    t.moveTo place = t := by
  cases t <;> cases unplaced <;> rfl

theorem not_isInvalid_of_place? {t : Ty} (placed : t.place? = some place) :
    t.isInvalid = false := by
  cases t <;> cases placed <;> rfl

/-- Data is pointed to in storage only if it is there. -/
theorem moveTo_converts_pointer_iff (origin : Place) :
    (t.moveTo origin).implicitlyConvertible (t.moveTo ⟨.storage, true⟩) = true ↔
      origin.location = .storage ∨ t.place? = none := by
  constructor
  · intro converts
    cases placed : t.place? with
    | none => exact .inr rfl
    | some old =>
      have before : (t.moveTo origin).place? = some origin := by
        rw [place?_moveTo, placed]
        rfl
      have pointing : (t.moveTo ⟨.storage, true⟩).isStoragePointer = true := by
        rw [isStoragePointer, place?_moveTo, placed]
        rfl
      have kept :=
        (KeepsPlace.ofConverts (not_isInvalid_of_place? before) converts).pointer pointing
      rw [location?_of_place? before] at kept
      exact .inl (Option.some.inj kept)
  · rintro (stored | unplaced)
    · exact moveTo_converts t (beq_iff_eq.mpr stored) (by decide)
    · rw [moveTo_eq_self unplaced, moveTo_eq_self unplaced]
      exact converts_self t

theorem lengthFits_self (length : Option Nat) : lengthFits length length = true := by
  cases length with
  | none => rfl
  | some n => exact decide_eq_true (Nat.le_refl n)

/-- An array is copied into storage element by element. -/
theorem array_converts_reference_iff {element targetElement : Ty}
    {length targetLength : Option Nat} :
    (array element length origin).implicitlyConvertible
      (array targetElement targetLength ⟨.storage, false⟩) = true ↔
      element.implicitlyConvertible targetElement = true ∧
      lengthFits length targetLength = true := by
  rw [implicitlyConvertible.eq_def, or_eq_true, ← and_eq_true_iff]
  constructor
  · rintro (same | copied)
    · cases beq_iff_eq.mp same
      rw [converts_self, lengthFits_self]
      rfl
    · exact copied
  · exact .inr

/-- Data is copied into storage from there or, if no elements are pointed to, from anywhere. -/
theorem moveTo_converts_reference_iff (origin : Place) :
    (t.moveTo origin).implicitlyConvertible (t.moveTo ⟨.storage, false⟩) = true ↔
      origin.location = .storage ∨ ∀ element, t.element? = some element →
        element.place? = none := by
  cases t with
  | array element length old =>
    have elements : (∀ t, (array element length old).element? = some t → t.place? = none) ↔
        element.place? = none := by
      simp [element?]
    -- Whatever the array is moved to, its elements are moved as pointers.
    rw [elements, ← moveTo_converts_pointer_iff element ⟨origin.location, true⟩]
    exact array_converts_reference_iff.trans (and_iff_left (lengthFits_self length))
  | byteArray isString old =>
    refine iff_of_true (byteArray_converts isString rfl) (.inr fun element found => ?_)
    cases found
    rfl
  | struct id name old =>
    refine iff_of_true (struct_converts id name rfl) (.inr fun element found => ?_)
    cases found
  | _ =>
    refine iff_of_true (converts_self _) (.inr fun element found => ?_)
    cases found

/-- Whether data of a type can be copied as a whole: bytes, strings, structs, and arrays of any
depth of these or of values. -/
def isCopyable : Ty → Bool
  | byteArray .. | struct .. => true
  | array element _ _ => element.isValueType || element.isCopyable
  | _ => false

end Ty

/-- **Where copies come from.** Data moves to memory from every place. It moves to storage from
storage, and from the other locations precisely if it is not an array of arrays or structs. -/
theorem copy_converts_iff (t : Ty) (origin : Place) :
    (t.moveTo origin).implicitlyConvertible (t.moveTo .memory) = true ∧
      ((t.moveTo origin).implicitlyConvertible (t.moveTo ⟨.storage, false⟩) = true ↔
        origin.location = .storage ∨ ∀ element, t.element? = some element →
          element.place? = none) :=
  ⟨Ty.moveTo_converts t rfl (by decide), Ty.moveTo_converts_reference_iff t origin⟩

/-- A contract that fills an array of arrays with what it is given in memory. -/
def fillingUnit : SourceUnit :=
  let node (id : Int64) : Node := ⟨⟨id⟩, .unknown⟩
  let rows (outer inner cell : Int64) : Option TypeName :=
    some (.array (node outer)
      (.array (node inner) (.elementary (node cell) "uint256" false) none) none)
  { node := node 1
    path := "filling"
    abiCoder := none
    parts := [.contract ⟨node 2, "Table", .contract, false, [], [],
      [.stateVariable (.mk { node := node 3, name := "rows", isState := true } (rows 4 5 6) none),
        .function { (default : Function) with
          node := node 7, name := "fill"
          parameters :=
            [.mk { node := node 8, name := "given", location := .memory } (rows 9 10 11) none]
          body := some (.mk (node 12) [.expression (node 13) (.assignment (node 14) none
            (.identifier (node 15) "rows" (some ⟨3⟩) [])
            (.identifier (node 16) "given" (some ⟨8⟩) []))] false) }]⟩] }

/-- Not all data can be copied into storage: an array of arrays in memory is refused, and so is the
assignment of one to a state variable. -/
theorem nested_copy_refused :
    (¬ ∀ (t : Ty) (origin : Place), t.isCopyable = true →
      (t.moveTo origin).implicitlyConvertible (t.moveTo .memory) = true ∧
        (t.moveTo origin).implicitlyConvertible (t.moveTo ⟨.storage, false⟩) = true) ∧
    ∃ report, check fillingUnit {} = .ok report ∧ report.diagnostics.map (·.issue) =
      [.typeMismatch (.arrayOf (.arrayOf .uint256 none .storage) none .storage)
        (.arrayOf (.arrayOf .uint256 none .memory) none .memory)] := by
  refine ⟨fun copied => ?_, exists_ok (by decide +kernel)⟩
  have refused := (copied (.arrayOf (.arrayOf .uint256 none .memory) none .memory) .memory rfl).2
  rw [Ty.moveTo_converts_reference_iff] at refused
  obtain stored | flat := refused
  · cases stored
  · cases flat _ rfl

end ContractTyping
