import ContractTyping.Proofs.Remarks

/-!
# Members that the language supplies

What the language gives to a type is made of a few types, of the elements of an array, or of the
integer type that a meta type is about, and it has no declaration. What it refuses, it refuses for
an ordinary reason.

* `Ty.Supplies` is what a member of a type can be.
* `BuiltinMember.fits_of`: every member that the language supplies is of this kind.
-/

namespace ContractTyping

namespace Ty

variable {base : Ty}

/-- The types that the language uses in members of its own. -/
def isBasic : Ty → Bool
  | bool | address _ | byteArray .. => true
  | integer bits _ => bits == 8 || bits == 256
  | fixedBytes size => size == 1 || size == 4 || size == 32
  | _ => false

/-- What a parameter of a member of a type can be: a basic type or that of an element. -/
inductive Passes (base : Ty) : Ty → Prop
  | basic {t : Ty} (isBasic : t.isBasic = true) : Passes base t
  | element {element : Ty} {length : Option Nat} {place : Place}
      (isArray : base = array element length place)
      (place' : Place) : Passes base (element.moveTo place')

/-- What a member of a type can be. A function that the language supplies has no declaration. -/
inductive Supplies (base : Ty) : Ty → Prop
  | basic {t : Ty} (isBasic : t.isBasic = true) : Supplies base t
  | actual {bits : Nat} {signed : Bool} (isMeta : base = metaType (integer bits signed)) :
      Supplies base (integer bits signed)
  | function {traits : CallTraits} {parameters returns : List Ty}
      (undeclared : traits.declaration = none)
      (passed : ∀ t ∈ parameters, base.Passes t) (returned : ∀ t ∈ returns, base.Passes t) :
      Supplies base (function traits parameters returns)

theorem passes_nil : ∀ t ∈ ([] : List Ty), base.Passes t := List.forall_mem_nil _

theorem passes_cons {t : Ty} {types : List Ty} (isBasic : t.isBasic = true)
    (rest : ∀ t ∈ types, base.Passes t) : ∀ t' ∈ t :: types, base.Passes t' :=
  List.forall_mem_cons.mpr ⟨.basic isBasic, rest⟩

end Ty

namespace BuiltinMember

variable (base : Ty) (context : Context)
variable (arguments : Option Arguments)

/-- Whether a member is one that the language may supply, or is refused for an ordinary reason. -/
structure Fits (base : Ty) (member : BuiltinMember) : Prop where
  supplies : ∀ t, member = some (.ok t) → base.Supplies t
  ordinary : ∀ issue, member = some (.error issue) → issue.isOrdinary

namespace Fits

variable {base : Ty}

theorem none : Fits base none := by
  constructor <;> rintro _ ⟨⟩

theorem error {issue : Issue} (ordinary : issue.isOrdinary) : Fits base (some (.error issue)) := by
  constructor <;> rintro _ ⟨⟩
  exact ordinary

theorem found {t : Ty} (supplies : base.Supplies t) : Fits base (found t) := by
  constructor <;> rintro _ ⟨⟩
  exact supplies

theorem function {kind : CallKind} {parameters returns : List Ty} {mutability : Mutability}
    (passed : ∀ t ∈ parameters, base.Passes t) (returned : ∀ t ∈ returns, base.Passes t) :
    Fits base (function kind parameters returns mutability) :=
  found (.function rfl passed returned)

theorem gated {t : Ty} (supplies : base.Supplies t) (context : Context) (feature : Feature)
    (available : EvmVersion → Bool) : Fits base (gated context feature available t) := by
  unfold BuiltinMember.gated
  cases result : context.requireFeature feature available with
  | ok _ => exact found supplies
  | error issue => exact error (Context.requireFeature_ordinary result)

end Fits

open Ty (passes_nil passes_cons)

theorem fits_ofAddress (payable : Bool) (name : String) :
    Fits base (ofAddress context payable name) := by
  have outcome : ∀ t ∈ [Ty.bool, .bytesMemory], base.Passes t :=
    passes_cons rfl (passes_cons rfl passes_nil)
  unfold ofAddress
  split
  · exact .found (.basic rfl)
  · exact .found (.basic rfl)
  · exact .gated (.basic rfl) _ _ _
  · split
    · exact .function (passes_cons rfl passes_nil) passes_nil
    · exact .error rfl
  · split
    · exact .function (passes_cons rfl passes_nil) (passes_cons rfl passes_nil)
    · exact .error rfl
  · exact .function (passes_cons rfl passes_nil) outcome
  · exact .function (passes_cons rfl passes_nil) outcome
  · exact .gated (.function rfl (passes_cons rfl passes_nil) outcome) _ _ _
  · exact .none

theorem fits_ofArray (array : Ty) (name : String) : Fits array (ofArray arguments array name) := by
  unfold ofArray
  extract_lets growing
  have grows (element : Ty) (equal : growing = some element) : ∀ t ∈ [element], array.Passes t := by
    refine List.forall_mem_singleton.mpr ?_
    dsimp only [growing] at equal
    split at equal
    · cases equal
      exact .basic rfl
    · cases equal
      exact .element rfl _
    · cases equal
  clear_value growing
  split
  · exact .found (.basic rfl)
  · exact .function passes_nil passes_nil
  · next element =>
    split
    · exact .function passes_nil (grows element rfl)
    · exact .function (grows element rfl) passes_nil
  · exact .none

theorem fits_ofFunction (kind : CallKind) (name : String) : Fits base (ofFunction kind name) := by
  unfold ofFunction
  split
  all_goals first | exact .none | split
  all_goals first | exact .none | exact .error rfl | exact .found (.basic rfl)

theorem fits_ofMagic (kind : MagicKind) (name : String) :
    Fits base (ofMagic context kind name) := by
  have data : ∀ t ∈ [Ty.bytesMemory], base.Passes t := passes_cons rfl passes_nil
  unfold ofMagic
  split
  case h_14 | h_15 => exact .found (.function rfl passes_nil data)
  case h_16 | h_17 => exact .found (.function rfl (passes_cons rfl passes_nil) data)
  case h_18 => exact .found (.function rfl passes_nil passes_nil)
  all_goals first | exact .none | exact .found (.basic rfl) | exact .gated (.basic rfl) _ _ _

theorem fits_ofMetaType (actual : Ty) (name : String) :
    Fits (.metaType actual) (ofMetaType context actual name) := by
  unfold ofMetaType
  split
  all_goals first | exact .none | exact .found (.actual rfl) | exact .found (.basic rfl) | split
  all_goals first | exact .none | exact .error rfl | exact .found (.basic rfl)

theorem fits_of (base : Ty) (name : String) : Fits base (of context arguments base name) := by
  unfold of
  split
  · exact fits_ofAddress _ _ _ _
  · exact fits_ofArray _ _ _
  · exact fits_ofArray _ _ _
  · split
    · exact .found (.basic rfl)
    · exact .none
  · exact fits_ofFunction _ _ _
  · exact fits_ofMagic _ _ _ _
  · exact fits_ofMetaType _ _ _
  · exact .none

end BuiltinMember

end ContractTyping
