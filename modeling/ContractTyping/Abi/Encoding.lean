import ContractTyping.Abi.StructTable

/-!
# What can be encoded

The rules of the second coder only exclude types without any representation. Those of the first also
exclude data of varying size inside other data.
-/

namespace ContractTyping

namespace Ty

/-- Whether a type that is no struct and no array has a representation. -/
def isEncodableLeaf : Ty → Bool
  | invalid | integer .. | bool | address _ | fixedBytes _ | contract _ | stringLiteral _
  | byteArray .. | struct .. => true
  | number value byteWidth => (number value byteWidth).mobile?.isSome
  | function traits _ _ => traits.kind == .external
  | _ => false

/-- Whether a type varies in size without a struct in between. -/
def isDynamicLeaf : Ty → Bool
  | byteArray .. => true
  | array _ none _ => true
  | array element (some _) _ => element.isDynamicLeaf
  | _ => false

end Ty

namespace StructTable

/-- Whether the encoding of a type varies in size. -/
def isDynamic (table : StructTable) (t : Ty) : Bool := (table.inlineParts t).any Ty.isDynamicLeaf

/-- Whether a type can be encoded: no struct in it contains itself, all of it is representable. -/
def isEncodable (table : StructTable) (t : Ty) : Bool :=
  (table.reachable table.successors t.structs).all (fun id => !table.isRecursive id) &&
    (table.allParts t).all fun part => part.leaf.isEncodableLeaf

/-- Whether no element of an array in a type varies in size. -/
def hasStaticElements (table : StructTable) : Ty → Bool
  | .array element _ _ => !table.isDynamic element && table.hasStaticElements element
  | _ => true

/-- Whether the first coder can encode a type: nothing inside it varies in size. Data in storage is
handed to a library by reference. -/
def isLegacyEncodable (table : StructTable) (t : Ty) (isLibraryCall : Bool) : Bool :=
  isLibraryCall && t.location? == some .storage ||
    table.hasStaticElements t &&
      ((table.reachable table.successors t.structs).flatMap table.members).all fun member =>
        !table.isDynamic member && table.hasStaticElements member

end StructTable

end ContractTyping
