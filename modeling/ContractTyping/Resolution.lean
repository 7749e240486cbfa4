import ContractTyping.Abi.StructTable
import ContractTyping.Constant
import ContractTyping.Inheritance
import ContractTyping.Issue.Basic

/-!
# Resolving type names

From type names to types. An issue that is found on the way is returned and not yet reported, since
the same type name may be resolved many times.
-/

namespace ContractTyping

/-- Computations that end with an issue for the user, or with a fault. -/
abbrev Resolving (α : Type) := ExceptT Issue (Except Fault) α

/-- Where the data of a variable lives, as declared. -/
def VariableTraits.place (traits : VariableTraits) : Place :=
  if traits.isState then ⟨.storage, false⟩
  else match traits.location with
    | .storage => ⟨.storage, true⟩
    | .memory | .unspecified => .memory
    | .calldata => ⟨.calldata, false⟩

namespace Declarations

def contractTy (d : Declarations) (c : Contract) : ContractTy where
  id := c.id
  name := c.name
  kind := c.kind
  canReceive := d.canReceive c
  isSuper := false
  bases := d.linearized c

/-- The type of a struct. Inside a contract it is named after the contract as well. -/
def structTy (d : Declarations) (s : StructDef) (scope : Option NodeId) (place : Place) : Ty :=
  let name := match scope.bind d.contract? with
    | some c => c.name ++ "." ++ s.name
    | none => s.name
  .struct s.node.id name place

/-- The length of an array type. -/
def arrayLength (d : Declarations) : Option Expr → Resolving (Option Nat)
  | none => pure none
  | some e => do
    match ← d.evaluate e with
    | none => throw (.invalidTypeName .arrayLength)
    | some value =>
      if value.isZero then throw (.invalidTypeName .zeroLength)
      else match value.toWord? with
        | some length => pure (some length.toNat)
        | none => throw (.invalidTypeName .arrayLength)

/-- The type that a path names. -/
def resolvePath (d : Declarations) (path : Path) (place : Place) : Resolving Ty := do
  let some id := path.target | throw (.unresolvedReference path.name)
  match d.lookup? id with
  | none => throwThe Fault (.danglingReference path.node.id id)
  | some ⟨.contract c, _⟩ => pure (.contract (d.contractTy c))
  | some ⟨.struct s, scope⟩ => pure (d.structTy s scope place)
  | some _ => throw (.invalidTypeName .notType)

mutual

/-- The type that a type name denotes, at a place. -/
def resolve (d : Declarations) : TypeName → Place → Resolving Ty
  | .elementary _ name payable, place =>
    match Ty.elementary? name payable with
    | .ok t => pure (t.moveTo place)
    | .error refusal => throw (.invalidTypeName (.elementary refusal))
  | .userDefined _ path, place => d.resolvePath path place
  | .mapping _ key value, _ => do
    let keyTy ← d.resolve key .memory
    unless keyTy.isValueType || keyTy.isByteArray do throw (.invalidTypeName .mappingKey)
    let valueTy ← d.resolve value ⟨.storage, true⟩
    pure (.mappingOf keyTy valueTy)
  | .array _ base length, place => do
    let element ← d.resolve base ⟨place.location, true⟩
    let length ← d.arrayLength length
    pure ((Ty.arrayOf element length place.location).moveTo place)
  | .function _ parameters returns visibility mutability, _ => do
    let parameters ← d.declaredTypes parameters
    let returns ← d.declaredTypes returns
    let kind := if visibility == .external then CallKind.external else .internal
    pure (FunctionTy.of kind parameters returns mutability).toTy

/-- The type of a variable by its type name. -/
def declaredType (d : Declarations) : Variable → Resolving Ty
  | .mk _ none _ => throw (.invalidDeclaration .untyped)
  | .mk traits (some typeName) _ => d.resolve typeName traits.place

def declaredTypes (d : Declarations) : List Variable → Resolving (List Ty)
  | [] => pure []
  | v :: rest => do
    let t ← d.declaredType v
    let types ← d.declaredTypes rest
    pure (t :: types)

end

/-- A type that could not be resolved is invalid. -/
def orInvalid (resolving : Resolving Ty) : Except Fault Ty :=
  return (← resolving.run).toOption.getD .invalid

/-- The members of a struct at a location, by name. -/
def structMembers (d : Declarations) (id : NodeId) (location : DataLocation) :
    Except Fault (List (String × Ty)) :=
  match d.struct? id with
  | none => pure []
  | some (s, _) => s.members.mapM fun member => do
    let t ← match member.typeName with
      | some typeName => orInvalid (d.resolve typeName ⟨location, true⟩)
      | none => pure .invalid
    pure (member.name, t.moveTo ⟨location, false⟩)

/-- The member types of all structs in memory. One with a dangling reference counts as empty. -/
def structTable (d : Declarations) : StructTable where
  entries := d.entries.filterMap fun (id, declaration) =>
    match declaration.item with
    | .struct _ =>
      let members := (d.structMembers id .memory).toOption.getD []
      some (id, members.map Prod.snd)
    | _ => none

end Declarations

end ContractTyping
