import ContractTyping.Proofs.Resolved
import ContractTyping.Proofs.Struct.Search

/-!
# What types contain

A type contains the elements of its arrays and the members of its structs, and what these contain
(`Declarations.Contains`). The members are those of the declarations, with the types that their type
names denote. Where all of them denote types, the table of structs knows them all
(`Declarations.Complete`), and what can be encoded contains only what can be encoded
(`Declarations.Contains.isEncodable`): no mapping, and no struct that is met inside one of its own
members (`Declarations.not_isRecursive_of_isEncodable`).
-/

namespace ContractTyping

open List StructTable

/-! ## Places make no difference -/

namespace Ty

variable (t : Ty)

theorem structs_moveTo (place : Place) : (t.moveTo place).structs = t.structs := by
  fun_induction Ty.moveTo t place with
  | case1 | case3 | case4 => rfl
  | case2 place element length old ih => exact ih

theorem isEncodableLeaf_moveTo (place : Place) :
    (t.moveTo place).leaf.isEncodableLeaf = t.leaf.isEncodableLeaf := by
  fun_induction Ty.moveTo t place with
  | case1 | case3 | case4 => rfl
  | case2 place element length old ih => exact ih

end Ty

namespace Declarations

variable {d : Declarations} {id : NodeId} {t inner : Ty}
variable {place : Place} {α β : Type} {s : StructDef} {scope : Option NodeId} {name : String}

/-! ## Members of structs -/

/-- Whether a type is that of a member of a struct, for some place. -/
def HasMember (d : Declarations) (id : NodeId) (t : Ty) : Prop :=
  ∃ s scope, d.struct? id = some (s, scope) ∧ ∃ v ∈ s.members, ∃ typeName place,
    v.typeName = some typeName ∧ (d.resolve typeName place).run = .ok (.ok t)

/-- Whether all members of structs have a type. -/
def Complete (d : Declarations) : Prop :=
  ∀ id s scope, d.struct? id = some (s, scope) → ∀ v ∈ s.members, d.Typed v

/-- The name and the type of a member at a location. -/
def memberType (d : Declarations) (location : DataLocation) (v : Variable) :
    Except Fault (String × Ty) := do
  let t ← match v.typeName with
    | some typeName => orInvalid (d.resolve typeName ⟨location, true⟩)
    | none => pure .invalid
  pure (v.name, t.moveTo ⟨location, false⟩)

theorem memberType_of_resolve {location : DataLocation} {v : Variable} {typeName : TypeName}
    (named : v.typeName = some typeName) (resolved : (d.resolve typeName place).run = .ok (.ok t)) :
    d.memberType location v = .ok (v.name, t.moveTo ⟨location, false⟩) := by
  unfold memberType
  rw [named]
  dsimp only
  rw [orInvalid_of_resolved (resolve_moveTo typeName resolved ⟨location, true⟩)]
  exact congrArg (fun t => Except.ok (v.name, t)) (Ty.moveTo_moveTo t _ _)

theorem exists_mapM {f : α → Except Fault β} {xs : List α} (each : ∀ x ∈ xs, ∃ y, f x = .ok y) :
    ∃ ys, xs.mapM f = .ok ys ∧ ∀ x ∈ xs, ∀ y, f x = .ok y → y ∈ ys := by
  induction xs with
  | nil => exact ⟨[], rfl, forall_mem_nil _⟩
  | cons x rest ih =>
    obtain ⟨⟨y, first⟩, others⟩ := forall_mem_cons.mp each
    obtain ⟨ys, more, all⟩ := ih others
    refine ⟨y :: ys, by rw [mapM_cons, first, more]; rfl, forall_mem_cons.mpr ⟨?_, ?_⟩⟩
    · intro y' same
      cases first.symm.trans same
      exact mem_cons_self
    · intro x' mem y' given
      exact mem_cons_of_mem _ (all x' mem y' given)

/-- A struct whose members have types is known with all of them. -/
theorem structMembers_of_typed (found : d.struct? id = some (s, scope))
    (typed : ∀ v ∈ s.members, d.Typed v) (location : DataLocation) :
    ∃ members, d.structMembers id location = .ok members ∧
      ∀ v ∈ s.members, ∀ member, d.memberType location v = .ok member → member ∈ members := by
  have each : ∀ v ∈ s.members, ∃ member, d.memberType location v = .ok member := by
    intro v mem
    obtain ⟨typeName, named, succeeds⟩ := typed v mem
    obtain ⟨t, resolved⟩ := succeeds .memory
    exact ⟨_, memberType_of_resolve named resolved⟩
  obtain ⟨members, run, all⟩ := exists_mapM each
  refine ⟨members, ?_, all⟩
  unfold structMembers
  rw [found]
  exact run

theorem lookup_filterMap {entries : List (NodeId × α)} {f : NodeId × α → Option (NodeId × β)}
    (keeps : ∀ entry image, f entry = some image → image.1 = entry.1) {a : α} {b : β}
    (found : entries.lookup id = some a) (image : f (id, a) = some (id, b)) :
    (entries.filterMap f).lookup id = some b := by
  obtain ⟨before, after, rfl, differ⟩ := lookup_eq_some_iff.mp found
  refine lookup_eq_some_iff.mpr ⟨before.filterMap f, after.filterMap f, ?_, fun entry mem => ?_⟩
  · rw [filterMap_append, filterMap_cons_some image]
  · obtain ⟨old, inBefore, given⟩ := mem_filterMap.mp mem
    rw [keeps old entry given]
    exact differ old inBefore

theorem structTable_members (found : d.struct? id = some (s, scope)) :
    d.structTable.members id = ((d.structMembers id .memory).toOption.getD []).map Prod.snd := by
  have entry : d.structTable.entries.lookup id =
      some (((d.structMembers id .memory).toOption.getD []).map Prod.snd) := by
    refine lookup_filterMap (fun entry image given => ?_) (find?_of_struct? found) rfl
    dsimp only at given
    split at given
    · cases given
      rfl
    · cases given
  rw [members, entry, Option.getD_some]

/-- The table of structs knows all members, but for their place. -/
theorem HasMember.mem_structTable (complete : d.Complete) (has : d.HasMember id t) :
    ∃ member ∈ d.structTable.members id,
      member.structs = t.structs ∧ member.leaf.isEncodableLeaf = t.leaf.isEncodableLeaf := by
  obtain ⟨s, scope, found, v, mem, typeName, place, named, resolved⟩ := has
  obtain ⟨members, run, all⟩ := structMembers_of_typed found (complete id s scope found) .memory
  have inMembers := all v mem _ (memberType_of_resolve named resolved)
  refine ⟨t.moveTo .memory, ?_, Ty.structs_moveTo t _, Ty.isEncodableLeaf_moveTo t _⟩
  rw [structTable_members found, run]
  exact mem_map.mpr ⟨_, inMembers, rfl⟩

/-! ## Containment -/

/-- Whether a type is met inside another one, through elements of arrays and members of structs. -/
inductive Contains (d : Declarations) : Ty → Ty → Prop
  | self (t : Ty) : Contains d t t
  | element {element inner : Ty} {length : Option Nat} {place : Place}
      (inside : Contains d element inner) : Contains d (.array element length place) inner
  | member {id : NodeId} {name : String} {place : Place} {t inner : Ty} (has : d.HasMember id t)
      (inside : Contains d t inner) : Contains d (.struct id name place) inner

/-- Whether a struct is met inside one of its own members. -/
def IsRecursive (d : Declarations) (id : NodeId) : Prop :=
  ∃ t name place, d.HasMember id t ∧ d.Contains t (.struct id name place)

variable (complete : d.Complete)

include complete

theorem HasMember.reaches (has : d.HasMember id t) {other : NodeId}
    (meets : d.structTable.Meets t other) : Graph.Reaches d.structTable.successors id other := by
  obtain ⟨member, mem, structs, -⟩ := has.mem_structTable complete
  refine Graph.reaches_iff.mpr (meets.mono fun id inStructs => ?_)
  exact mem_flatMap.mpr ⟨member, mem, structs ▸ inStructs⟩

theorem Contains.meets (contains : d.Contains t inner) (mem : id ∈ inner.structs) :
    d.structTable.Meets t id := by
  induction contains with
  | self => exact .inl mem
  | element _ ih => exact ih mem
  | member has _ ih => exact .inr ⟨_, mem_singleton_self _, has.reaches complete (ih mem)⟩

/-- With a struct can be encoded each of its members. -/
theorem HasMember.isEncodable (has : d.HasMember id t)
    (encodable : d.structTable.isEncodable (.struct id name place) = true) :
    d.structTable.isEncodable t = true := by
  obtain ⟨finite, -, represented⟩ := isEncodable_iff.mp encodable
  obtain ⟨member, mem, -, leaf⟩ := has.mem_structTable complete
  have inStruct {other : NodeId} (meets : d.structTable.Meets t other) :
      d.structTable.Meets (.struct id name place) other :=
    .inr ⟨id, mem_singleton_self _, has.reaches complete meets⟩
  refine isEncodable_iff.mpr ⟨fun other meets => finite other (inStruct meets), ?_,
    fun other meets => represented other (inStruct meets)⟩
  rw [← leaf]
  exact represented id (.inl (mem_singleton_self _)) member mem

/-- With a type can be encoded all that it contains. -/
theorem Contains.isEncodable (contains : d.Contains t inner)
    (encodable : d.structTable.isEncodable t = true) : d.structTable.isEncodable inner = true := by
  induction contains with
  | self => exact encodable
  | element _ ih => exact ih (isEncodable_iff.mpr (isEncodable_iff.mp encodable))
  | member has _ ih => exact ih (has.isEncodable complete encodable)

theorem not_isRecursive_of_isEncodable
    (encodable : d.structTable.isEncodable (.struct id name place) = true) :
    ¬ d.IsRecursive id := by
  rintro ⟨t, name', place', has, contains⟩
  obtain ⟨finite, -, -⟩ := isEncodable_iff.mp encodable
  exact finite id (.inl (mem_singleton_self _))
    (has.reaches complete (contains.meets complete (mem_singleton_self _)))

omit complete

theorem not_isEncodable_mapping (key value : Ty) :
    ¬ d.structTable.isEncodable (.mapping key value) = true := by
  intro encodable
  obtain ⟨-, represented, -⟩ := isEncodable_iff.mp encodable
  cases represented

end Declarations

end ContractTyping
