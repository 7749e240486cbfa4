import ContractTyping.Check.Unit
import ContractTyping.Proofs.Effect.Declaration

/-!
# Contexts of reordered source units

The parts of a source unit may be put in another order, as long as directives keep theirs
(`SourceUnit.Reorders`). If declarations are numbered apart, a check in the new order gets the same
answers to all its questions (`Reorders.alike`). Three answers depend on more than what is found
under an identity, and only through numbers that stay the same: the bound on the depth of constants,
and the bounds on the searches for bases and for structs.
-/

namespace ContractTyping

open List Declarations StructTable
variable {unit other : SourceUnit} {β : Type}

/-- Source units with the same parts. Directives are in the same order in both. -/
structure SourceUnit.Reorders (unit other : SourceUnit) : Prop where
  parts : other.parts.Perm unit.parts
  directives : other.usingForDirectives = unit.usingForDirectives
  abiCoder : other.abiCoder = unit.abiCoder

theorem SourceUnit.Reorders.symm (reorders : unit.Reorders other) : other.Reorders unit :=
  ⟨reorders.parts.symm, reorders.directives.symm, reorders.abiCoder.symm⟩

/-- Leaving entries out and changing the others leaves out keys only. -/
theorem keys_filterMap_sublist {α : Type} {f : α → Option β} {key : α → NodeId} {key' : β → NodeId}
    {entries : List α} (kept : ∀ a ∈ entries, ∀ b, f a = some b → key' b = key a) :
    ((entries.filterMap f).map key').Sublist (entries.map key) := by
  induction entries with
  | nil => exact List.Sublist.refl _
  | cons a rest ih =>
    have rest_kept := ih fun a mem => kept a (mem_cons_of_mem _ mem)
    rw [filterMap_cons, map_cons]
    split
    · exact rest_kept.cons _
    · next b found =>
      rw [map_cons, kept a mem_cons_self b found]
      exact rest_kept.cons_cons _

/-- Entries under different identities are found in any order. -/
theorem lookup_eq_of_perm {entries entries' : List (NodeId × β)} (perm : entries'.Perm entries)
    (distinct : (entries.map Prod.fst).Nodup) (id : NodeId) :
    entries'.lookup id = entries.lookup id := by
  induction perm with
  | nil => rfl
  | cons entry _ ih =>
    rw [map_cons, nodup_cons] at distinct
    rw [lookup_cons, lookup_cons, ih distinct.2]
  | swap entry other rest =>
    have differ : entry.1 ≠ other.1 := fun equal => by simp [equal] at distinct
    rw [lookup_cons, lookup_cons, lookup_cons, lookup_cons]
    by_cases first : id = entry.1
    · have : (id == other.1) = false := beq_false_of_ne (first ▸ differ)
      rw [this]
    · have : (id == entry.1) = false := beq_false_of_ne first
      rw [this]
  | trans _ perm ih ih' =>
    exact (ih ((perm.map _).nodup_iff.mpr distinct)).trans (ih' distinct)

theorem Graph.edgeCount_perm {successors : NodeId → List NodeId} {vertices vertices' : List NodeId}
    (perm : vertices'.Perm vertices) :
    edgeCount successors vertices' = edgeCount successors vertices :=
  (perm.flatMap_right successors).length_eq

/-! ## Structs -/

/-- The same table in another order, with one entry for each struct. -/
structure StructTable.Reorders (table other : StructTable) : Prop where
  entries : other.entries.Perm table.entries
  distinct : table.ids.Nodup

namespace StructTable.Reorders

variable {table other : StructTable}

variable (r : table.Reorders other)

include r

theorem members : other.members = table.members := by
  funext id
  rw [StructTable.members, StructTable.members, lookup_eq_of_perm r.entries r.distinct]

theorem reachable : other.reachable = table.reachable := by
  funext next start
  rw [StructTable.reachable, StructTable.reachable,
    Graph.edgeCount_perm (show other.ids.Perm table.ids from r.entries.map Prod.fst)]

theorem successors : other.successors = table.successors := by
  funext id
  rw [StructTable.successors, StructTable.successors, r.members]

theorem inlineSuccessors : other.inlineSuccessors = table.inlineSuccessors := by
  funext id
  rw [StructTable.inlineSuccessors, StructTable.inlineSuccessors, r.members]

theorem hasInfiniteSize : other.hasInfiniteSize = table.hasInfiniteSize := by
  funext id
  rw [StructTable.hasInfiniteSize, StructTable.hasInfiniteSize, r.reachable, r.inlineSuccessors]

theorem allParts : other.allParts = table.allParts := by
  funext t
  rw [StructTable.allParts, StructTable.allParts, parts, parts, r.reachable,
    r.successors, r.members]

theorem isDynamic : other.isDynamic = table.isDynamic := by
  funext t
  rw [StructTable.isDynamic, StructTable.isDynamic, inlineParts, inlineParts, parts, parts,
    r.reachable, r.inlineSuccessors, r.members]

theorem containsMapping : other.containsMapping = table.containsMapping := by
  funext t
  rw [StructTable.containsMapping, StructTable.containsMapping, r.allParts]

theorem isEncodable : other.isEncodable = table.isEncodable := by
  have isRecursive : other.isRecursive = table.isRecursive := by
    funext id
    rw [isRecursive, isRecursive, r.reachable, r.successors]
  funext t
  rw [StructTable.isEncodable, StructTable.isEncodable, r.reachable, r.successors, r.allParts,
    isRecursive]

theorem isLegacyEncodable : other.isLegacyEncodable = table.isLegacyEncodable := by
  have hasStaticElements (t : Ty) : other.hasStaticElements t = table.hasStaticElements t := by
    fun_induction table.hasStaticElements t with
    | case1 element length location ih => rw [hasStaticElements, r.isDynamic, ih]
    | case2 t noArray => exact hasStaticElements.eq_2 _ t noArray
  funext t isLibraryCall
  rw [StructTable.isLegacyEncodable, StructTable.isLegacyEncodable, r.reachable, r.successors,
    r.members, r.isDynamic, funext hasStaticElements]

end StructTable.Reorders

/-! ## Declarations -/

/-- The same declarations in another order, with one for each identity. -/
structure Declarations.Reorders (d d' : Declarations) : Prop where
  entries : d'.entries.Perm d.entries
  contracts : d'.contracts.Perm d.contracts
  distinct : (d.entries.map Prod.fst).Nodup

namespace Declarations.Reorders

variable {d d' : Declarations}

variable (r : d.Reorders d')

include r

theorem find? : d'.find? = d.find? :=
  funext (lookup_eq_of_perm r.entries r.distinct)

theorem lookup? : d'.lookup? = d.lookup? := by
  funext id
  rw [Declarations.lookup?, Declarations.lookup?, r.find?]

theorem contract? : d'.contract? = d.contract? := by
  funext id
  rw [Declarations.contract?, Declarations.contract?, r.find?]

theorem struct? : d'.struct? = d.struct? := by
  funext id
  rw [Declarations.struct?, Declarations.struct?, r.find?]

theorem directBases : d'.directBases = d.directBases := by
  funext c
  rw [Declarations.directBases, Declarations.directBases, r.contract?]

theorem basesOf : d'.basesOf = d.basesOf := by
  funext id
  rw [Declarations.basesOf, Declarations.basesOf, r.contract?, r.directBases]

theorem linearized : d'.linearized = d.linearized := by
  have backwards : d'.basesOfBackwards = d.basesOfBackwards := by
    funext id
    rw [basesOfBackwards, basesOfBackwards, r.basesOf]
  have ids : d'.contractIds.Perm d.contractIds := r.contracts.map Contract.id
  funext c
  rw [Declarations.linearized, Declarations.linearized, backwards, Graph.edgeCount_perm ids,
    r.directBases]

theorem cycle? : d'.cycle? = d.cycle? := by
  funext c
  rw [Declarations.cycle?, Declarations.cycle?, r.directBases, r.basesOf, r.contracts.length_eq]

theorem contractTy : d'.contractTy = d.contractTy := by
  have canReceive : d'.canReceive = d.canReceive := by
    funext c
    rw [canReceive, canReceive, r.linearized, r.contract?]
  funext c
  rw [Declarations.contractTy, Declarations.contractTy, canReceive, r.linearized]

theorem structTy : d'.structTy = d.structTy := by
  funext s scope place
  rw [Declarations.structTy, Declarations.structTy, r.contract?]

theorem evaluate : d'.evaluate = d.evaluate := by
  have constantValue (depth : Nat) : d'.constantValue depth = d.constantValue depth := by
    induction depth with
    | zero => rfl
    | succ depth ih =>
      funext active node target
      rw [constantValue, constantValue, r.lookup?, ih]
  funext e
  rw [Declarations.evaluate, Declarations.evaluate, evaluateRemembering, evaluateRemembering,
    r.entries.length_eq, constantValue]

theorem resolvePath : d'.resolvePath = d.resolvePath := by
  funext path place
  rw [Declarations.resolvePath, Declarations.resolvePath, r.lookup?, r.contractTy, r.structTy]

theorem arrayLength : d'.arrayLength = d.arrayLength := by
  funext length
  cases length with
  | none => rfl
  | some e => rw [Declarations.arrayLength, Declarations.arrayLength, r.evaluate]

omit r

mutual

theorem resolve_eq (r : d.Reorders d') (typeName : TypeName) (place : Place) :
    d'.resolve typeName place = d.resolve typeName place := by
  match typeName with
  | .elementary .. => rfl
  | .userDefined _ path => exact congrFun (congrFun r.resolvePath path) place
  | .mapping _ key value =>
    rw [resolve, resolve, r.resolve_eq key, r.resolve_eq value]
  | .array _ base length =>
    rw [resolve, resolve, r.resolve_eq base, r.arrayLength]
  | .function _ parameters returns _ _ =>
    rw [resolve, resolve, r.declaredTypes_eq parameters, r.declaredTypes_eq returns]

theorem declaredType_eq (r : d.Reorders d') (v : Variable) :
    d'.declaredType v = d.declaredType v := by
  match v with
  | .mk _ none _ => rfl
  | .mk traits (some typeName) _ => exact r.resolve_eq typeName traits.place

theorem declaredTypes_eq (r : d.Reorders d') (vars : List Variable) :
    d'.declaredTypes vars = d.declaredTypes vars := by
  match vars with
  | [] => rfl
  | v :: rest =>
    rw [declaredTypes, declaredTypes, r.declaredType_eq v, r.declaredTypes_eq rest]

end

variable (r : d.Reorders d')

include r

theorem resolve : d'.resolve = d.resolve :=
  funext fun typeName => funext (r.resolve_eq typeName)

theorem structMembers : d'.structMembers = d.structMembers := by
  funext id location
  rw [Declarations.structMembers, Declarations.structMembers, r.struct?, r.resolve]

theorem structTable : d.structTable.Reorders d'.structTable where
  entries := by
    rw [Declarations.structTable, Declarations.structTable, r.structMembers]
    exact r.entries.filterMap _
  distinct := by
    refine List.Nodup.sublist (keys_filterMap_sublist fun entry _ entry' found => ?_) r.distinct
    dsimp only at found
    split at found
    · cases found
      rfl
    · cases found

end Declarations.Reorders

theorem SourceUnit.Reorders.declarations (reorders : unit.Reorders other)
    (distinct : ((ofUnit unit).entries.map Prod.fst).Nodup) :
    (ofUnit unit).Reorders (ofUnit other) where
  entries := ((reverse_perm _).trans (reorders.parts.flatMap_right _)).trans (reverse_perm _).symm
  contracts := reorders.parts.filterMap _
  distinct := distinct

theorem SourceUnit.Reorders.alike (reorders : unit.Reorders other)
    (distinct : ((ofUnit unit).entries.map Prod.fst).Nodup) (settings : Settings) :
    (Check.contextOf unit settings).Alike (Check.contextOf other settings) := by
  have r := reorders.declarations distinct
  exact {
    settings := rfl
    scope := rfl
    abiCoder := congrArg (Option.getD · settings.abiCoder) reorders.abiCoder
    directives := reorders.directives
    lookup := r.lookup?
    contract := r.contract?
    linearized := r.linearized
    cycle := r.cycle?
    contractTy := r.contractTy
    structTy := r.structTy
    evaluate := r.evaluate
    resolve := r.resolve
    declaredType := funext r.declaredType_eq
    structMembers := r.structMembers
    isEncodable := r.structTable.isEncodable
    isLegacyEncodable := r.structTable.isLegacyEncodable
    containsMapping := r.structTable.containsMapping
    hasInfiniteSize := r.structTable.hasInfiniteSize }

end ContractTyping
