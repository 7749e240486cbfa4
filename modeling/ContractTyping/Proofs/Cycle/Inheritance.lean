import ContractTyping.Inheritance
import ContractTyping.Proofs.Cycle.Search
import ContractTyping.Proofs.Declared

/-!
# Inheritance cycles

The search from a contract finds a cycle exactly if the contract leads to one along direct bases
(`cycle?_eq_none_iff_from`, `isCycle_of_cycle?_from`). It starts at the contract itself, which need
not be the declaration that its identity refers to. In a source unit whose declarations are numbered
apart it is (`cycle?_eq_none_iff`, `isCycle_of_cycle?`).
-/

namespace ContractTyping

open List
variable {scope : Option NodeId} {entry : NodeId × Declaration}

/-- Whether declarations are numbered apart. -/
def SourceUnit.DeclaresApart (unit : SourceUnit) : Prop :=
  ((Declarations.ofUnit unit).entries.map Prod.fst).Nodup

instance (unit : SourceUnit) : Decidable unit.DeclaresApart :=
  inferInstanceAs (Decidable (List.Nodup _))

/-- An entry whose key is not repeated is found. -/
theorem lookup_of_mem {β : Type} {entries : List (NodeId × β)}
    (distinct : (entries.map Prod.fst).Nodup)
    {id : NodeId} {b : β} (mem : (id, b) ∈ entries) : entries.lookup id = some b := by
  obtain ⟨before, after, rfl⟩ := append_of_mem mem
  refine lookup_eq_some_iff.mpr ⟨before, after, rfl, fun entry early => bne_iff_ne.mpr ?_⟩
  rintro rfl
  rw [map_append, nodup_append] at distinct
  exact distinct.2.2 _ (mem_map_of_mem early) _ (mem_map_of_mem mem_cons_self) rfl

/-! ## Contracts of a unit -/

theorem not_contract_of_variables {vars : List Variable}
    (mem : entry ∈ variableDeclarations scope vars) (c : Contract) :
    entry.2.item ≠ .contract c := by
  obtain ⟨v, -, rfl⟩ := mem_map.mp mem
  exact nofun

/-- Contracts stand at the level of the file only. -/
theorem ContractPart.not_contract {part : ContractPart} (mem : entry ∈ part.declarations scope)
    (c : Contract) : entry.2.item ≠ .contract c := by
  cases part with
  | usingFor _ => cases mem
  | stateVariable _ => exact not_contract_of_variables mem c
  | function _ | event _ | message _ | modifier _ | struct _ =>
    rcases mem_cons.mp mem with rfl | inside
    · exact nofun
    · exact not_contract_of_variables inside c

theorem UnitPart.eq_of_declares {part : UnitPart} {id : NodeId} {c : Contract}
    (mem : (id, ⟨.contract c, scope⟩) ∈ part.declarations) : part = .contract c := by
  cases part with
  | usingFor _ => cases mem
  | function _ | struct _ =>
    rcases mem_cons.mp mem with equal | inside
    · cases equal
    · exact absurd rfl (not_contract_of_variables inside c)
  | contract k =>
    rcases mem_cons.mp mem with equal | inside
    · cases equal
      rfl
    · obtain ⟨part, -, inPart⟩ := mem_flatMap.mp inside
      exact absurd rfl (ContractPart.not_contract inPart c)

namespace Declarations

variable {unit : SourceUnit} {c : Contract} {id : NodeId}
variable (d : Declarations) {cycle : List NodeId}

theorem mem_parts_of_contract? (found : (ofUnit unit).contract? id = some c) :
    .contract c ∈ unit.parts := by
  obtain ⟨scope, found⟩ := find?_of_contract? found
  obtain ⟨part, inParts, declared⟩ := mem_flatMap.mp (mem_reverse.mp (mem_of_find? found))
  exact UnitPart.eq_of_declares declared ▸ inParts

theorem mem_contracts : c ∈ (ofUnit unit).contracts ↔ .contract c ∈ unit.parts := by
  show c ∈ unit.parts.filterMap _ ↔ _
  rw [mem_filterMap]
  constructor
  · rintro ⟨part, inParts, equal⟩
    cases part <;> cases equal
    exact inParts
  · exact fun inParts => ⟨_, inParts, rfl⟩

theorem contract?_of_mem (apart : unit.DeclaresApart) (mem : .contract c ∈ unit.parts) :
    (ofUnit unit).contract? c.id = some c := by
  have declared : (c.id, ⟨.contract c, none⟩) ∈ (ofUnit unit).entries :=
    mem_reverse.mpr (mem_flatMap.mpr ⟨_, mem, mem_cons_self⟩)
  rw [contract?, find?, lookup_of_mem apart declared]

theorem basesOf_id (apart : unit.DeclaresApart) (mem : .contract c ∈ unit.parts) :
    (ofUnit unit).basesOf c.id = (ofUnit unit).directBases c := by
  rw [basesOf, contract?_of_mem apart mem]

/-- Only contracts of the unit have bases. -/
theorem mem_contractIds_of_basesOf (bases : (ofUnit unit).basesOf id ≠ []) :
    id ∈ (ofUnit unit).contractIds := by
  cases found : (ofUnit unit).contract? id with
  | none => exact absurd (by rw [basesOf, found]) bases
  | some c =>
    obtain ⟨rfl, -⟩ := contract?_occurs found
    exact mem_map_of_mem (mem_contracts.mpr (mem_parts_of_contract? found))

/-- All bases are contracts of the unit. -/
theorem exists_contract_of_reaches {start : NodeId}
    (reaches : Graph.Reaches (ofUnit unit).basesOf start id) :
    ∃ k, (ofUnit unit).contract? id = some k := by
  have isContract {v w : NodeId} (next : w ∈ (ofUnit unit).basesOf v) :
      ∃ k, (ofUnit unit).contract? w = some k := by
    unfold basesOf at next
    split at next
    · exact Option.isSome_iff_exists.mp (mem_filter.mp next).2
    · cases next
  induction reaches with
  | edge next => exact isContract next
  | step _ _ ih => exact ih

/-! ## The search -/

/-- The direct bases of contracts, for a search that starts at one of them. The contract has the
bases that it lists, also if another declaration goes by its identity. -/
def basesFrom (d : Declarations) (c : Contract) (id : NodeId) : List NodeId :=
  if id = c.id then d.directBases c else d.basesOf id

theorem basesFrom_id (c : Contract) : d.basesFrom c c.id = d.directBases c := if_pos rfl

theorem basesFrom_eq_basesOf (apart : unit.DeclaresApart) (mem : .contract c ∈ unit.parts) :
    (ofUnit unit).basesFrom c = (ofUnit unit).basesOf := by
  funext id
  unfold basesFrom
  split
  · next same => rw [same, basesOf_id apart mem]
  · rfl

/-- The contract that the search starts at is on its path, where successors are not asked for. -/
theorem cycleFrom_basesFrom (c : Contract) (depth : Nat) :
    Graph.cycleFrom (d.basesFrom c) depth [c.id] = Graph.cycleFrom d.basesOf depth [c.id] := by
  funext finished v
  refine Graph.cycleFrom_congr fun u outside => if_neg fun same => outside ?_
  exact mem_singleton.mpr same

/-- What the search finds is a cycle that the contract leads to. -/
theorem isCycle_of_cycle?_from {d : Declarations} (found : d.cycle? c = some cycle) :
    Graph.IsCycle (d.basesFrom c) cycle ∧ ∀ id ∈ cycle, id = c.id ∨
      Graph.Reaches (d.basesFrom c) c.id id := by
  rw [cycle?, ← basesFrom_id, ← cycleFrom_basesFrom] at found
  split at found
  · next failed =>
    cases found
    obtain ⟨_, w, next, below⟩ := Graph.foldlM_error failed
    obtain ⟨closed, inside⟩ := Graph.isCycle_of_cycleFrom (.start next) below
    refine ⟨closed, fun id onCycle => ?_⟩
    rcases inside id onCycle with only | rfl | further
    · exact .inl (mem_singleton.mp only)
    · exact .inr (.edge next)
    · exact .inr (.step next further)
  · cases found

variable (mem : .contract c ∈ unit.parts)

include mem

theorem mem_contractIds_of_basesFrom (id : NodeId)
    (bases : (ofUnit unit).basesFrom c id ≠ []) : id ∈ (ofUnit unit).contractIds := by
  unfold basesFrom at bases
  split at bases
  · next same => exact same ▸ mem_map_of_mem (mem_contracts.mpr mem)
  · exact mem_contractIds_of_basesOf bases

/-- Without a result, the contract leads to no cycle: the bound on the depth is not reached. -/
theorem not_leadsToCycle_of_cycle? (none : (ofUnit unit).cycle? c = none) :
    ¬ Graph.LeadsToCycle ((ofUnit unit).basesFrom c) c.id := by
  intro leads
  rw [cycle?, ← basesFrom_id, ← cycleFrom_basesFrom] at none
  split at none
  · cases none
  · next finished ended =>
    have enough :
        (ofUnit unit).contractIds.length < (ofUnit unit).contracts.length + 1 + [c.id].length := by
      rw [contractIds, length_map, length_singleton]
      omega
    obtain ⟨safe, -, behind⟩ := Graph.foldlM_finishes (fun _ _ _ next still =>
      Graph.harmless_of_cycleFrom (mem_contractIds_of_basesFrom mem) (.start next) enough still)
        (forall_mem_nil _) ended
    obtain ⟨w, next, onward⟩ := leads.succ
    exact safe w (behind next) onward

theorem cycle?_eq_none_iff_from :
    (ofUnit unit).cycle? c = none ↔ ¬ Graph.LeadsToCycle ((ofUnit unit).basesFrom c) c.id := by
  refine ⟨not_leadsToCycle_of_cycle? mem, fun harmless => ?_⟩
  cases found : (ofUnit unit).cycle? c with
  | none => rfl
  | some cycle =>
    obtain ⟨closed, inside⟩ := isCycle_of_cycle?_from found
    obtain ⟨v, starts, -⟩ := closed.closed
    have first : v ∈ cycle := mem_of_mem_head? starts
    exact absurd ⟨v, inside v first, closed.reaches first first⟩ harmless

omit mem

/-- If declarations are numbered apart, the search is along the bases of every identity. -/
theorem isCycle_of_cycle? (apart : unit.DeclaresApart) (mem : .contract c ∈ unit.parts)
    (found : (ofUnit unit).cycle? c = some cycle) :
    Graph.IsCycle (ofUnit unit).basesOf cycle ∧
      ∀ id ∈ cycle, id = c.id ∨ Graph.Reaches (ofUnit unit).basesOf c.id id :=
  basesFrom_eq_basesOf apart mem ▸ isCycle_of_cycle?_from found

theorem cycle?_eq_none_iff (apart : unit.DeclaresApart) (mem : .contract c ∈ unit.parts) :
    (ofUnit unit).cycle? c = none ↔ ¬ Graph.LeadsToCycle (ofUnit unit).basesOf c.id :=
  basesFrom_eq_basesOf apart mem ▸ cycle?_eq_none_iff_from mem

end Declarations

end ContractTyping
