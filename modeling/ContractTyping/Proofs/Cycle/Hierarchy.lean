import ContractTyping.Proofs.Cycle.Report
import Mathlib.Data.Set.List

/-!
# The hierarchy of contracts

The search for an inheritance cycle works on identities. `cycle_search_exact` says what it finds in
terms of the contracts of the unit and their direct bases, as long as no two contracts share an
identity. Other declarations may: an identity then refers to the declaration that was entered last,
and a contract that cannot be referred to is the base of none.
-/

namespace ContractTyping

open Relation List

namespace Declarations

/-- Whether a contract lists another one as a base. -/
def HasBase (d : Declarations) (c base : Contract) : Prop :=
  ∃ specifier ∈ c.bases, ∃ id, specifier.base.target = some id ∧ d.contract? id = some base

variable {unit : SourceUnit} {c k base : Contract} {id : NodeId}

/-- A base can be referred to by its identity. -/
theorem HasBase.contract? (listed : (ofUnit unit).HasBase c base) :
    (ofUnit unit).contract? base.id = some base := by
  obtain ⟨-, -, id, -, found⟩ := listed
  obtain ⟨rfl, -⟩ := contract?_occurs found
  exact found

theorem HasBase.mem_contracts (listed : (ofUnit unit).HasBase c base) :
    base ∈ (ofUnit unit).contracts :=
  Declarations.mem_contracts.mpr (mem_parts_of_contract? listed.contract?)

theorem mem_directBases :
    id ∈ (ofUnit unit).directBases c ↔ ∃ base, (ofUnit unit).HasBase c base ∧ base.id = id := by
  rw [directBases, mem_filter, mem_filterMap]
  constructor
  · rintro ⟨⟨specifier, listed, target⟩, isContract⟩
    obtain ⟨base, found⟩ := Option.isSome_iff_exists.mp isContract
    exact ⟨base, ⟨specifier, listed, id, target, found⟩, (contract?_occurs found).1.symm⟩
  · rintro ⟨base, ⟨specifier, listed, id, target, found⟩, rfl⟩
    obtain ⟨rfl, -⟩ := contract?_occurs found
    exact ⟨⟨specifier, listed, target⟩, Option.isSome_of_mem found⟩

/-- The contracts behind a contract are in the unit. -/
theorem mem_contracts_of_below (mem : c ∈ (ofUnit unit).contracts)
    (below : ReflTransGen (ofUnit unit).HasBase c k) : k ∈ (ofUnit unit).contracts := by
  cases below with
  | refl => exact mem
  | tail _ listed => exact listed.mem_contracts

/-- Steps from identity to identity follow contracts behind the start, if each step does. -/
theorem path_iff {Step : Contract → Contract → Prop} {Next : NodeId → NodeId → Prop}
    (listed : ∀ k x, Step k x → (ofUnit unit).HasBase k x)
    (follows : ∀ k, ReflTransGen (ofUnit unit).HasBase c k → ∀ id, Next k.id id ↔
      ∃ x, Step k x ∧ x.id = id)
    (below : ReflTransGen (ofUnit unit).HasBase c k) :
    ReflTransGen Next k.id id ↔ ∃ x, ReflTransGen Step k x ∧ x.id = id := by
  have inside {x : Contract} (path : ReflTransGen Step k x) :
    ReflTransGen (ofUnit unit).HasBase c x :=
    below.trans (ReflTransGen.mono listed _ _ path)
  constructor
  · intro path
    induction path with
    | refl => exact ⟨k, .refl, rfl⟩
    | tail _ next ih =>
      obtain ⟨x, path, rfl⟩ := ih
      obtain ⟨y, step, rfl⟩ := (follows x (inside path) _).mp next
      exact ⟨y, path.tail step, rfl⟩
  · rintro ⟨x, path, rfl⟩
    induction path with
    | refl => exact .refl
    | tail path step ih => exact ih.tail ((follows _ (inside path) _).mpr ⟨_, step, rfl⟩)

/-! ## Edges of the search -/

section Search

variable (distinct : (ofUnit unit).contractIds.Nodup) (mem : c ∈ (ofUnit unit).contracts)

include distinct in
theorem eq_of_id_eq (one : k ∈ (ofUnit unit).contracts) (other : base ∈ (ofUnit unit).contracts)
    (same : k.id = base.id) : k = base :=
  inj_on_of_nodup_map distinct one other same

include distinct mem

variable (below : ReflTransGen (ofUnit unit).HasBase c k)

include below

/-- From a contract behind its start, the search goes on to the bases that the contract lists. -/
theorem basesFrom_of_below : (ofUnit unit).basesFrom c k.id = (ofUnit unit).directBases k := by
  by_cases same : k.id = c.id
  · cases eq_of_id_eq distinct (mem_contracts_of_below mem below) mem same
    exact basesFrom_id _ _
  · rw [basesFrom, if_neg same]
    cases below with
    | refl => exact absurd rfl same
    | tail _ last => rw [basesOf, last.contract?]

theorem mem_basesFrom :
    id ∈ (ofUnit unit).basesFrom c k.id ↔ ∃ base, (ofUnit unit).HasBase k base ∧ base.id = id := by
  rw [basesFrom_of_below distinct mem below, mem_directBases]

theorem reaches_iff : Graph.Reaches ((ofUnit unit).basesFrom c) k.id id ↔
      ∃ base, TransGen (ofUnit unit).HasBase k base ∧ base.id = id := by
  have follows (k : Contract) (below : ReflTransGen (ofUnit unit).HasBase c k) (id : NodeId) :
      Graph.Edge ((ofUnit unit).basesFrom c) k.id id ↔ ∃ x, (ofUnit unit).HasBase k x ∧ x.id = id :=
    mem_basesFrom distinct mem below
  rw [Graph.reaches_iff_transGen, TransGen.head'_iff]
  constructor
  · rintro ⟨_, next, path⟩
    obtain ⟨x, listed, rfl⟩ := (follows k below _).mp next
    obtain ⟨base, further, rfl⟩ :=
      (path_iff (fun _ _ listed => listed) follows (below.tail listed)).mp path
    exact ⟨base, .head' listed further, rfl⟩
  · rintro ⟨base, further, rfl⟩
    obtain ⟨x, listed, further⟩ := TransGen.head'_iff.mp further
    exact ⟨x.id, (follows k below _).mpr ⟨x, listed, rfl⟩,
      (path_iff (fun _ _ listed => listed) follows (below.tail listed)).mpr ⟨base, further, rfl⟩⟩

theorem reaches_self_iff :
    Graph.Reaches ((ofUnit unit).basesFrom c) k.id k.id ↔ TransGen (ofUnit unit).HasBase k k := by
  rw [reaches_iff distinct mem below]
  refine ⟨?_, fun round => ⟨k, round, rfl⟩⟩
  rintro ⟨base, further, same⟩
  have inUnit := mem_contracts_of_below mem below
  cases eq_of_id_eq distinct (mem_contracts_of_below inUnit further.to_reflTransGen) inUnit same
  exact further

omit below

/-- The start leads to a cycle exactly if a contract behind it is among its own bases. -/
theorem leadsToCycle_iff : Graph.LeadsToCycle ((ofUnit unit).basesFrom c) c.id ↔
    ∃ k, ReflTransGen (ofUnit unit).HasBase c k ∧ TransGen (ofUnit unit).HasBase k k := by
  constructor
  · rintro ⟨id, rfl | reaches, round⟩
    · exact ⟨c, .refl, (reaches_self_iff distinct mem .refl).mp round⟩
    · obtain ⟨k, further, rfl⟩ := (reaches_iff distinct mem .refl).mp reaches
      exact ⟨k, further.to_reflTransGen,
        (reaches_self_iff distinct mem further.to_reflTransGen).mp round⟩
  · rintro ⟨k, below, round⟩
    refine ⟨k.id, ?_, (reaches_self_iff distinct mem below).mpr round⟩
    rcases reflTransGen_iff_eq_or_transGen.mp below with rfl | further
    · exact .inl rfl
    · exact .inr ((reaches_iff distinct mem .refl).mpr ⟨k, further, rfl⟩)

/-! ## What the search finds -/

/-- The identities that the search finds are those of contracts behind the start. -/
theorem exists_members {cycle : List NodeId} (found : (ofUnit unit).cycle? c = some cycle) :
    ∃ members : List Contract,
      members.map Contract.id = cycle ∧ ∀ k ∈ members, ReflTransGen (ofUnit unit).HasBase c k := by
  let behind := { k // ReflTransGen (ofUnit unit).HasBase c k }
  have all : cycle ∈ Set.range (map fun k : behind => k.1.id) := by
    rw [Set.range_list_map]
    intro id onCycle
    rcases (isCycle_of_cycle?_from found).2 id onCycle with rfl | reaches
    · exact ⟨⟨c, .refl⟩, rfl⟩
    · obtain ⟨k, further, rfl⟩ := (reaches_iff distinct mem .refl).mp reaches
      exact ⟨⟨k, further.to_reflTransGen⟩, rfl⟩
  obtain ⟨members, rfl⟩ := all
  refine ⟨members.map Subtype.val, map_map, fun k inside => ?_⟩
  obtain ⟨⟨k, below⟩, -, rfl⟩ := mem_map.mp inside
  exact below

/-- Behind the start, an edge of the search leads from a contract to one of its bases. -/
theorem hasBase_of_edge (below : ReflTransGen (ofUnit unit).HasBase c k)
    (further : ReflTransGen (ofUnit unit).HasBase c base)
    (next : Graph.Edge ((ofUnit unit).basesFrom c) k.id base.id) :
    (ofUnit unit).HasBase k base := by
  obtain ⟨listed, isBase, same⟩ := (mem_basesFrom distinct mem below).mp next
  cases eq_of_id_eq distinct isBase.mem_contracts (mem_contracts_of_below mem further) same
  exact isBase

end Search

/-- The search from a contract ends with a result exactly if a contract that is reached along direct
bases is reached from itself. The result then lists different contracts, all reached from the start,
each with the next one as a direct base and the last one with the first. -/
theorem cycle_search_exact (distinct : (ofUnit unit).contractIds.Nodup)
    (mem : c ∈ (ofUnit unit).contracts) : ((∃ cycle, (ofUnit unit).cycle? c = some cycle) ↔
      ∃ k, ReflTransGen (ofUnit unit).HasBase c k ∧ TransGen (ofUnit unit).HasBase k k) ∧
    ∀ cycle, (ofUnit unit).cycle? c = some cycle →
      ∃ members : List Contract, members ≠ [] ∧ members.map Contract.id = cycle ∧ cycle.Nodup ∧
        (∀ k ∈ members, k ∈ (ofUnit unit).contracts ∧ ReflTransGen (ofUnit unit).HasBase c k) ∧
        List.IsChain (ofUnit unit).HasBase (members ++ members.head?.toList) := by
  constructor
  · rw [← leadsToCycle_iff distinct mem, ← not_iff_not,
      ← cycle?_eq_none_iff_from (mem_contracts.mp mem),
      Option.eq_none_iff_forall_ne_some, not_exists]
  · intro cycle found
    obtain ⟨members, rfl, below⟩ := exists_members distinct mem found
    obtain ⟨isCycle, -⟩ := isCycle_of_cycle?_from found
    obtain ⟨id, starts, chain⟩ := isCycle.closed
    rw [List.head?_map] at starts
    obtain ⟨first, isFirst, rfl⟩ := Option.map_eq_some_iff.mp starts
    refine ⟨members, List.ne_nil_of_mem (List.mem_of_mem_head? isFirst), rfl, isCycle.distinct,
      fun k inside => ⟨mem_contracts_of_below mem (below k inside), below k inside⟩, ?_⟩
    rw [isFirst, Option.toList_some]
    have inside : ∀ k ∈ members ++ [first], ReflTransGen (ofUnit unit).HasBase c k := by
      intro k inside
      rcases List.mem_append.mp inside with inside | last
      · exact below k inside
      · exact List.mem_singleton.mp last ▸ below first (List.mem_of_mem_head? isFirst)
    have chain : List.IsChain (Graph.Edge ((ofUnit unit).basesFrom c))
        ((members ++ [first]).map Contract.id) := by
      rw [List.map_append]
      exact chain
    exact ((List.isChain_map _).mp chain).imp_of_mem_imp fun k base inK inBase =>
      hasBase_of_edge distinct mem (inside k inK) (inside base inBase)

/-- The contract behind the loop shares its identity with a function, which was entered later. -/
def clashUnit : SourceUnit :=
  { loopUnit with
    parts := loopUnit.parts ++
      [.function { (default : Function) with node := ⟨⟨2⟩, .unknown⟩, name := "clash" }] }

theorem cycle_search_exact_clash :
    let d := ofUnit clashUnit
    let behind := derivedContract 2 6 7 3 "Behind"
    d.contractIds.Nodup ∧ behind ∈ d.contracts ∧ (d.contract? behind.id).isNone ∧
      d.cycle? behind = some [⟨3⟩, ⟨4⟩] ∧
      (∃ k, ReflTransGen d.HasBase behind k ∧ TransGen d.HasBase k k) ∧
      ∃ members : List Contract, members.map Contract.id = [⟨3⟩, ⟨4⟩] ∧
        List.IsChain d.HasBase (members ++ members.head?.toList) := by
  intro d behind
  have distinct : d.contractIds.Nodup := by decide
  have mem : behind ∈ d.contracts := .head _
  have found : d.cycle? behind = some [⟨3⟩, ⟨4⟩] := rfl
  obtain ⟨reached, listed⟩ := cycle_search_exact distinct mem
  obtain ⟨members, -, ids, -, -, chain⟩ := listed _ found
  exact ⟨distinct, mem, rfl, found, reached.mp ⟨_, found⟩, members, ids, chain⟩

end Declarations

end ContractTyping
