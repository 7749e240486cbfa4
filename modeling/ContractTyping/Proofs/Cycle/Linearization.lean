import ContractTyping.Proofs.Cycle.Hierarchy
import ContractTyping.Proofs.Struct.Search

/-!
# The order of bases

Without an order from the source unit, a contract is listed with its bases by a walk that goes depth
first and takes later bases before earlier ones. The list has every contract behind the start once,
the start in front (`linearized_covers`). Where bases are shared, a contract may stand behind one of
its own bases (`linearized_may_put_base_first`): it stands in front of it exactly if the walk first
comes to the base through it (`linearized_before_iff`).
-/

namespace ContractTyping

open Option

open Relation List ContractTyping.Graph

namespace Graph

variable {α : Type} [DecidableEq α] {successors : α → List α} {pending seen vertices : List α}
  {steps : Nat} {goal u v w : α}

theorem preorder_nodup (distinct : seen.Nodup) :
    (preorder successors steps pending seen).Nodup := by
  fun_induction preorder successors steps pending seen with
  | case1 | case2 => exact distinct
  | case3 _ _ _ _ _ ih => exact ih distinct
  | case4 _ _ _ _ new ih => exact ih (nodup_append.mpr ⟨distinct, nodup_singleton _, by grind⟩)

/-- What has been seen stays in front. -/
theorem seen_prefix_preorder : seen <+: preorder successors steps pending seen := by
  fun_induction preorder successors steps pending seen with
  | case1 | case2 => exact prefix_rfl
  | case3 _ _ _ _ _ ih => exact ih
  | case4 _ v _ seen _ ih => exact (prefix_append seen [v]).trans ih

/-- A vertex that has been seen is not asked for its successors. -/
theorem preorder_congr {successors' : α → List α}
    (same : ∀ v, v ∉ seen → successors v = successors' v) :
    preorder successors steps pending seen = preorder successors' steps pending seen := by
  fun_induction preorder successors steps pending seen with
  | case1 => rfl
  | case2 => rfl
  | case3 _ _ _ _ known ih => rw [preorder, if_pos known, ih same]
  | case4 _ v _ seen new ih =>
    rw [preorder, if_neg new, ← same v new]
    exact ih fun u outside => same u fun mem => outside (mem_append_left _ mem)

/-! ## Which of two vertices is met first -/

open Classical in
/-- Whether a vertex is the goal or leads to it. -/
noncomputable def leadsTo (successors : α → List α) (goal v : α) : Bool :=
  decide (ReflTransGen (Edge successors) v goal)

/-- The first of the successors that leads to the goal. -/
def Towards (successors : α → List α) (goal v w : α) : Prop :=
  (successors v).find? (leadsTo successors goal) = some w

omit [DecidableEq α] in
theorem leadsTo_iff : leadsTo successors goal v = true ↔ ReflTransGen (Edge successors) v goal :=
  @decide_eq_true_iff _ (Classical.propDecidable _)

omit [DecidableEq α] in
/-- A vertex that leads to a goal other than itself has a first successor that does. -/
theorem exists_towards (leads : ReflTransGen (Edge successors) v goal) (other : v ≠ goal) :
    ∃ w, Towards successors goal v w := by
  rcases leads.cases_head with same | ⟨w, next, rest⟩
  · exact absurd same other
  · exact isSome_iff_exists.mp (find?_isSome.mpr ⟨w, next, leadsTo_iff.mpr rest⟩)

omit [DecidableEq α] in
theorem Towards.edge (step : Towards successors goal v w) : Edge successors v w :=
  mem_of_find?_eq_some step

omit [DecidableEq α] in
theorem Towards.leads (step : Towards successors goal v w) :
    ReflTransGen (Edge successors) w goal :=
  leadsTo_iff.mp (find?_some step)

omit [DecidableEq α] in
/-- The way to the goal goes on with the first successor that leads to it. -/
theorem way_iff (step : Towards successors goal v u) (other : v ≠ w) :
    ReflTransGen (Towards successors goal) v w ↔ ReflTransGen (Towards successors goal) u w := by
  refine ⟨fun way => ?_, .head step⟩
  rcases way.cases_head with same | ⟨u', step', rest⟩
  · exact absurd same other
  · cases step.symm.trans step'
    exact rest

theorem idxOf_lt_of_front {all : List α} (front : seen ++ [v] <+: all) (new : v ∉ seen)
    (late : w ∉ seen) (other : w ≠ v) : all.idxOf v < all.idxOf w := by
  obtain ⟨rest, rfl⟩ := front
  rw [append_assoc, idxOf_append_of_notMem new, idxOf_append_of_notMem late]
  simp [other.symm]

/-- The walk meets a vertex before a goal behind it exactly if it comes to the goal through the
vertex, where each vertex on the way is the first that leads to the goal. The walk is looked at from
the time when the pending vertex that is the first to lead to the goal comes up, and what it has
seen by then is not behind that vertex. -/
theorem preorder_before_iff (covers : ∀ v, successors v ≠ [] → v ∈ vertices)
    (walking : Walking successors vertices steps pending seen)
    (first : pending.find? (leadsTo successors goal) = some v)
    (acyclic : ∀ u, ReflTransGen (Edge successors) v u → ¬ TransGen (Edge successors) u u)
    (behind : TransGen (Edge successors) w goal) (new : w ∉ seen)
    (past : ∀ u ∈ seen, ReflTransGen (Edge successors) u goal →
      ¬ ReflTransGen (Edge successors) v u) :
    (preorder successors steps pending seen).idxOf w <
      (preorder successors steps pending seen).idxOf goal ↔
      ReflTransGen (Towards successors goal) v w := by
  fun_induction preorder successors steps pending seen generalizing v with
  | case1 pending seen =>
    have none : pending = [] := length_eq_zero_iff.mp (Nat.eq_zero_of_add_eq_zero_right
      (Nat.le_zero.mp walking.enough))
    cases none
    cases first
  | case2 => cases first
  | case3 steps u pending seen known ih =>
    have other : leadsTo successors goal u ≠ true := by
      intro leads
      rw [find?_cons_of_pos leads] at first
      cases first
      exact past u known (leadsTo_iff.mp leads) .refl
    rw [find?_cons_of_neg other] at first
    exact ih (walking.skip known) first acyclic new past
  | case4 steps u pending seen fresh ih =>
    have front :
      seen ++ [u] <+: preorder successors steps (successors u ++ pending) (seen ++ [u]) :=
      seen_prefix_preorder
    by_cases leads : leadsTo successors goal u = true
    · rw [find?_cons_of_pos leads] at first
      cases first
      have leads := leadsTo_iff.mp leads
      have late : goal ∉ seen := fun mem => past goal mem .refl leads
      by_cases same : u = w
      · subst same
        have other : goal ≠ u := fun same => acyclic u .refl (same ▸ behind)
        exact iff_of_true (idxOf_lt_of_front front fresh late other) .refl
      · by_cases found : u = goal
        · subst found
          have early := idxOf_lt_of_front front fresh new (Ne.symm same)
          refine iff_of_false (Nat.not_lt.mpr early.le) fun way => ?_
          rcases way.cases_head with same' | ⟨x, step, -⟩
          · exact same same'
          · exact acyclic u .refl (.head' step.edge step.leads)
        · -- The walk goes on below the first successor that leads to the goal.
          obtain ⟨x, step⟩ := exists_towards leads found
          rw [way_iff step same]
          refine ih (walking.visit covers fresh) (by rw [find?_append, step, some_or])
            (fun y path => acyclic y (.head step.edge path)) (by simp [new, Ne.symm same])
            fun y mem path back => ?_
          rcases mem_append.mp mem with isSeen | isNew
          · exact past y isSeen path (.head step.edge back)
          · cases mem_singleton.mp isNew
            exact acyclic u .refl (.head' step.edge back)
    · rw [find?_cons_of_neg leads] at first
      rw [leadsTo_iff] at leads
      have none : (successors u).find? (leadsTo successors goal) = none :=
        find?_eq_none.mpr fun x next path => leads (.head next (leadsTo_iff.mp path))
      refine ih (walking.visit covers fresh) (by rw [find?_append, none, none_or, first]) acyclic
        ?_ fun y mem path => ?_
      · rw [mem_append, mem_singleton]
        rintro (isSeen | rfl)
        · exact new isSeen
        · exact leads behind.to_reflTransGen
      · rcases mem_append.mp mem with isSeen | isNew
        · exact past y isSeen path
        · cases mem_singleton.mp isNew
          exact absurd path leads

end Graph

namespace Declarations

variable {unit : SourceUnit} {c k base goal : Contract} {id : NodeId}
variable (d : Declarations)

/-- The bases that the walk from a contract goes on to, the last one first. -/
def basesFromBackwards (d : Declarations) (c : Contract) (id : NodeId) : List NodeId :=
  (d.basesFrom c id).reverse

theorem edge_basesFromBackwards (c : Contract) :
    Edge (d.basesFromBackwards c) = Edge (d.basesFrom c) := by
  funext id next
  exact propext mem_reverse

/-- The contract is the first that the walk meets. -/
theorem linearized_eq (own : c.linearization = []) :
    d.linearized c = preorder (d.basesFromBackwards c)
      ((d.directBases c).length + edgeCount d.basesOfBackwards d.contractIds + 1) [c.id] [] := by
  have start : d.basesFromBackwards c c.id = (d.directBases c).reverse := by
    rw [basesFromBackwards, basesFrom_id]
  rw [preorder, if_neg not_mem_nil, start, append_nil, nil_append, linearized, own,
    isEmpty_nil, if_pos rfl]
  dsimp only
  rw [length_reverse]
  refine preorder_congr fun id outside => ?_
  rw [basesFromBackwards, basesFrom, if_neg fun same => outside (mem_singleton.mpr same),
    basesOfBackwards]

theorem walking_linearized (c : Contract) :
    Walking (d.basesFromBackwards c) (c.id :: d.contractIds.filter (· ≠ c.id))
      ((d.directBases c).length + edgeCount d.basesOfBackwards d.contractIds + 1) [c.id] [] where
  enough := by
    have others : edgeCount (d.basesFromBackwards c) (d.contractIds.filter (· ≠ c.id)) =
        edgeCount d.basesOfBackwards (d.contractIds.filter (· ≠ c.id)) := by
      refine congrArg List.length (flatMap_congr fun id inside => ?_)
      have other : id ≠ c.id := by simpa using (mem_filter.mp inside).2
      rw [basesFromBackwards, basesFrom, if_neg other, basesOfBackwards]
    have fewer : edgeCount d.basesOfBackwards (d.contractIds.filter (· ≠ c.id)) ≤
        edgeCount d.basesOfBackwards d.contractIds := edgeCount_filter_le _ _
    have start : (d.basesFromBackwards c c.id).length = (d.directBases c).length := by
      rw [basesFromBackwards, basesFrom_id, length_reverse]
    refine Nat.le_trans (Nat.add_le_add_left (edgeCount_filter_le _ _) _) ?_
    rw [edgeCount_cons, start, others, length_singleton]
    omega
  explored := forall_mem_nil _

/-- The bases that a contract lists. -/
def bases (d : Declarations) (k : Contract) : List Contract :=
  (d.directBases k).filterMap d.contract?

open Classical in
/-- Whether a contract is the goal or derives from it. -/
noncomputable def derives (d : Declarations) (goal k : Contract) :
    Bool := decide (ReflTransGen d.HasBase k goal)

/-- The last of the bases that a contract lists that is the goal or derives from it. -/
def LastTowards (d : Declarations) (goal k x : Contract) : Prop :=
  (d.bases k).reverse.find? (d.derives goal) = some x

theorem derives_iff {d : Declarations} : d.derives goal k = true ↔ ReflTransGen d.HasBase k goal :=
  @decide_eq_true_iff _ (Classical.propDecidable _)

theorem mem_bases : base ∈ (ofUnit unit).bases k ↔ (ofUnit unit).HasBase k base := by
  rw [bases, mem_filterMap]
  constructor
  · rintro ⟨id, listed, found⟩
    obtain ⟨base', isBase, rfl⟩ := mem_directBases.mp listed
    cases isBase.contract?.symm.trans found
    exact isBase
  · intro listed
    exact ⟨base.id, mem_directBases.mpr ⟨base, listed, rfl⟩, listed.contract?⟩

theorem map_id_bases : ((ofUnit unit).bases k).map Contract.id = (ofUnit unit).directBases k := by
  have found (id : NodeId) (listed : id ∈ (ofUnit unit).directBases k) :
      ((ofUnit unit).contract? id).map Contract.id = some id := by
    obtain ⟨base, isBase, rfl⟩ := mem_directBases.mp listed
    rw [isBase.contract?, map_some]
  rw [bases, map_filterMap, filterMap_congr found, filterMap_some]

theorem LastTowards.hasBase (step : (ofUnit unit).LastTowards goal k base) :
    (ofUnit unit).HasBase k base :=
  mem_bases.mp (mem_reverse.mp (mem_of_find?_eq_some step))

section Walk

variable (distinct : (ofUnit unit).contractIds.Nodup) (mem : c ∈ (ofUnit unit).contracts)

include mem in
theorem covers_basesFromBackwards (id : NodeId)
    (bases : (ofUnit unit).basesFromBackwards c id ≠ []) :
    id ∈ c.id :: (ofUnit unit).contractIds.filter (· ≠ c.id) := by
  have isContract := mem_contractIds_of_basesFrom (mem_contracts.mp mem) id
    fun none => bases (by rw [basesFromBackwards, none, reverse_nil])
  by_cases same : id = c.id
  · exact same ▸ mem_cons_self
  · exact mem_cons_of_mem _ (mem_filter.mpr ⟨isContract, decide_eq_true same⟩)

include distinct mem

variable (below : ReflTransGen (ofUnit unit).HasBase c k)

include below

theorem edge_iff (id : NodeId) :
    Edge ((ofUnit unit).basesFromBackwards c) k.id id ↔ ∃ base, (ofUnit unit).HasBase k base ∧
      base.id = id := by
  rw [edge_basesFromBackwards, Edge, mem_basesFrom distinct mem below]

omit below in
theorem mem_linearized_iff (own : c.linearization = []) :
    id ∈ (ofUnit unit).linearized c ↔ ∃ k, ReflTransGen (ofUnit unit).HasBase c k ∧ k.id = id := by
  rw [linearized_eq _ own]
  constructor
  · refine preorder_keeps (Q := fun id => ∃ k, ReflTransGen (ofUnit unit).HasBase c k ∧ k.id = id)
      (forall_mem_singleton.mpr ⟨c, .refl, rfl⟩) (forall_mem_nil _) ?_ id
    rintro _ ⟨k, below, rfl⟩ id next
    obtain ⟨base, listed, rfl⟩ := (edge_iff distinct mem below _).mp next
    exact ⟨base, below.tail listed, rfl⟩
  · rintro ⟨k, below, rfl⟩
    obtain ⟨-, starts, closed⟩ :=
      preorder_closed (covers_basesFromBackwards mem) (walking_linearized (ofUnit unit) c)
    induction below with
    | refl => exact starts (mem_singleton_self _)
    | tail below listed ih =>
      exact closed _ ih ((edge_iff distinct mem below _).mpr ⟨_, listed, rfl⟩)

/-! ## A contract and its bases in the list -/

theorem leads_iff (inUnit : goal ∈ (ofUnit unit).contracts) :
    ReflTransGen (Edge ((ofUnit unit).basesFromBackwards c)) k.id goal.id ↔
      ReflTransGen (ofUnit unit).HasBase k goal := by
  rw [path_iff (fun _ _ listed => listed) (fun k => edge_iff distinct mem) below]
  refine ⟨?_, fun path => ⟨goal, path, rfl⟩⟩
  rintro ⟨x, path, same⟩
  cases eq_of_id_eq distinct (mem_contracts_of_below mem (below.trans path)) inUnit same
  exact path

theorem towards_iff (inUnit : goal ∈ (ofUnit unit).contracts) :
    Towards ((ofUnit unit).basesFromBackwards c) goal.id k.id id ↔
      ∃ x, (ofUnit unit).LastTowards goal k x ∧ x.id = id := by
  have same (x : Contract) (listed : x ∈ ((ofUnit unit).bases k).reverse) :
      (leadsTo ((ofUnit unit).basesFromBackwards c) goal.id ∘ Contract.id)
      x = (ofUnit unit).derives goal x := by
    have isBase := mem_bases.mp (mem_reverse.mp listed)
    rw [Function.comp, Bool.eq_iff_iff, leadsTo_iff,
      leads_iff distinct mem (below.tail isBase) inUnit, derives_iff]
  rw [Towards, basesFromBackwards, basesFrom_of_below distinct mem below, ← map_id_bases,
    ← map_reverse, find?_map, map_eq_some_iff, ← head?_filter, filter_congr same, head?_filter]
  rfl

end Walk

/-- **The bases of a contract.** Without an order from the source unit, the list has no contract
twice, starts with the contract itself, and has exactly the contracts that are reached from it along
direct bases. -/
theorem linearized_covers (distinct : (ofUnit unit).contractIds.Nodup)
    (mem : c ∈ (ofUnit unit).contracts) (own : c.linearization = []) :
    ((ofUnit unit).linearized c).Nodup ∧ ((ofUnit unit).linearized c).head? = some c.id ∧
      ∀ id, id ∈ (ofUnit unit).linearized c ↔ ∃ k, ReflTransGen (ofUnit unit).HasBase c k ∧
        k.id = id := by
  refine ⟨?_, ?_, fun id => mem_linearized_iff distinct mem own⟩
  · rw [linearized_eq _ own]
    exact Graph.preorder_nodup List.nodup_nil
  · obtain ⟨rest, equal⟩ : [c.id] <+: (ofUnit unit).linearized c := by
      rw [linearized, own]
      exact Graph.seen_prefix_preorder
    rw [← equal]
    rfl

theorem linearized_covers_clash :
    let d := ofUnit clashUnit
    let behind := derivedContract 2 6 7 3 "Behind"
    d.contractIds.Nodup ∧ behind ∈ d.contracts ∧ (d.contract? behind.id).isNone ∧
      d.linearized behind = [⟨2⟩, ⟨3⟩, ⟨4⟩] ∧
      ∀ id, id ∈ d.linearized behind ↔ ∃ k, ReflTransGen d.HasBase behind k ∧ k.id = id := by
  intro d behind
  have distinct : d.contractIds.Nodup := by decide
  have mem : behind ∈ d.contracts := .head _
  obtain ⟨-, -, covers⟩ := linearized_covers distinct mem rfl
  exact ⟨distinct, mem, rfl, rfl, covers⟩

/-- **Contracts and their bases in the list.** Without an order from the source unit and without
cycles, a contract stands before a contract that it derives from exactly if it is on the way that
leads there from the start by the last of the listed bases that does. -/
theorem linearized_before_iff (distinct : (ofUnit unit).contractIds.Nodup)
    (mem : c ∈ (ofUnit unit).contracts) (own : c.linearization = [])
    (acyclic : ∀ k, ReflTransGen (ofUnit unit).HasBase c k → ¬ TransGen (ofUnit unit).HasBase k k)
    (below : ReflTransGen (ofUnit unit).HasBase c k)
    (derived : TransGen (ofUnit unit).HasBase k base) :
    ((ofUnit unit).linearized c).idxOf k.id < ((ofUnit unit).linearized c).idxOf base.id ↔
      ReflTransGen ((ofUnit unit).LastTowards base) c k := by
  have inUnit : base ∈ (ofUnit unit).contracts :=
    mem_contracts_of_below mem (below.trans derived.to_reflTransGen)
  have first :
    [c.id].find? (Graph.leadsTo ((ofUnit unit).basesFromBackwards c) base.id) = some c.id :=
    List.find?_cons_of_pos (Graph.leadsTo_iff.mpr ((leads_iff distinct mem .refl inUnit).mpr
      (below.trans derived.to_reflTransGen)))
  have behind : TransGen (Graph.Edge ((ofUnit unit).basesFromBackwards c)) k.id base.id := by
    rw [edge_basesFromBackwards, ← Graph.reaches_iff_transGen, reaches_iff distinct mem below]
    exact ⟨base, derived, rfl⟩
  have noCycle (id : NodeId)
      (path : ReflTransGen (Graph.Edge ((ofUnit unit).basesFromBackwards c)) c.id id) :
      ¬ TransGen (Graph.Edge ((ofUnit unit).basesFromBackwards c)) id id := by
    obtain ⟨x, below, rfl⟩ :=
      (path_iff (fun _ _ listed => listed) (fun k => edge_iff distinct mem) .refl).mp path
    rw [edge_basesFromBackwards, ← Graph.reaches_iff_transGen, reaches_self_iff distinct mem below]
    exact acyclic x below
  rw [linearized_eq _ own, Graph.preorder_before_iff (covers_basesFromBackwards mem)
    (walking_linearized _ c) first noCycle behind List.not_mem_nil (List.forall_mem_nil _),
    path_iff (fun k x step => step.hasBase)
    (fun k below id => towards_iff distinct mem below inUnit) .refl]
  refine ⟨?_, fun way => ⟨k, way, rfl⟩⟩
  rintro ⟨x, way, same⟩
  have inside : ReflTransGen (ofUnit unit).HasBase c x :=
    ReflTransGen.mono (fun _ _ step => step.hasBase) _ _ way
  cases eq_of_id_eq distinct (mem_contracts_of_below mem inside)
    (mem_contracts_of_below mem below) same
  exact way

/-- A contract with the given bases and no parts. -/
def hierarchyContract (id : Int64) (bases : List Int64) : Contract :=
  { derivedContract id id id id "Contract" with
    bases := bases.map fun base =>
      ⟨⟨⟨id⟩, .unknown⟩, ⟨⟨⟨id⟩, .unknown⟩, ["base"], some ⟨base⟩⟩, none⟩ }

/-- A contract with two bases, which share their only base. -/
def diamondUnit : SourceUnit :=
  { loopUnit with
    parts := [.contract (hierarchyContract 2 [3, 4]), .contract (hierarchyContract 3 [5]),
      .contract (hierarchyContract 4 [5]), .contract (hierarchyContract 5 [])] }

theorem diamondUnit_distinct : (ofUnit diamondUnit).contractIds.Nodup := by decide

theorem diamondUnit_acyclic :
    ∀ k ∈ (ofUnit diamondUnit).contracts, ¬ TransGen (ofUnit diamondUnit).HasBase k k := by
  have none : ∀ k ∈ (ofUnit diamondUnit).contracts, (ofUnit diamondUnit).cycle? k = none := by
    decide
  intro k mem round
  exact (cycle?_eq_none_iff_from (mem_contracts.mp mem)).mp (none k mem)
    ((leadsToCycle_iff diamondUnit_distinct mem).mpr ⟨k, .refl, round⟩)

/-- The base that is listed first comes after the base that both share. -/
theorem linearized_before_iff_diamond :
    let d := ofUnit diamondUnit
    let top := hierarchyContract 2 [3, 4]
    let shared := hierarchyContract 5 []
    d.linearized top = [⟨2⟩, ⟨4⟩, ⟨5⟩, ⟨3⟩] ∧
      ReflTransGen (d.LastTowards shared) top (hierarchyContract 4 [5]) ∧
      ¬ ReflTransGen (d.LastTowards shared) top (hierarchyContract 3 [5]) := by
  intro d top shared
  have mem : top ∈ d.contracts := .head _
  have acyclic (k : Contract) (below : ReflTransGen d.HasBase top k) : ¬ TransGen d.HasBase k k :=
    diamondUnit_acyclic k (mem_contracts_of_below mem below)
  have first : d.HasBase top (hierarchyContract 3 [5]) := ⟨_, .head _, _, rfl, rfl⟩
  have last : d.HasBase top (hierarchyContract 4 [5]) := ⟨_, .tail _ (.head _), _, rfl, rfl⟩
  have ahead := linearized_before_iff diamondUnit_distinct mem rfl acyclic (.single last)
    (.single ⟨_, .head _, _, rfl, rfl⟩ : TransGen d.HasBase _ shared)
  have behind := linearized_before_iff diamondUnit_distinct mem rfl acyclic (.single first)
    (.single ⟨_, .head _, _, rfl, rfl⟩ : TransGen d.HasBase _ shared)
  exact ⟨rfl, ahead.mp (by decide), fun way => absurd (behind.mpr way) (by decide)⟩

/-- A contract may stand behind one of its own bases. -/
theorem linearized_may_put_base_first :
    ¬ ∀ (unit : SourceUnit), (ofUnit unit).contractIds.Nodup →
      (∀ k ∈ (ofUnit unit).contracts, k.linearization = [] ∧ ¬ TransGen (ofUnit unit).HasBase k k) →
      ∀ c ∈ (ofUnit unit).contracts, ∀ k base, ReflTransGen (ofUnit unit).HasBase c k →
        (ofUnit unit).HasBase k base →
        ((ofUnit unit).linearized c).idxOf k.id < ((ofUnit unit).linearized c).idxOf base.id := by
  intro ordered
  have given : ∀ k ∈ (ofUnit diamondUnit).contracts, k.linearization = [] := by decide
  have before :=
    ordered diamondUnit diamondUnit_distinct (fun k mem => ⟨given k mem, diamondUnit_acyclic k mem⟩)
    (hierarchyContract 2 [3, 4]) (.head _) (hierarchyContract 3 [5]) (hierarchyContract 5 [])
    (.single ⟨_, .head _, _, rfl, rfl⟩) ⟨_, .head _, _, rfl, rfl⟩
  exact absurd before (by decide)

end Declarations

end ContractTyping
