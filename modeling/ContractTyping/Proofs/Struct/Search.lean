import ContractTyping.Abi.Encoding
import ContractTyping.Proofs.Cycle.Search
import Mathlib.Data.List.Flatten

/-!
# The search for structs

`Graph.preorder` finds exactly what can be reached (`Graph.mem_preorder_iff`), as long as it has one
step for each pending vertex and each edge. With it the questions about the structs inside a type
have exact answers: which structs there are (`StructTable.mem_reachable_iff`), whether one of them
contains itself (`StructTable.isRecursive_iff`), and whether everything can be encoded
(`StructTable.isEncodable_iff`).
-/

namespace ContractTyping

open List

namespace Graph

variable {α : Type} {successors : α → List α} {u v w : α}

/-- Whether a vertex is among the given ones, or can be reached from one of them. -/
def ReachedFrom (successors : α → List α) (start : List α) (w : α) : Prop :=
  w ∈ start ∨ ∃ v ∈ start, Reaches successors v w

theorem reaches_iff : Reaches successors v w ↔ ReachedFrom successors (successors v) w := by
  constructor
  · intro reaches
    cases reaches with
    | edge next => exact .inl next
    | step next rest => exact .inr ⟨_, next, rest⟩
  · rintro (next | ⟨u, next, rest⟩)
    · exact .edge next
    · exact .step next rest

theorem ReachedFrom.next {start : List α} (reached : ReachedFrom successors start v)
    (next : w ∈ successors v) : ReachedFrom successors start w := by
  rcases reached with mem | ⟨u, mem, reaches⟩
  · exact .inr ⟨v, mem, .edge next⟩
  · exact .inr ⟨u, mem, reaches.trans (.edge next)⟩

theorem ReachedFrom.mono {start more : List α} (inside : start ⊆ more)
    (reached : ReachedFrom successors start w) : ReachedFrom successors more w := by
  rcases reached with mem | ⟨v, mem, reaches⟩
  · exact .inl (inside mem)
  · exact .inr ⟨v, inside mem, reaches⟩

/-- What holds of the given vertices and is kept along the edges holds of all that is reached. -/
theorem ReachedFrom.induction {Q : α → Prop} {start : List α} (starts : ∀ v ∈ start, Q v)
    (keeps : ∀ v, Q v → ∀ w ∈ successors v, Q w) (reached : ReachedFrom successors start w) :
    Q w := by
  have onward {u v : α} (reaches : Reaches successors u v) (holds : Q u) : Q v := by
    induction reaches with
    | edge next => exact keeps _ holds _ next
    | step next _ ih => exact ih (keeps _ holds _ next)
  rcases reached with mem | ⟨v, mem, reaches⟩
  · exact starts w mem
  · exact onward reaches (starts v mem)

variable [DecidableEq α] {pending seen vertices : List α} {steps : Nat}

/-- Whatever holds of the given vertices and is kept along the edges holds of all that is found. -/
theorem preorder_keeps {Q : α → Prop} (pendings : ∀ v ∈ pending, Q v) (seens : ∀ v ∈ seen, Q v)
    (keeps : ∀ v, Q v → ∀ w ∈ successors v, Q w) :
    ∀ v ∈ preorder successors steps pending seen, Q v := by
  fun_induction preorder successors steps pending seen with
  | case1 => exact seens
  | case2 => exact seens
  | case3 steps v pending seen known ih => exact ih (forall_mem_cons.mp pendings).2 seens
  | case4 steps v pending seen new ih =>
    obtain ⟨first, others⟩ := forall_mem_cons.mp pendings
    exact ih (forall_mem_append.mpr ⟨keeps v first, others⟩)
      (forall_mem_append.mpr ⟨seens, forall_mem_singleton.mpr first⟩)

/-! ## Enough steps -/

omit [DecidableEq α] in
theorem edgeCount_cons (v : α) (vertices : List α) :
    edgeCount successors (v :: vertices) = (successors v).length + edgeCount successors vertices :=
  length_append

omit [DecidableEq α] in
theorem edgeCount_filter_le (p : α → Bool) (vertices : List α) :
    edgeCount successors (vertices.filter p) ≤ edgeCount successors vertices :=
  (filter_sublist.flatMap successors).length_le

/-- A vertex takes its edges along when it is left out. -/
theorem edgeCount_without (mem : v ∈ vertices) :
    (successors v).length + edgeCount successors
      (vertices.filter (· ≠ v)) ≤ edgeCount successors vertices := by
  induction vertices with
  | nil => cases mem
  | cons u rest ih =>
    rw [filter_cons, edgeCount_cons]
    by_cases same : u = v
    · cases same
      rw [if_neg (by simp)]
      exact Nat.add_le_add_left (edgeCount_filter_le _ rest) _
    · have fewer := ih ((mem_cons.mp mem).resolve_left (Ne.symm same))
      rw [if_pos (decide_eq_true same), edgeCount_cons]
      omega

/-- A visited vertex takes its edges along, if those with successors are among the given ones. -/
theorem edgeCount_visit (covers : ∀ v, successors v ≠ [] → v ∈ vertices) (new : v ∉ seen) :
    (successors v).length + edgeCount successors (vertices.filter (· ∉ seen ++ [v])) ≤
      edgeCount successors (vertices.filter (· ∉ seen)) := by
  have fewer : vertices.filter (· ∉ seen ++ [v]) = (vertices.filter (· ∉ seen)).filter (· ≠ v) := by
    rw [filter_filter]
    refine filter_congr fun u _ => ?_
    simp [and_comm]
  rw [fewer]
  by_cases isLeaf : successors v = []
  · rw [isLeaf, length_nil, Nat.zero_add]
    exact edgeCount_filter_le _ _
  · exact edgeCount_without (mem_filter.mpr ⟨covers v isLeaf, decide_eq_true new⟩)

/-- What holds between the steps of a walk: there is a step left for each pending vertex and each
edge of a vertex that has not been seen, and what follows on a vertex that has been seen is not
forgotten. -/
structure Walking (successors : α → List α) (vertices : List α) (steps : Nat)
    (pending seen : List α) : Prop where
  enough : pending.length + edgeCount successors (vertices.filter (· ∉ seen)) ≤ steps
  explored : ∀ v ∈ seen, ∀ w ∈ successors v, w ∈ seen ∨ w ∈ pending

namespace Walking

theorem start (pending : List α) :
    Walking successors vertices (pending.length + edgeCount successors vertices) pending [] where
  enough := Nat.add_le_add_left (edgeCount_filter_le _ vertices) _
  explored := forall_mem_nil _

theorem skip (walking : Walking successors vertices (steps + 1) (v :: pending) seen)
    (known : v ∈ seen) : Walking successors vertices steps pending seen where
  enough := by
    have enough := walking.enough
    rw [length_cons] at enough
    omega
  explored u mem w next := by
    rcases walking.explored u mem w next with isSeen | isPending
    · exact .inl isSeen
    · rcases mem_cons.mp isPending with rfl | later
      · exact .inl known
      · exact .inr later

theorem visit (covers : ∀ v, successors v ≠ [] → v ∈ vertices)
    (walking : Walking successors vertices (steps + 1) (v :: pending) seen) (new : v ∉ seen) :
    Walking successors vertices steps (successors v ++ pending) (seen ++ [v]) where
  enough := by
    have enough := walking.enough
    have edges := edgeCount_visit covers new
    rw [length_cons] at enough
    rw [length_append]
    omega
  explored u mem w next := by
    rcases mem_append.mp mem with isSeen | isNew
    · rcases walking.explored u isSeen w next with seenBefore | isPending
      · exact .inl (mem_append_left _ seenBefore)
      · rcases mem_cons.mp isPending with rfl | later
        · exact .inl (mem_append_right _ (mem_singleton_self _))
        · exact .inr (mem_append_right _ later)
    · cases mem_singleton.mp isNew
      exact .inr (mem_append_left _ next)

theorem closed (walking : Walking successors vertices steps [] seen) :
    ∀ v ∈ seen, successors v ⊆ seen :=
  fun v mem w next => (walking.explored v mem w next).resolve_right not_mem_nil

end Walking

/-- A walk with enough steps ends with all that was seen or pending, and what follows on that. -/
theorem preorder_closed (covers : ∀ v, successors v ≠ [] → v ∈ vertices)
    (walking : Walking successors vertices steps pending seen) :
    seen ⊆ preorder successors steps pending seen ∧
    pending ⊆ preorder successors steps pending seen ∧
      ∀ v ∈ preorder successors steps pending seen,
        successors v ⊆ preorder successors steps pending seen := by
  fun_induction preorder successors steps pending seen with
  | case1 pending seen =>
    have none : pending = [] := length_eq_zero_iff.mp (Nat.eq_zero_of_add_eq_zero_right
      (Nat.le_zero.mp walking.enough))
    cases none
    exact ⟨List.Subset.refl _, nil_subset _, walking.closed⟩
  | case2 steps seen => exact ⟨List.Subset.refl _, nil_subset _, walking.closed⟩
  | case3 steps v pending seen known ih =>
    obtain ⟨keeps, finds, closed⟩ := ih (walking.skip known)
    exact ⟨keeps, cons_subset.mpr ⟨keeps known, finds⟩, closed⟩
  | case4 steps v pending seen new ih =>
    obtain ⟨keeps, finds, closed⟩ := ih (walking.visit covers new)
    obtain ⟨keepsSeen, keepsNew⟩ := append_subset.mp keeps
    exact ⟨keepsSeen, cons_subset.mpr ⟨keepsNew (mem_singleton_self v), (append_subset.mp finds).2⟩,
      closed⟩

/-- With enough steps, the search finds what can be reached and nothing else. -/
theorem mem_preorder_iff {start : List α} (covers : ∀ v, successors v ≠ [] → v ∈ vertices) :
    w ∈ preorder successors (start.length + edgeCount successors vertices) start [] ↔
      ReachedFrom successors start w := by
  constructor
  · exact preorder_keeps (fun v mem => .inl mem) (forall_mem_nil _)
      (fun v reached w => reached.next) w
  · intro reached
    obtain ⟨-, finds, closed⟩ := preorder_closed covers (.start start)
    exact reached.induction finds closed

end Graph

namespace StructTable

variable {table : StructTable} {next : NodeId → List NodeId} {start : List NodeId}
  {id : NodeId} {t : Ty}

/-! ## Structs inside a type -/

theorem mem_ids (found : table.members id ≠ []) : id ∈ table.ids := by
  cases entry : table.entries.lookup id with
  | none =>
    rw [members, entry] at found
    exact absurd rfl found
  | some types =>
    obtain ⟨before, after, equal, -⟩ := lookup_eq_some_iff.mp entry
    rw [ids, equal]
    exact mem_map.mpr ⟨_, mem_append_right _ mem_cons_self, rfl⟩

theorem mem_reachable_iff (covers : ∀ id, next id ≠ [] → table.members id ≠ []) :
    id ∈ table.reachable next start ↔ Graph.ReachedFrom next start id :=
  Graph.mem_preorder_iff fun id found => mem_ids (covers id found)

theorem members_of_successors (id : NodeId) (found : table.successors id ≠ []) :
    table.members id ≠ [] := by
  intro none
  rw [successors, none] at found
  exact found rfl

/-- The structs met in a type, through arrays and the members of structs. -/
def Meets (table : StructTable) (t : Ty) (id : NodeId) : Prop :=
  Graph.ReachedFrom table.successors t.structs id

theorem isRecursive_iff : table.isRecursive id = true ↔ Graph.Reaches table.successors id id := by
  rw [isRecursive, contains_iff_mem, mem_reachable_iff members_of_successors, Graph.reaches_iff]

theorem mem_allParts_iff {part : Ty} :
    part ∈ table.allParts t ↔ part = t ∨ ∃ id, table.Meets t id ∧ part ∈ table.members id := by
  rw [allParts, parts, mem_cons, mem_flatMap]
  simp only [mem_reachable_iff members_of_successors, Meets]

/-- A type can be encoded if no struct in it contains itself, and what is met in it and in the
members of its structs has a representation. -/
theorem isEncodable_iff : table.isEncodable t = true ↔
    (∀ id, table.Meets t id → ¬ Graph.Reaches table.successors id id) ∧
      t.leaf.isEncodableLeaf = true ∧
      ∀ id, table.Meets t id → ∀ member ∈ table.members id, member.leaf.isEncodableLeaf = true := by
  have met (id : NodeId) : id ∈ table.reachable table.successors t.structs ↔ table.Meets t id :=
    mem_reachable_iff members_of_successors
  rw [isEncodable, Bool.and_eq_true, all_eq_true, all_eq_true]
  constructor
  · rintro ⟨finite, represented⟩
    refine ⟨fun id meets recursive => ?_, represented t (mem_allParts_iff.mpr (.inl rfl)),
      fun id meets member mem => represented member (mem_allParts_iff.mpr (.inr ⟨id, meets, mem⟩))⟩
    have notRecursive := finite id ((met id).mpr meets)
    rw [isRecursive_iff.mpr recursive] at notRecursive
    cases notRecursive
  · rintro ⟨finite, self, members⟩
    refine ⟨fun id mem => ?_, fun part mem => ?_⟩
    · rw [Bool.not_eq_true', Bool.eq_false_iff]
      exact fun recursive => finite id ((met id).mp mem) (isRecursive_iff.mp recursive)
    · rcases mem_allParts_iff.mp mem with rfl | ⟨id, meets, inMembers⟩
      · exact self
      · exact members id meets part inMembers

end StructTable

end ContractTyping
