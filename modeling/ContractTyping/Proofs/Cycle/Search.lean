import ContractTyping.Graph.Search
import Mathlib.Data.List.Chain
import Mathlib.Data.List.Nodup
import Mathlib.Logic.Relation

/-!
# The search for a cycle

`Graph.cycleFrom` finds a cycle exactly if there is one to be found:

* `isCycle_of_cycleFrom`: what ends the search is a cycle, and it can be reached;
* `harmless_of_cycleFrom`: where the search ends without one, no vertex behind the start lies on a
  cycle, as long as the bound on the depth exceeds the number of vertices with successors.
-/

namespace ContractTyping.Graph

variable {α : Type} {successors : α → List α} {u v w : α}
variable {path vertices : List α} {depth : Nat} {finished : List α}

def Edge (successors : α → List α) (v w : α) : Prop := w ∈ successors v

/-- Different vertices, each with an edge to the next one and the last one to the first. -/
structure IsCycle (successors : α → List α) (cycle : List α) : Prop where
  distinct : cycle.Nodup
  closed : ∃ v, cycle.head? = some v ∧ List.IsChain (Edge successors) (cycle ++ [v])

/-- The vertex lies on a cycle, or one that it reaches does. -/
def LeadsToCycle (successors : α → List α) (v : α) : Prop :=
  ∃ w, (w = v ∨ Reaches successors v w) ∧ Reaches successors w w

/-! ## Paths -/

theorem Reaches.trans (first : Reaches successors u v) (second : Reaches successors v w) :
    Reaches successors u w := by
  induction first with
  | edge next => exact .step next second
  | step next _ ih => exact .step next (ih second)

theorem Reaches.succ_ne_nil (reaches : Reaches successors v w) : successors v ≠ [] := by
  cases reaches with
  | edge next | step next _ => exact List.ne_nil_of_mem next

theorem reaches_iff_transGen :
    Reaches successors v w ↔ Relation.TransGen (Edge successors) v w := by
  constructor
  · intro reaches
    induction reaches with
    | edge next => exact .single next
    | step next _ ih => exact .head next ih
  · intro path
    induction path using Relation.TransGen.head_induction_on with
    | single next => exact .edge next
    | head next _ ih => exact .step next ih

/-- The first vertex of a path leads to each of the others. -/
theorem reaches_of_chain (chain : List.IsChain (Edge successors) (v :: path)) (mem : w ∈ path) :
    Reaches successors v w := by
  induction path generalizing v with
  | nil => cases mem
  | cons u rest ih =>
    obtain ⟨next, chain⟩ := List.isChain_cons_cons.mp chain
    rcases List.mem_cons.mp mem with rfl | later
    · exact .edge next
    · exact .step next (ih chain later)

/-- Each vertex of a path leads to the last one. -/
theorem reaches_last_of_chain (chain : List.IsChain (Edge successors) (path ++ [v]))
    (mem : u ∈ path) : Reaches successors u v := by
  obtain ⟨before, after, rfl⟩ := List.append_of_mem mem
  rw [List.append_assoc] at chain
  exact reaches_of_chain chain.right_of_append (List.mem_append_right _ (List.mem_singleton_self v))

/-- On a cycle, each vertex reaches each. -/
theorem IsCycle.reaches {cycle : List α} (closed : IsCycle successors cycle) (first : u ∈ cycle)
    (second : w ∈ cycle) : Reaches successors u w := by
  obtain ⟨v, starts, chain⟩ := closed.closed
  have back : Reaches successors u v := reaches_last_of_chain chain first
  obtain ⟨rest, rfl⟩ := List.head?_eq_some_iff.mp starts
  rcases List.mem_cons.mp second with rfl | later
  · exact back
  · exact back.trans (reaches_of_chain chain (List.mem_append_left _ later))

/-- A vertex leads to a cycle only through one of its successors. -/
theorem LeadsToCycle.succ (leads : LeadsToCycle successors v) :
    ∃ w ∈ successors v, LeadsToCycle successors w := by
  obtain ⟨u, rfl | reaches, round⟩ := leads
  · cases round with
    | edge next => exact ⟨u, next, u, .inl rfl, .edge next⟩
    | step next rest => exact ⟨_, next, u, .inr rest, .step next rest⟩
  · cases reaches with
    | edge next => exact ⟨u, next, u, .inl rfl, round⟩
    | step next rest => exact ⟨_, next, u, .inr rest, round⟩

/-- The path down to a vertex, without repetitions. -/
structure Descent (successors : α → List α) (path : List α) (v : α) : Prop where
  distinct : path.Nodup
  chain : List.IsChain (Edge successors) (path ++ [v])

theorem Descent.start (next : w ∈ successors v) : Descent successors [v] w :=
  ⟨List.nodup_singleton v, List.isChain_pair.mpr next⟩

theorem Descent.deeper (descent : Descent successors path v) (new : v ∉ path)
    (next : w ∈ successors v) : Descent successors (path ++ [v]) w where
  distinct :=
    List.nodup_append.mpr ⟨descent.distinct, List.nodup_singleton v, fun u mem u' last equal => by
    cases List.mem_singleton.mp last
    exact new (equal ▸ mem)⟩
  chain := by
    refine List.isChain_append.mpr
      ⟨descent.chain, List.isChain_singleton w, fun u last u' first => ?_⟩
    rw [List.getLast?_concat] at last
    cases last
    cases first
    exact next

/-- A path is not longer than there are vertices with successors. -/
theorem Descent.length_le (descent : Descent successors path v)
    (all : ∀ u, successors u ≠ [] → u ∈ vertices) : path.length ≤ vertices.length :=
  descent.distinct.length_le_of_subset fun _ mem =>
    all _ (reaches_last_of_chain descent.chain mem).succ_ne_nil

/-! ## What ends the search -/

theorem foldlM_error {ε β : Type} {f : β → α → Except ε β} {start : β} {e : ε}
    (failed : vertices.foldlM f start = .error e) : ∃ b, ∃ v ∈ vertices, f b v = .error e := by
  induction vertices generalizing start with
  | nil => cases failed
  | cons v rest ih =>
    rw [List.foldlM_cons] at failed
    cases first : f start v with
    | error other =>
      rw [first] at failed
      cases failed
      exact ⟨start, v, List.mem_cons_self, first⟩
    | ok b =>
      rw [first] at failed
      obtain ⟨b', w, mem, later⟩ := ih failed
      exact ⟨b', w, List.mem_cons_of_mem _ mem, later⟩

/-- The part of a path from a vertex that is met again is a cycle. -/
theorem isCycle_dropWhile [DecidableEq α] (distinct : path.Nodup)
    (chain : List.IsChain (Edge successors) (path ++ [v])) (again : v ∈ path) :
    IsCycle successors (path.dropWhile (· ≠ v)) := by
  obtain ⟨before, after, rfl, early⟩ := List.eq_append_cons_of_mem again
  have dropped : (before ++ v :: after).dropWhile (· ≠ v) = v :: after := by
    rw [List.dropWhile_append_of_pos fun u mem => ?_]
    · simp
    · simp only [ne_eq, decide_not, Bool.not_eq_true', decide_eq_false_iff_not]
      rintro rfl
      exact early mem
  rw [dropped]
  rw [List.append_assoc] at chain
  exact ⟨distinct.of_append_right, v, rfl, chain.right_of_append⟩

/-- What ends the search is a cycle. Its vertices lie on the path, or the vertex leads to them. -/
theorem isCycle_of_cycleFrom [DecidableEq α] {cycle : List α} (descent : Descent successors path v)
    (found : cycleFrom successors depth path finished v = .error cycle) :
    IsCycle successors cycle ∧ ∀ u ∈ cycle, u ∈ path ∨ u = v ∨ Reaches successors v u := by
  induction depth generalizing path finished cycle v with
  | zero => cases found
  | succ depth ih =>
    rw [cycleFrom] at found
    split at found
    · next onPath =>
      cases found
      exact ⟨isCycle_dropWhile descent.distinct descent.chain onPath, fun u mem =>
        .inl ((List.dropWhile_suffix _).mem mem)⟩
    · next new =>
      split at found
      · cases found
      cases below : (successors v).foldlM (cycleFrom successors depth (path ++ [v])) finished with
      | ok more =>
        rw [below] at found
        cases found
      | error other =>
        rw [below] at found
        cases found
        obtain ⟨_, w, next, deeper⟩ := foldlM_error below
        obtain ⟨closed, inside⟩ := ih (descent.deeper new next) deeper
        refine ⟨closed, fun u mem => ?_⟩
        rcases inside u mem with above | rfl | further
        · rcases List.mem_append.mp above with onPath | last
          · exact .inl onPath
          · exact .inr (.inl (List.mem_singleton.mp last))
        · exact .inr (.inr (.edge next))
        · exact .inr (.inr (.step next further))

/-- The search does not ask for the successors of the vertices on its path. -/
theorem cycleFrom_congr [DecidableEq α] {successors' : α → List α}
    (same : ∀ u, u ∉ path → successors u = successors' u) :
    cycleFrom successors depth path finished v = cycleFrom successors' depth path finished v := by
  induction depth generalizing path finished v with
  | zero => rfl
  | succ depth ih =>
    rw [cycleFrom, cycleFrom]
    split
    · rfl
    · next new =>
      have below :
          cycleFrom successors depth (path ++ [v]) = cycleFrom successors' depth (path ++ [v]) := by
        funext finished w
        exact ih fun u outside => same u fun onPath => outside (List.mem_append_left _ onPath)
      rw [same v new, below]

/-! ## A search without a result -/

/-- What the search has finished: among the vertices is no one that leads to a cycle. -/
def Harmless (successors : α → List α) (finished : List α) : Prop :=
  ∀ u ∈ finished, ¬ LeadsToCycle successors u

/-- A fold over vertices finishes all of them if each step finishes its own. -/
theorem foldlM_finishes {f : List α → α → Except (List α) (List α)} {start : List α}
    (step : ∀ before v after, v ∈ vertices → Harmless successors before → f before v = .ok after →
      Harmless successors after ∧ before ⊆ after ∧ v ∈ after) (harmless : Harmless successors start)
    (ended : vertices.foldlM f start = .ok finished) :
    Harmless successors finished ∧ start ⊆ finished ∧ vertices ⊆ finished := by
  induction vertices generalizing start with
  | nil =>
    cases ended
    exact ⟨harmless, List.Subset.refl _, List.nil_subset _⟩
  | cons v rest ih =>
    rw [List.foldlM_cons] at ended
    cases first : f start v with
    | error _ =>
      rw [first] at ended
      cases ended
    | ok middle =>
      rw [first] at ended
      obtain ⟨still, kept, own⟩ := step start v middle List.mem_cons_self harmless first
      obtain ⟨last, later, others⟩ :=
        ih (fun before w after mem => step before w after (List.mem_cons_of_mem _ mem)) still ended
      exact ⟨last, List.Subset.trans kept later, List.cons_subset.mpr ⟨later own, others⟩⟩

/-- A search that ends without a cycle finishes the vertex, and only what leads to no cycle. -/
theorem harmless_of_cycleFrom [DecidableEq α] (all : ∀ u, successors u ≠ [] → u ∈ vertices)
    {finished' : List α}
    (descent : Descent successors path v) (enough : vertices.length < depth + path.length)
    (harmless : Harmless successors finished)
    (ended : cycleFrom successors depth path finished v = .ok finished') :
    Harmless successors finished' ∧ finished ⊆ finished' ∧ v ∈ finished' := by
  induction depth generalizing path finished finished' v with
  | zero =>
    have short := descent.length_le all
    omega
  | succ depth ih =>
    rw [cycleFrom] at ended
    split at ended
    · cases ended
    · next new =>
      split at ended
      · next done =>
        cases ended
        exact ⟨harmless, List.Subset.refl _, done⟩
      cases below : (successors v).foldlM (cycleFrom successors depth (path ++ [v])) finished with
      | error _ =>
        rw [below] at ended
        cases ended
      | ok more =>
        rw [below] at ended
        cases ended
        have longer : vertices.length < depth + (path ++ [v]).length := by
          rw [List.length_append, List.length_singleton]
          omega
        obtain ⟨safe, kept, behind⟩ := foldlM_finishes
          (fun _ _ _ next still => ih (descent.deeper new next) longer still) harmless below
        refine ⟨fun u mem leads => ?_, List.Subset.trans kept (List.subset_cons_self _ _),
          List.mem_cons_self⟩
        rcases List.mem_cons.mp mem with rfl | earlier
        · -- The way to a cycle goes through a successor, and they are all finished.
          obtain ⟨w, next, onward⟩ := leads.succ
          exact safe w (behind next) onward
        · exact safe u earlier leads

end ContractTyping.Graph
