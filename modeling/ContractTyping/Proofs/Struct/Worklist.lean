import ContractTyping.Proofs.Struct.Nesting

/-!
# Searches with a worklist

A search through structs can be done step by step, with a stack of types still to be looked at and
the structs whose members have been on it (`StructTable.searchWithin`). It ends with the first type
that it looks for, or when nothing is left. A step looks at the type on top and adds what this leads
to (`StructTable.look`), and a struct adds its members only once. So the search comes to an end in
every table, also where structs contain each other (`StructTable.exists_comesTo`), and it is exact:
if it ends with nothing found, then what it has looked at is closed under the steps
(`StructTable.closed_of_search`).
-/

namespace ContractTyping

open Relation Ty List

/-! ## Bounded computations -/

/-- Whether a computation with a bound on its steps has the given answer, from some bound on. -/
def ComesTo {α : Type} (within : Nat → Option α) (answer : α) : Prop :=
  ∃ bound, ∀ more, bound ≤ more → within more = some answer

namespace ComesTo

variable {α β : Type} {within next : Nat → Option α} {answer : α}

theorem of_succ (bound : Nat) (ends : ∀ more, bound ≤ more → within (more + 1) = some answer) :
    ComesTo within answer := by
  refine ⟨bound + 1, fun more enough => ?_⟩
  obtain ⟨more, rfl⟩ := Nat.exists_eq_add_of_lt enough
  exact ends (bound + more) (Nat.le_add_right bound more)

theorem at_once (ends : ∀ more, within (more + 1) = some answer) : ComesTo within answer :=
  of_succ 0 fun more _ => ends more

/-- One more step before a computation with an answer. -/
theorem step (comes : ComesTo next answer) (steps : ∀ more, within (more + 1) = next more) :
    ComesTo within answer := by
  obtain ⟨bound, ends⟩ := comes
  exact of_succ bound fun more enough => (steps more).trans (ends more enough)

/-- Computations with answers have a bound in common. -/
theorem exists_common {within : Nat → α → Option β} {answer : α → β} {inputs : List α}
    (each : ∀ x ∈ inputs, ComesTo (within · x) (answer x)) :
    ∃ bound, ∀ more, bound ≤ more → ∀ x ∈ inputs, within more x = some (answer x) := by
  induction inputs with
  | nil => exact ⟨0, fun _ _ => forall_mem_nil _⟩
  | cons x rest ih =>
    obtain ⟨⟨first, ends⟩, others⟩ := forall_mem_cons.mp each
    obtain ⟨bound, all⟩ := ih others
    refine ⟨max first bound, fun more enough => forall_mem_cons.mpr ⟨ends more ?_, all more ?_⟩⟩
    · exact (Nat.le_max_left first bound).trans enough
    · exact (Nat.le_max_right first bound).trans enough

end ComesTo

namespace Ty

def isStruct (id : NodeId) : Ty → Bool
  | struct other _ _ => other == id
  | _ => false

def isMapping : Ty → Bool
  | mapping .. => true
  | _ => false

variable {t : Ty} {id : NodeId}

theorem isStruct_iff : t.isStruct id = true ↔ ∃ name place, t = struct id name place := by
  cases t with
  | struct other name place => simp [isStruct]
  | _ => simp [isStruct]

theorem isMapping_iff : t.isMapping = true ↔ ∃ key value, t = mapping key value := by
  cases t with
  | mapping key value => simp [isMapping]
  | _ => simp [isMapping]

end Ty

namespace StructTable

/-! ## The search -/

/-- What a step of a search puts on the stack for a type, the top first, and the visited structs
after it. The last member of a struct comes first. Where only fixed lengths count, a dynamic array
is passed over. -/
def look (table : StructTable) (fixed : Bool) (visited : List NodeId) : Ty → List Ty × List NodeId
  | .struct id _ _ =>
    if id ∈ visited then ([], visited) else ((table.members id).reverse, id :: visited)
  | .array element length _ =>
    if fixed && length.isNone then ([], visited) else ([element], visited)
  | _ => ([], visited)

/-- Whether a search finds what it looks for, if it ends within the given number of steps. -/
def searchWithin (table : StructTable) (goal : Ty → Bool) (fixed : Bool) :
    Nat → List Ty → List NodeId → Option Bool
  | 0, _, _ => none
  | _ + 1, [], _ => some false
  | steps + 1, t :: pending, visited =>
    if goal t then some true
    else
      let next := table.look fixed visited t
      table.searchWithin goal fixed steps (next.1 ++ pending) next.2

/-- The search for a struct in its own members. -/
def recursiveWithin (table : StructTable) (fixed : Bool) (id : NodeId) (steps : Nat) :
    Option Bool :=
  table.searchWithin (isStruct id) fixed steps (table.members id).reverse []

/-- From a type to what a search looks at next. -/
inductive Leads (table : StructTable) (fixed : Bool) : Ty → Ty → Prop
  | element {t u : Ty} (step : HasElement fixed t u) : Leads table fixed t u
  | member {id : NodeId} {name : String} {place : Place} {member : Ty}
      (mem : member ∈ table.members id) : Leads table fixed (.struct id name place) member

variable {table : StructTable} {goal : Ty → Bool} {fixed : Bool} {steps : Nat} {t u : Ty}
variable {pending : List Ty} {visited : List NodeId} {id : NodeId}

/-! ## One step -/

theorem leads_of_look (mem : u ∈ (table.look fixed visited t).1) : table.Leads fixed t u := by
  unfold look at mem
  split at mem
  · split at mem
    · cases mem
    · exact .member (mem_reverse.mp mem)
  · split at mem
    · cases mem
    · next followed =>
      cases mem_singleton.mp mem
      exact .element
        (.element fun isFixed => by simpa [isFixed, Option.ne_none_iff_isSome] using followed)
  · cases mem

/-- What a type leads to is put on the stack, unless it is a member of a visited struct. -/
theorem look_covers (visited : List NodeId) (leads : table.Leads fixed t u) :
    u ∈ (table.look fixed visited t).1 ∨ ∃ id ∈ visited, u ∈ table.members id := by
  cases leads with
  | element step =>
    cases step with
    | element allowed =>
      refine .inl ?_
      rw [look, if_neg]
      · exact mem_singleton_self u
      · cases fixed with
        | false => simp
        | true => simp [Option.isSome_iff_ne_none.mp (allowed rfl)]
  | @member id name place _ mem =>
    rw [look]
    split
    · next known => exact .inr ⟨id, known, mem⟩
    · exact .inl (mem_reverse.mpr mem)

/-- The members of a struct that is visited now are put on the stack. -/
theorem look_visits (mem : id ∈ (table.look fixed visited t).2) :
    id ∈ visited ∨ table.members id ⊆ (table.look fixed visited t).1 := by
  unfold look at mem ⊢
  split at mem
  · split at mem
    · exact .inl mem
    · next new =>
      rcases mem_cons.mp mem with rfl | known
      · exact .inr fun member inside => by rwa [if_neg new, mem_reverse]
      · exact .inl known
  · split at mem <;> exact .inl mem
  · exact .inl mem

/-! ## The whole search -/

theorem found_of_search (run : table.searchWithin goal fixed steps pending visited = some true) :
    ∃ t ∈ pending, ∃ u, ReflTransGen (table.Leads fixed) t u ∧ goal u = true := by
  fun_induction searchWithin table goal fixed steps pending visited with
  | case1 | case2 => cases run
  | case3 steps t pending visited found => exact ⟨t, mem_cons_self, t, .refl, found⟩
  | case4 steps t pending visited missed next ih =>
    obtain ⟨s, mem, u, path, found⟩ := ih run
    rcases mem_append.mp mem with isNew | isOld
    · exact ⟨t, mem_cons_self, u, path.head (leads_of_look isNew), found⟩
    · exact ⟨s, mem_cons_of_mem t isOld, u, path, found⟩

/-- If the search ends with nothing found, then no type that was looked at is what it looks for, and
what they lead to was looked at as well, or belongs to a struct that was visited before. -/
theorem closed_of_search (run : table.searchWithin goal fixed steps pending visited = some false) :
    ∃ done : List Ty, pending ⊆ done ∧ (∀ t ∈ done, goal t = false) ∧
      ∀ t ∈ done, ∀ u, table.Leads fixed t u → u ∈ done ∨ ∃ id ∈ visited, u ∈ table.members id := by
  fun_induction searchWithin table goal fixed steps pending visited with
  | case1 | case3 => cases run
  | case2 => exact ⟨[], nil_subset _, forall_mem_nil _, forall_mem_nil _⟩
  | case4 steps t pending visited missed next ih =>
    obtain ⟨done, inside, none, closed⟩ := ih run
    obtain ⟨insideAdded, insidePending⟩ := append_subset.mp inside
    refine ⟨t :: done, cons_subset_cons t insidePending,
      forall_mem_cons.mpr ⟨by simpa using missed, none⟩,
      forall_mem_cons.mpr ⟨fun u leads => ?_, fun s mem u leads => ?_⟩⟩
    · rcases look_covers visited leads with isNew | known
      · exact .inl (mem_cons_of_mem t (insideAdded isNew))
      · exact .inr known
    · rcases closed s mem u leads with isDone | ⟨id, isVisited, inMembers⟩
      · exact .inl (mem_cons_of_mem t isDone)
      · rcases look_visits isVisited with known | onStack
        · exact .inr ⟨id, known, inMembers⟩
        · exact .inl (mem_cons_of_mem t (insideAdded (onStack inMembers)))

/-! ## Coming to an end -/

/-- How many structs of the table have not been visited. -/
def unvisited (table : StructTable) (visited : List NodeId) : Nat :=
  (table.ids.filter (· ∉ visited)).length

/-- With a struct that has members, one more of the table is visited. -/
theorem unvisited_lt {member : Ty} (new : id ∉ visited) (mem : member ∈ table.members id) :
    table.unvisited (id :: visited) < table.unvisited visited := by
  have fewer : table.ids.filter (· ∉ id :: visited) =
      (table.ids.filter (· ∉ visited)).filter (· ≠ id) := by
    rw [filter_filter]
    exact filter_congr fun other _ => by simp
  rw [unvisited, unvisited, fewer, length_filter_lt_length_iff_exists]
  exact ⟨id, mem_filter.mpr ⟨mem_ids (ne_nil_of_mem mem), decide_eq_true new⟩, by simp⟩

theorem unvisited_le (table : StructTable) (visited : List NodeId) (id : NodeId) :
    table.unvisited (id :: visited) ≤ table.unvisited visited := by
  refine (List.monotone_filter_right table.ids fun other => ?_).length_le
  simp +contextual

theorem exists_comesTo_cons
    (next : ∃ answer, ComesTo (fun steps => table.searchWithin goal fixed steps
      ((table.look fixed visited t).1 ++ pending) (table.look fixed visited t).2) answer) :
    ∃ answer, ComesTo (table.searchWithin goal fixed · (t :: pending) visited) answer := by
  cases found : goal t with
  | true => exact ⟨true, .at_once fun more => if_pos found⟩
  | false =>
    obtain ⟨answer, comes⟩ := next
    exact ⟨answer, comes.step fun more => if_neg (Bool.eq_false_iff.mp found)⟩

/-- The search comes to an end. The induction is on the structs of the table that have not been
visited, then on the stack, and at last on the layers of arrays around the type on top. -/
theorem exists_comesTo (table : StructTable) (goal : Ty → Bool) (fixed : Bool) (pending : List Ty)
    (visited : List NodeId) :
    ∃ answer, ComesTo (table.searchWithin goal fixed · pending visited) answer := by
  induction count : table.unvisited visited using Nat.strong_induction_on
    generalizing pending visited with
  | _ n fewer =>
    induction pending generalizing visited with
    | nil => exact ⟨false, .at_once fun _ => rfl⟩
    | cons t pending ih =>
      fun_induction Ty.leaf t with
      | case1 element length place inner =>
        refine exists_comesTo_cons ?_
        rw [look]
        split
        · exact ih visited count
        · exact inner
      | case2 t noArray =>
        refine exists_comesTo_cons ?_
        cases t with
        | array => exact absurd rfl (noArray _ _ _)
        | struct id name place =>
          rw [look]
          split
          · exact ih visited count
          · next new =>
            rcases Nat.lt_or_eq_of_le (table.unvisited_le visited id) with less | same
            · exact fewer _ (count ▸ less) _ _ rfl
            · -- A struct outside of the table has no members.
              have none : table.members id = [] := eq_nil_iff_forall_not_mem.mpr fun member mem =>
                absurd same (unvisited_lt new mem).ne
              rw [none]
              exact ih _ (same.trans count)
        | _ => exact ih visited count

/-- A search is exact. -/
theorem search_exact {start : List Ty} {answer : Bool} (exact : answer = true ↔
      ∃ t ∈ start, ∃ u, ReflTransGen (table.Leads fixed) t u ∧ goal u = true) :
    ComesTo (table.searchWithin goal fixed · start []) answer := by
  obtain ⟨found, bound, ends⟩ := table.exists_comesTo goal fixed start []
  have run := ends bound (Nat.le_refl bound)
  have same : found = answer := by
    cases found with
    | true => exact (exact.mpr (found_of_search run)).symm
    | false =>
      refine (Bool.eq_false_iff.mpr fun isFound => ?_).symm
      obtain ⟨t, mem, u, path, isGoal⟩ := exact.mp isFound
      obtain ⟨done, inside, none, closed⟩ := closed_of_search run
      have isDone : u ∈ done := by
        clear isGoal
        induction path with
        | refl => exact inside mem
        | tail _ leads ih => exact (closed _ ih _ leads).resolve_right (by simp)
      rw [none u isDone] at isGoal
      cases isGoal
  exact same ▸ ⟨bound, ends⟩

/-! ## Three searches -/

theorem leads_of_through (path : ReflTransGen (HasElement fixed) t u) :
    ReflTransGen (table.Leads fixed) t u :=
  ReflTransGen.mono (fun _ _ => .element) _ _ path

/-- A type leads to a struct through its elements, or through a struct that nests it. -/
theorem nests_of_leads {name : String} {place : Place}
    (path : ReflTransGen (table.Leads fixed) t (.struct id name place)) :
    (∃ name place, ReflTransGen (HasElement fixed) t (.struct id name place)) ∨
      ∃ outer name place, ReflTransGen (HasElement fixed) t (.struct outer name place) ∧
        TransGen (table.Nests fixed) outer id := by
  induction path using ReflTransGen.head_induction_on with
  | refl => exact .inl ⟨name, place, .refl⟩
  | head leads _ ih =>
    cases leads with
    | element step =>
      rcases ih with ⟨name, place, through⟩ | ⟨outer, name, place, through, nests⟩
      · exact .inl ⟨name, place, through.head step⟩
      · exact .inr ⟨outer, name, place, through.head step, nests⟩
    | member mem =>
      refine .inr ⟨_, _, _, .refl, ?_⟩
      rcases ih with ⟨name, place, through⟩ | ⟨outer, name, place, through, nests⟩
      · exact .single ⟨_, mem, name, place, through⟩
      · exact nests.head ⟨_, mem, name, place, through⟩

/-- The members of a struct lead to what it nests in one or more steps. -/
theorem leads_iff_nests {outer inner : NodeId} :
    (∃ member ∈ table.members outer, ∃ name place,
      ReflTransGen (table.Leads fixed) member (.struct inner name place)) ↔
      TransGen (table.Nests fixed) outer inner := by
  constructor
  · rintro ⟨member, mem, name, place, path⟩
    rcases nests_of_leads path with ⟨name, place, through⟩ | ⟨next, name, place, through, nests⟩
    · exact .single ⟨member, mem, name, place, through⟩
    · exact nests.head ⟨member, mem, name, place, through⟩
  · intro nests
    induction nests with
    | single nests =>
      obtain ⟨member, mem, name, place, through⟩ := nests
      exact ⟨member, mem, name, place, leads_of_through through⟩
    | tail _ nests ih =>
      obtain ⟨first, mem, _, _, path⟩ := ih
      obtain ⟨member, inMembers, name, place, through⟩ := nests
      exact ⟨first, mem, name, place,
        path.trans ((leads_of_through through).head (.member inMembers))⟩

theorem leads_false : table.Leads false = table.Inside := by
  ext t u
  constructor
  · rintro (⟨⟨⟩⟩ | mem)
    · exact .element
    · exact .member mem
  · rintro (_ | mem)
    · exact .element (.element nofun)
    · exact .member mem

theorem recursion_search {answer : Bool}
    (exact : answer = true ↔ TransGen (table.Nests fixed) id id) :
    ComesTo (table.recursiveWithin fixed id) answer := by
  refine search_exact (exact.trans (leads_iff_nests.symm.trans ?_))
  simp only [isStruct_iff, mem_reverse]
  constructor
  · rintro ⟨member, mem, name, place, path⟩
    exact ⟨member, mem, _, path, name, place, rfl⟩
  · rintro ⟨member, mem, _, path, name, place, rfl⟩
    exact ⟨member, mem, name, place, path⟩

theorem containsMapping_iff : table.containsMapping t = true ↔
    ∃ key value, ReflTransGen table.Inside t (.mapping key value) := by
  rw [containsMapping, List.any_eq_true]
  constructor
  · rintro ⟨part, mem, found⟩
    have through := Ty.through_leaf part
    split at found
    · next key value isMapping =>
        exact ⟨key, value, inside_iff.mpr ⟨part, mem, isMapping ▸ through⟩⟩
    · cases found
  · rintro ⟨key, value, path⟩
    obtain ⟨part, mem, through⟩ := inside_iff.mp path
    refine ⟨part, mem, ?_⟩
    rw [Ty.leaf_eq_of_through through]
    rfl

/-- **Searches through structs.** Whatever the table, a struct is found to contain itself exactly if
one or more steps lead from it to itself, each from a struct to one that a member has, itself or as
an element of arrays; its size is found to be infinite exactly if such steps lead through arrays of
fixed length only; and a mapping is found exactly if there is one inside the type. The searches with
a stack of types and a set of visited structs come to an end with the same answers. -/
theorem struct_searches_exact (table : StructTable) (id : NodeId) (t : Ty) :
    (table.isRecursive id = true ↔ TransGen (table.Nests false) id id) ∧
    (table.hasInfiniteSize id = true ↔ TransGen (table.Nests true) id id) ∧
    (table.containsMapping t = true ↔
      ∃ key value, ReflTransGen table.Inside t (.mapping key value)) ∧
    ComesTo (table.recursiveWithin false id) (table.isRecursive id) ∧
    ComesTo (table.recursiveWithin true id) (table.hasInfiniteSize id) ∧
    ComesTo (table.searchWithin isMapping false · [t] []) (table.containsMapping t) := by
  refine ⟨isRecursive_iff_nests, hasInfiniteSize_iff_nests, containsMapping_iff,
    recursion_search isRecursive_iff_nests, recursion_search hasInfiniteSize_iff_nests,
    search_exact (containsMapping_iff.trans ?_)⟩
  simp only [leads_false, mem_singleton, exists_eq_left, isMapping_iff]
  constructor
  · rintro ⟨key, value, path⟩
    exact ⟨_, path, key, value, rfl⟩
  · rintro ⟨_, path, key, value, rfl⟩
    exact ⟨key, value, path⟩

end StructTable

end ContractTyping
