import ContractTyping.Proofs.Effect.Basic
import Mathlib.Data.Finset.Card

/-!
# Types that are recorded again

A node is meant to get one type as an expression and one as a variable. A second type is a fault,
but by then it has been recorded: the test and the change are one step. So a node has the last type
that was given to it, and not the first (`rejected_type_replaces`). Which calls end in a fault, that
the two tables do not influence each other, and how many nodes there are, is as one would expect
(`last_type_recorded`).
-/

namespace ContractTyping

open List TypeTable

namespace TypeTable

variable {table : TypeTable} {id : NodeId} {t : Ty}

/-- Whether the nodes of a table ascend. -/
def Ascending (table : TypeTable) : Prop :=
  table.Pairwise fun entry later => entry.1.value < later.1.value

theorem Ascending.insert (ascending : Ascending table) (id : NodeId) (t : Ty) :
    (insert id t table).Ascending := by
  induction table with
  | nil => exact pairwise_singleton _ _
  | cons entry rest ih =>
    obtain ⟨other, old⟩ := entry
    obtain ⟨above, others⟩ := pairwise_cons.mp ascending
    unfold TypeTable.insert
    split
    · next below =>
      refine pairwise_cons.mpr ⟨forall_mem_cons.mpr ⟨below, fun entry mem => ?_⟩, ascending⟩
      exact Int64.lt_trans below (above entry mem)
    · next notBelow =>
      split
      · next same => exact pairwise_cons.mpr ⟨same ▸ above, others⟩
      · next differs =>
        refine pairwise_cons.mpr ⟨fun entry mem => ?_, ih others⟩
        rcases eq_or_mem_of_mem_insert mem with rfl | inRest
        · have values : other.value ≠ id.value :=
            fun same => differs (by cases id; cases other; cases same; rfl)
          exact Int64.lt_of_le_of_ne (Int64.not_lt.mp notBelow) values
        · exact above entry inRest

/-- A node below the first one of a table is not in it. -/
theorem get?_eq_none_of_lt {other : NodeId} {old : Ty} {rest : TypeTable}
    (ascending : Ascending ((other, old) :: rest)) (below : id.value < other.value) :
    get? ((other, old) :: rest) id = none := by
  refine Option.eq_none_iff_forall_ne_some.mpr fun t found => ?_
  rcases mem_cons.mp (mem_of_get? found) with same | inRest
  · cases same
    exact Int64.lt_irrefl below
  · exact Int64.lt_irrefl (Int64.lt_trans below ((pairwise_cons.mp ascending).1 _ inRest))

/-- Setting the type of a node changes nothing exactly if the node has that type. -/
theorem insert_eq_self_iff (ascending : Ascending table) :
    insert id t table = table ↔ table.get? id = some t := by
  refine ⟨fun same => ?_, fun found => ?_⟩
  · rw [← same, get?_insert, if_pos rfl]
  · induction table with
    | nil => cases found
    | cons entry rest ih =>
      unfold insert
      split
      · next below =>
        rw [get?_eq_none_of_lt ascending below] at found
        cases found
      · rw [get?_cons] at found
        split
        · next same =>
          rw [if_pos same] at found
          cases found
          rw [same]
        · next differs =>
          rw [if_neg differs] at found
          rw [ih (pairwise_cons.mp ascending).2 found]

/-- A table gets longer by the nodes that are new to it. -/
theorem length_insert (ascending : Ascending table) :
    (insert id t table).length = if (table.get? id).isSome then table.length
      else table.length + 1 := by
  induction table with
  | nil => rfl
  | cons entry rest ih =>
    unfold insert
    split
    · next below =>
      rw [get?_eq_none_of_lt ascending below]
      rfl
    · rw [get?_cons]
      split
      · rfl
      · rw [length_cons, ih (pairwise_cons.mp ascending).2]
        split <;> rfl

/-! ## Several types in order -/

theorem insertAll_snoc (table : TypeTable) (entries : List (NodeId × Ty)) (entry : NodeId × Ty) :
    table.insertAll (entries ++ [entry]) = (table.insertAll entries).insert entry.1 entry.2 :=
  insertAll_append table entries [entry]

variable (entries : List (NodeId × Ty))

include entries

theorem ascending_insertAll : (insertAll [] entries).Ascending := by
  induction entries using reverseRecOn with
  | nil => exact .nil
  | append_singleton entries entry ih =>
    rw [insertAll_snoc]
    exact ih.insert _ _

/-- A node has the last type that was set for it. -/
theorem get?_insertAll_eq (id : NodeId) :
    (insertAll [] entries).get? id = ((entries.filter (·.1 = id)).map Prod.snd).getLast? := by
  induction entries using reverseRecOn with
  | nil => rfl
  | append_singleton entries entry ih =>
    rw [insertAll_snoc, get?_insert, filter_append, map_append]
    by_cases same : entry.1 = id
    · rw [if_pos same.symm, filter_cons_of_pos (by simpa using same)]
      exact (getLast?_concat ..).symm
    · rw [if_neg (Ne.symm same), filter_cons_of_neg (by simpa using same), ih]
      exact congrArg _ (append_nil _).symm

theorem length_insertAll :
    (insertAll [] entries).length = (entries.map Prod.fst).toFinset.card := by
  induction entries using reverseRecOn with
  | nil => rfl
  | append_singleton entries entry ih =>
    have known : ((insertAll [] entries).get? entry.1).isSome ↔
        entry.1 ∈ (entries.map Prod.fst).toFinset := by
      rw [isSome_get?_insertAll, mem_toFinset]
      exact or_iff_left Bool.false_ne_true
    have added : ((entries ++ [entry]).map Prod.fst).toFinset = Insert.insert entry.1
        (entries.map Prod.fst).toFinset := by
      ext id
      simp
    rw [insertAll_snoc, length_insert (ascending_insertAll entries), added,
      Finset.card_insert_eq_ite, ih]
    exact if_congr known rfl rfl

end TypeTable

namespace Annotations

/-- What a type is recorded for. -/
inductive Kind
  | expression
  | var
deriving DecidableEq

/-- A type that is to be recorded for a node. -/
structure Entry where
  kind : Kind
  id : NodeId
  type : Ty

/-- The types recorded for expressions, or those for variables. -/
def table (a : Annotations) : Kind → TypeTable
  | .expression => a.expressions
  | .var => a.vars

/-- Records a type, with the fault if the node had one. -/
def write (a : Annotations) (entry : Entry) : Annotations × Option Fault :=
  match entry.kind with
  | .expression => a.annotateExpression entry.id entry.type
  | .var => a.annotateVariable entry.id entry.type

/-- What is recorded after the given calls, whether they end in a fault or not. -/
def after (entries : List Entry) : Annotations :=
  entries.foldl (fun a entry => (a.write entry).1) {}

/-- The calls for expressions, or those for variables. -/
def ofKind (kind : Kind) (entries : List Entry) : List Entry := entries.filter (·.kind = kind)

/-- The types given to a node, in order. -/
def written (kind : Kind) (id : NodeId) (entries : List Entry) : List Ty :=
  ((ofKind kind entries).filter (·.id = id)).map Entry.type

variable {a : Annotations} {entry : Entry} {entries : List Entry} {kind : Kind} {id : NodeId}

theorem table_write : (a.write entry).1.table kind =
    if entry.kind = kind then (a.table kind).insert entry.id entry.type else a.table kind := by
  obtain ⟨_ | _, id, t⟩ := entry <;> cases kind <;> rfl

theorem write_fault : (a.write entry).2 =
    if ((a.table entry.kind).get? entry.id).isSome then some (.typedTwice entry.id) else none := by
  obtain ⟨_ | _, id, t⟩ := entry <;> rfl

theorem eq_of_table {b : Annotations} (same : ∀ kind, a.table kind = b.table kind) : a = b := by
  obtain ⟨expressions, vars⟩ := a
  cases same .expression
  cases same .var
  rfl

/-- A table takes the calls of its kind in order. -/
theorem table_after (kind : Kind) (entries : List Entry) :
    (after entries).table kind = insertAll []
      ((ofKind kind entries).map fun e => (e.id, e.type)) := by
  induction entries using reverseRecOn with
  | nil => cases kind <;> rfl
  | append_singleton entries entry ih =>
    have last : after (entries ++ [entry]) = ((after entries).write entry).1 := foldl_append
    rw [last, table_write, ofKind, filter_append, map_append]
    by_cases same : entry.kind = kind
    · rw [if_pos same, filter_cons_of_pos (by simpa using same), ih]
      exact (insertAll_snoc _ _ (entry.id, entry.type)).symm
    · rw [if_neg same, filter_cons_of_neg (by simpa using same), ih]
      exact congrArg _ (append_nil _).symm

theorem get?_table_after (kind : Kind) (id : NodeId) (entries : List Entry) :
    ((after entries).table kind).get? id = (written kind id entries).getLast? := by
  rw [table_after, get?_insertAll_eq, filter_map, map_map]
  rfl

theorem length_table_after (kind : Kind) (entries : List Entry) :
    ((after entries).table kind).length = ((ofKind kind entries).map Entry.id).toFinset.card := by
  rw [table_after, length_insertAll, map_map]
  rfl

/-- **Types that are given to nodes, one after the other.** A call ends in a fault exactly if its
node was given a type of the same kind before. A node has the last type given to it, so that a call
leaves everything as it was exactly if it repeats that type. The types of expressions are those that
the calls for expressions alone would leave, and so are those of variables. The size is the number
of different nodes among the calls for expressions, and among those for variables. -/
theorem last_type_recorded (entries : List Entry) (entry : Entry) :
    (((after entries).write entry).2 =
      if written entry.kind entry.id entries = [] then none else some (.typedTwice entry.id)) ∧
    (∀ kind id, ((after entries).table kind).get? id = (written kind id entries).getLast?) ∧
    (((after entries).write entry).1 = after entries ↔
      (written entry.kind entry.id entries).getLast? = some entry.type) ∧
    (∀ kind, (after entries).table kind = (after (ofKind kind entries)).table kind) ∧
    (after entries).size = ((ofKind .expression entries).map Entry.id).toFinset.card +
      ((ofKind .var entries).map Entry.id).toFinset.card := by
  have ascending (kind : Kind) : ((after entries).table kind).Ascending := by
    rw [table_after]
    exact TypeTable.ascending_insertAll _
  refine ⟨?_, fun kind id => get?_table_after kind id entries, ?_, fun kind => ?_, ?_⟩
  · rw [write_fault, get?_table_after]
    cases types : written entry.kind entry.id entries with
    | nil => rfl
    | cons t rest =>
      rw [List.getLast?_cons, if_neg (List.cons_ne_nil _ _)]
      rfl
  · rw [← get?_table_after, ← TypeTable.insert_eq_self_iff (ascending _)]
    refine ⟨fun same => ?_, fun same => eq_of_table fun kind => ?_⟩
    · have table : ((after entries).write entry).1.table entry.kind = _ := table_write
      rwa [if_pos rfl, same, eq_comm] at table
    · rw [table_write]
      split
      · next ofKind => exact ofKind ▸ same
      · rfl
  · rw [table_after, table_after, ofKind, ofKind, List.filter_filter]
    simp only [Bool.and_self]
  · rw [← length_table_after, ← length_table_after]
    rfl

/-- A call that ends in a fault replaces the type of its node. -/
theorem rejected_type_replaces :
    (after [⟨.expression, ⟨5⟩, .bool⟩]).expression? ⟨5⟩ = some .bool ∧
    ((after [⟨.expression, ⟨5⟩, .bool⟩]).write ⟨.expression, ⟨5⟩, .uint256⟩).2 =
      some (.typedTwice ⟨5⟩) ∧
    ((after [⟨.expression, ⟨5⟩, .bool⟩]).write ⟨.expression, ⟨5⟩, .uint256⟩).1.expression? ⟨5⟩ =
      some .uint256 := by
  decide

end Annotations

end ContractTyping
