import ContractTyping.Proofs.Document.Expression

/-!
# Reading what was written: statements

Statements, blocks and clauses are read by one recursion over the steps that are left, like
expressions. The fields of a block stand in an object of their own or in that of a block statement,
so a block is read back from every record that gives them.

* `RestoresBody`: with the given number of steps, statements and clauses are read back, unless they
  are too deep.
* `restoresBody`: this holds for every number of steps.
-/

namespace ContractTyping

open Json

theorem statementSlotToJson_eq (slot : Option Statement) :
    statementSlotToJson slot = .ofOption Statement.toJson slot := by
  cases slot <;> rfl

theorem statementsToJson_eq (body : List Statement) :
    statementsToJson body = body.map Statement.toJson := by
  induction body with
  | nil => rfl
  | cons s rest ih => rw [statementsToJson, ih, List.map_cons]

theorem clausesToJson_eq (clauses : List CatchClause) :
    clausesToJson clauses = clauses.map CatchClause.toJson := by
  induction clauses with
  | nil => rfl
  | cons clause rest ih => rw [clausesToJson, ih, List.map_cons]

theorem Restores.varSlots {depth : Nat} (ih : Restores depth) {slots : List (Option Variable)}
    (enough : (ofList (ofOption Variable.toJson) slots).readingDepth ≤ depth) :
    asList? (asOption? (readVariable depth))
      (.ofList (ofOption Variable.toJson) slots) = some slots :=
  asList?_restored (fun _ inside => asOption?_restored ih.var (by cases depth <;> rfl) inside)
    enough

theorem Restores.parameters {depth : Nat} (ih : Restores depth) {slot : Option (List Variable)}
    (enough : (ofOption (ofList Variable.toJson) slot).readingDepth ≤ depth) :
    asOption? (asList? (readVariable depth))
      (.ofOption (ofList Variable.toJson) slot) = some slot :=
  asOption?_restored (fun _ inside => asList?_restored ih.var inside) rfl enough

/-! ## Steps -/

/-- Statements and clauses are read back with enough steps, unless they are too deep. -/
structure RestoresBody (depth : Nat) : Prop where
  statement : ∀ s : Statement, s.toJson.readingDepth ≤ depth → readStatement depth s.toJson = some s
  clause : ∀ clause : CatchClause, clause.toJson.readingDepth ≤ depth →
    readClause depth clause.toJson = some clause

namespace RestoresBody

variable {depth : Nat}

variable (ih : RestoresBody depth)

include ih

theorem statementSlot {slot : Option Statement}
    (enough : (ofOption Statement.toJson slot).readingDepth ≤ depth) :
    asOption? (readStatement depth) (.ofOption Statement.toJson slot) = some slot :=
  asOption?_restored ih.statement (by cases depth <;> rfl) enough

theorem statements {body : List Statement}
    (enough : (array (body.map Statement.toJson)).readingDepth ≤ depth) :
    asList? (readStatement depth) (.array (body.map Statement.toJson)) = some body :=
  asList?_restored ih.statement enough

theorem clauses {clauses : List CatchClause}
    (enough : (array (clauses.map CatchClause.toJson)).readingDepth ≤ depth) :
    asList? (readClause depth) (.array (clauses.map CatchClause.toJson)) = some clauses :=
  asList?_restored ih.clause enough

/-- A block is read back from any record that gives its fields. -/
theorem blockRecord {b : Block} {r : Record} (gives : r.Gives b.jsonFields)
    (inside : ∀ field ∈ b.jsonFields, field.2.readingDepth ≤ depth) :
    readBlockRecord (depth + 1) r = some b := by
  obtain ⟨node, body, unchecked⟩ := b
  rw [Block.jsonFields] at gives inside
  simp only [Record.Gives, List.forall_mem_cons, statementsToJson_eq] at gives inside
  rw [readBlockRecord]
  simp [gives, inside, ih.statements]

omit ih

theorem blockFields_distinct (b : Block) : Node.Distinct b.jsonFields := by
  obtain ⟨node, body, unchecked⟩ := b
  simp [Node.Distinct, Block.jsonFields]

variable (ih : RestoresBody depth)

include ih

/-- A block is read back from the object of its fields. -/
theorem block {b : Block} (enough : b.toJson.readingDepth ≤ depth + 2) :
    (b.toJson.record? blockFields).bind (readBlockRecord (depth + 1)) = some b := by
  have distinct : (b.jsonFields.map Prod.fst).Nodup :=
    (blockFields_distinct b).of_cons.of_cons.of_cons
  rw [Block.toJson, record?_object distinct]
  refine ih.blockRecord (Record.gives_of_nodup distinct) fun field mem => ?_
  have inside : field.2.readingDepth + 2 ≤ b.toJson.readingDepth := readingDepth_field mem
  omega

/-- A block statement is read in two steps, and any other in one. -/
theorem succ_statement (ih' : RestoresBody (depth + 1)) (s : Statement)
    (enough : s.toJson.readingDepth ≤ depth + 2) : readStatement (depth + 2) s.toJson = some s := by
  have parts := restores (depth + 1)
  rw [readStatement]
  cases s <;> rw [Statement.toJson] at enough ⊢
  case block node b =>
    refine Node.bind_node? rfl (blockFields_distinct b) fun r holds => ?_
    have read := ih.blockRecord holds.gives (Node.readingDepth_kindFields enough)
    simp [holds.node, read]
  all_goals
    have inside := Node.readingDepth_kindFields (Nat.le_succ_of_le enough)
    refine Node.bind_node? rfl (by simp [Node.Distinct]) fun r holds => ?_
    have gives := holds.gives
    simp only [Record.Gives, List.forall_mem_cons, statementSlotToJson_eq,
      clausesToJson_eq] at gives inside
    simp [holds.node, gives, inside,
      ih'.statement, ih'.statementSlot, ih'.clauses, parts.expr, parts.exprSlot, parts.varSlots]

theorem succ_clause (clause : CatchClause) (enough : clause.toJson.readingDepth ≤ depth + 2) :
    readClause (depth + 2) clause.toJson = some clause := by
  have parts := restores (depth + 1)
  obtain ⟨node, errorName, parameters, body⟩ := clause
  have inside := Node.readingDepth_fields (Nat.le_succ_of_le enough)
  rw [readClause]
  refine Node.bind_record? _ (by simp [Node.Distinct]) fun r holds => ?_
  have gives := holds.gives
  simp only [Record.Gives, List.forall_mem_cons] at gives inside
  have block : ((object body.jsonFields).record? blockFields).bind (readBlockRecord (depth + 1)) =
      some body := ih.block (Nat.le_succ_of_le inside.2.2.1)
  simp [holds.node, gives, inside, block, parts.parameters]

end RestoresBody

/-- However deep a document is, as many steps are enough to read the statements in it. -/
theorem restoresBody (depth : Nat) : RestoresBody depth := by
  induction depth using Nat.strongRecOn with
  | ind depth ih =>
    have positive : ∀ json : Json, json.readingDepth ≤ depth → 2 ≤ depth := fun json enough =>
      Nat.le_trans json.two_le_readingDepth enough
    match depth with
    | 0 | 1 =>
      constructor <;> intro x enough <;> have := positive _ enough <;> omega
    | depth + 2 =>
      have before := ih depth (by omega)
      exact ⟨before.succ_statement (ih (depth + 1) (by omega)), before.succ_clause⟩

theorem Block.ofJson?_toJson (b : Block) : Block.ofJson? b.toJson = some b := by
  obtain ⟨depth, equal⟩ := Nat.exists_eq_add_of_le' b.toJson.two_le_readingDepth
  rw [Block.ofJson?, equal]
  exact (restoresBody (depth + 1)).block (by omega)

end ContractTyping
