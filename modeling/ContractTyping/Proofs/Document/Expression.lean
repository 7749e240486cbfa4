import ContractTyping.Proofs.Document.Record

/-!
# Reading what was written: expressions, type names and variables

The three are read by one recursion over the steps that are left. The proof follows it: what is read
with so many steps is right as soon as everything inside, which has fewer steps, is.

* `Restores`: with the given number of steps, what was written is read back, unless it is too deep.
* `restores`: this holds for every number of steps, so that the depth of a document is enough.
-/

namespace ContractTyping

open List

open Json ContractTyping.Expr

@[simp]
theorem Path.ofJson?_toJson (p : Path) : Path.ofJson? p.toJson = some p := by
  rw [ofJson?, toJson]
  refine Node.bind_record? _ (by simp [Node.Distinct]) fun r holds => ?_
  have gives := holds.gives
  simp only [Record.Gives, forall_mem_cons] at gives
  simp [holds.node, gives]

/-! ## Lists and slots -/

theorem exprsToJson_eq (es : List Expr) : exprsToJson es = es.map toJson := by
  induction es with
  | nil => rfl
  | cons e rest ih => rw [exprsToJson, ih, map_cons]

theorem exprSlotToJson_eq (slot : Option Expr) : exprSlotToJson slot = .ofOption toJson slot := by
  cases slot <;> rfl

theorem exprSlotsToJson_eq (slots : List (Option Expr)) :
    exprSlotsToJson slots = slots.map (ofOption toJson) := by
  induction slots with
  | nil => rfl
  | cons slot rest ih => rw [exprSlotsToJson, ih, exprSlotToJson_eq, map_cons]

theorem typeNameSlotToJson_eq (slot : Option TypeName) :
    typeNameSlotToJson slot = .ofOption TypeName.toJson slot := by
  cases slot <;> rfl

theorem variablesToJson_eq (vars : List Variable) :
    variablesToJson vars = vars.map Variable.toJson := by
  induction vars with
  | nil => rfl
  | cons v rest ih => rw [variablesToJson, ih, map_cons, Variable.toJson]

/-! ## Steps -/

/-- What was written is read back with the given number of steps, unless it is too deep. -/
structure Restores (depth : Nat) : Prop where
  expr : ∀ e : Expr, e.toJson.readingDepth ≤ depth → readExpr depth e.toJson = some e
  typeName : ∀ t : TypeName, t.toJson.readingDepth ≤ depth → readTypeName depth t.toJson = some t
  var : ∀ v : Variable, v.toJson.readingDepth ≤ depth → readVariable depth v.toJson = some v

namespace Restores

variable {depth : Nat}

variable (ih : Restores depth)

include ih

theorem exprSlot {slot : Option Expr} (enough : (ofOption toJson slot).readingDepth ≤ depth) :
    asOption? (readExpr depth) (.ofOption toJson slot) = some slot :=
  asOption?_restored ih.expr (by cases depth <;> rfl) enough

theorem exprs {es : List Expr} (enough : (array (es.map toJson)).readingDepth ≤ depth) :
    asList? (readExpr depth) (.array (es.map toJson)) = some es :=
  asList?_restored ih.expr enough

theorem exprSlots {slots : List (Option Expr)}
    (enough : (array (slots.map (ofOption toJson))).readingDepth ≤ depth) :
    asList? (asOption? (readExpr depth)) (.array (slots.map (ofOption toJson))) = some slots :=
  asList?_restored (fun _ inside => ih.exprSlot inside) enough

theorem typeNameSlot {slot : Option TypeName}
    (enough : (ofOption TypeName.toJson slot).readingDepth ≤ depth) :
    asOption? (readTypeName depth) (.ofOption TypeName.toJson slot) = some slot :=
  asOption?_restored ih.typeName (by cases depth <;> rfl) enough

theorem vars {vars : List Variable}
    (enough : (array (vars.map Variable.toJson)).readingDepth ≤ depth) :
    asList? (readVariable depth) (.array (vars.map Variable.toJson)) = some vars :=
  asList?_restored ih.var enough

theorem succ_expr (e : Expr) (enough : e.toJson.readingDepth ≤ depth + 1) :
    readExpr (depth + 1) e.toJson = some e := by
  rw [readExpr]
  -- Every kind of expression goes the same way: its record gives its fields.
  cases e <;> rw [toJson] at enough ⊢
  all_goals
    have inside := Node.readingDepth_kindFields (Nat.le_succ_of_le enough)
    refine Node.bind_node? rfl (by simp [Node.Distinct]) fun r holds => ?_
    have gives := holds.gives
    simp only [Record.Gives, forall_mem_cons, exprsToJson_eq, exprSlotToJson_eq,
      exprSlotsToJson_eq] at gives inside
    simp [holds.node, gives, inside, ih.expr, ih.exprs, ih.exprSlot, ih.exprSlots, ih.typeName]

theorem succ_typeName (t : TypeName) (enough : t.toJson.readingDepth ≤ depth + 1) :
    readTypeName (depth + 1) t.toJson = some t := by
  rw [readTypeName]
  cases t <;> rw [TypeName.toJson] at enough ⊢
  all_goals
    have inside := Node.readingDepth_kindFields (Nat.le_succ_of_le enough)
    refine Node.bind_node? rfl (by simp [Node.Distinct]) fun r holds => ?_
    have gives := holds.gives
    simp only [Record.Gives, forall_mem_cons, exprSlotToJson_eq, variablesToJson_eq] at gives inside
    simp [holds.node, gives, inside, ih.typeName, ih.exprSlot, ih.vars]

/-- A variable is read back from any record that holds it. -/
theorem varRecord {v : Variable} {r : Record} (holds : r.Holds v.traits.node v.jsonFields)
    (inside : ∀ field ∈ v.jsonFields, field.2.readingDepth ≤ depth) :
    readVariableRecord (depth + 1) r = some v := by
  obtain ⟨traits, typeName, value⟩ := v
  have gives := holds.gives
  rw [Variable.jsonFields] at gives inside
  simp only [Record.Gives, forall_mem_cons, typeNameSlotToJson_eq,
    exprSlotToJson_eq] at gives inside
  rw [readVariableRecord]
  simp [holds.node, Variable.traits, gives, inside, ih.typeNameSlot, ih.exprSlot]

omit ih

theorem variableFields_distinct (v : Variable) : Node.Distinct v.jsonFields := by
  obtain ⟨traits, typeName, value⟩ := v
  simp [Node.Distinct, Variable.jsonFields]

theorem succ_var (ih : Restores depth) (v : Variable) (enough : v.toJson.readingDepth ≤ depth + 2) :
    readVariable (depth + 2) v.toJson = some v := by
  refine Node.bind_record? _ (variableFields_distinct v) fun r holds => ?_
  exact ih.varRecord holds (Node.readingDepth_fields enough)

end Restores

/-- However deep a document is, as many steps are enough to read it. -/
theorem restores (depth : Nat) : Restores depth := by
  induction depth using Nat.strongRecOn with
  | ind depth ih =>
    have positive : ∀ json : Json, json.readingDepth ≤ depth → 2 ≤ depth := fun json enough =>
      Nat.le_trans json.two_le_readingDepth enough
    match depth with
    | 0 | 1 =>
      constructor <;> intro x enough <;> have := positive _ enough <;> omega
    | depth + 2 =>
      -- A variable takes two steps, one of them for its record.
      have before := ih (depth + 1) (by omega)
      exact ⟨before.succ_expr, before.succ_typeName, (ih depth (by omega)).succ_var⟩

theorem Expr.ofJson?_toJson (e : Expr) : ofJson? e.toJson = some e :=
  (restores _).expr e (Nat.le_refl _)

theorem TypeName.ofJson?_toJson (t : TypeName) : TypeName.ofJson? t.toJson = some t :=
  (restores _).typeName t (Nat.le_refl _)

theorem Variable.ofJson?_toJson (v : Variable) : Variable.ofJson? v.toJson = some v :=
  (restores _).var v (Nat.le_refl _)

end ContractTyping
