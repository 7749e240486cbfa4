import ContractTyping.Proofs.Document.Statement

/-!
# Reading what was written: source units

Declarations and whole units are read without a bound of their own. Reading the document that was
written for a unit gives the unit, so that writing loses nothing and a document that was read and
written once is in normal form (`SourceUnit.import_export`).
-/

namespace ContractTyping

open List Json

/-! ## Lists and slots -/

@[simp]
theorem asList?_vars (vars : List Variable) :
    asList? Variable.ofJson? (.ofList Variable.toJson vars) = some vars :=
  asList?_ofList fun v _ => v.ofJson?_toJson

@[simp]
theorem asOption?_block (body : Option Block) :
    asOption? Block.ofJson? (.ofOption Block.toJson body) = some body :=
  asOption?_ofOption rfl fun b _ => b.ofJson?_toJson

@[simp]
theorem asOption?_typeName (typeName : Option TypeName) :
    asOption? TypeName.ofJson? (.ofOption TypeName.toJson typeName) = some typeName :=
  asOption?_ofOption rfl fun t _ => t.ofJson?_toJson

@[simp]
theorem asOption?_arguments (arguments : Option (List Expr)) :
    asOption? (asList? Expr.ofJson?) (argumentsToJson arguments) = some arguments :=
  asOption?_ofOption rfl fun _ _ => asList?_ofList fun e _ => e.ofJson?_toJson

/-! ## Declarations -/

theorem BaseSpecifier.ofJson?_toJson (b : BaseSpecifier) :
    BaseSpecifier.ofJson? b.toJson = some b := by
  rw [ofJson?, toJson]
  refine Node.bind_record? _ (by simp [Node.Distinct]) fun r holds => ?_
  have gives := holds.gives
  simp only [Record.Gives, forall_mem_cons] at gives
  simp [holds.node, gives]

theorem ModifierCall.ofJson?_toJson (m : ModifierCall) :
    ModifierCall.ofJson? m.toJson = some m := by
  rw [ofJson?, toJson]
  refine Node.bind_record? _ (by simp [Node.Distinct]) fun r holds => ?_
  have gives := holds.gives
  simp only [Record.Gives, forall_mem_cons] at gives
  simp [holds.node, gives]

variable {r : Record}

theorem Function.ofRecord?_eq {f : Function} (holds : r.Holds f.node f.jsonFields) :
    Function.ofRecord? r = some f := by
  have gives := holds.gives
  have modifiers : asList? ModifierCall.ofJson? (.ofList ModifierCall.toJson f.modifiers) =
      some f.modifiers := asList?_ofList fun m _ => m.ofJson?_toJson
  simp only [Record.Gives, jsonFields, forall_mem_cons] at gives
  simp [ofRecord?, holds.node, gives, modifiers]

theorem Modifier.ofRecord?_eq {m : Modifier} (holds : r.Holds m.node m.jsonFields) :
    Modifier.ofRecord? r = some m := by
  have gives := holds.gives
  simp only [Record.Gives, jsonFields, forall_mem_cons] at gives
  simp [ofRecord?, holds.node, gives]

theorem Event.ofRecord?_eq {e : Event} (holds : r.Holds e.node e.jsonFields) :
    Event.ofRecord? r = some e := by
  have gives := holds.gives
  simp only [Record.Gives, jsonFields, forall_mem_cons] at gives
  simp [ofRecord?, holds.node, gives]

theorem Message.ofRecord?_eq {m : Message} (holds : r.Holds m.node m.jsonFields) :
    Message.ofRecord? r = some m := by
  have gives := holds.gives
  simp only [Record.Gives, jsonFields, forall_mem_cons] at gives
  simp [ofRecord?, holds.node, gives]

theorem StructDef.ofRecord?_eq {s : StructDef} (holds : r.Holds s.node s.jsonFields) :
    StructDef.ofRecord? r = some s := by
  have gives := holds.gives
  simp only [Record.Gives, jsonFields, forall_mem_cons] at gives
  simp [ofRecord?, holds.node, gives]

theorem UsingFor.ofRecord?_eq {u : UsingFor} (holds : r.Holds u.node u.jsonFields) :
    UsingFor.ofRecord? r = some u := by
  have gives := holds.gives
  simp only [Record.Gives, jsonFields, forall_mem_cons] at gives
  simp [ofRecord?, holds.node, gives]

theorem Variable.ofRecord?_eq {v : Variable} (holds : r.Holds v.traits.node v.jsonFields) :
    Variable.ofRecord? r = some v := by
  obtain ⟨depth, equal⟩ := Nat.exists_eq_add_of_le' (two_le_readingDepth (.object r.fields))
  have positive : r.readingDepth = depth + 2 := equal
  rw [ofRecord?, positive]
  refine (restores (depth + 1)).varRecord holds fun field mem => ?_
  have inside := Record.readingDepth_find? (holds.gives field mem)
  omega

theorem ContractPart.ofJson?_toJson (part : ContractPart) :
    ContractPart.ofJson? part.toJson = some part := by
  rw [ofJson?]
  cases part with
  | function f =>
    refine Node.bind_part? rfl (by simp [Node.Distinct, Function.jsonFields]) fun r holds => ?_
    simp [Function.ofRecord?_eq holds]
  | stateVariable v =>
    refine Node.bind_part? rfl (Restores.variableFields_distinct v) fun r holds => ?_
    simp [Variable.ofRecord?_eq holds]
  | event e =>
    refine Node.bind_part? rfl (by simp [Node.Distinct, Event.jsonFields]) fun r holds => ?_
    simp [Event.ofRecord?_eq holds]
  | message m =>
    refine Node.bind_part? rfl (by simp [Node.Distinct, Message.jsonFields]) fun r holds => ?_
    simp [Message.ofRecord?_eq holds]
  | modifier m =>
    refine Node.bind_part? rfl (by simp [Node.Distinct, Modifier.jsonFields]) fun r holds => ?_
    simp [Modifier.ofRecord?_eq holds]
  | struct s =>
    refine Node.bind_part? rfl (by simp [Node.Distinct, StructDef.jsonFields]) fun r holds => ?_
    simp [StructDef.ofRecord?_eq holds]
  | usingFor u =>
    refine Node.bind_part? rfl (by simp [Node.Distinct, UsingFor.jsonFields]) fun r holds => ?_
    simp [UsingFor.ofRecord?_eq holds]

theorem Contract.ofRecord?_eq {c : Contract} (holds : r.Holds c.node c.jsonFields) :
    Contract.ofRecord? r = some c := by
  have gives := holds.gives
  have bases : asList? BaseSpecifier.ofJson? (.ofList BaseSpecifier.toJson c.bases) =
      some c.bases := asList?_ofList fun b _ => b.ofJson?_toJson
  have parts : asList? ContractPart.ofJson? (.ofList ContractPart.toJson c.parts) = some c.parts :=
    asList?_ofList fun part _ => part.ofJson?_toJson
  simp only [Record.Gives, jsonFields, forall_mem_cons] at gives
  simp [ofRecord?, holds.node, gives, bases, parts]

theorem UnitPart.ofJson?_toJson (part : UnitPart) : UnitPart.ofJson? part.toJson = some part := by
  rw [ofJson?]
  cases part with
  | contract c =>
    refine Node.bind_part? rfl (by simp [Node.Distinct, Contract.jsonFields]) fun r holds => ?_
    simp [Contract.ofRecord?_eq holds]
  | struct s =>
    refine Node.bind_part? rfl (by simp [Node.Distinct, StructDef.jsonFields]) fun r holds => ?_
    simp [StructDef.ofRecord?_eq holds]
  | function f =>
    refine Node.bind_part? rfl (by simp [Node.Distinct, Function.jsonFields]) fun r holds => ?_
    simp [Function.ofRecord?_eq holds]
  | usingFor u =>
    refine Node.bind_part? rfl (by simp [Node.Distinct, UsingFor.jsonFields]) fun r holds => ?_
    simp [UsingFor.ofRecord?_eq holds]

namespace SourceUnit

/-- A unit is read back from the document that was written for it. -/
theorem ofJson?_toJson (unit : SourceUnit) : SourceUnit.ofJson? unit.toJson = some unit := by
  rw [ofJson?, toJson]
  refine Node.bind_record? _ (by simp [Node.Distinct]) fun r holds => ?_
  have gives := holds.gives
  have parts : asList? UnitPart.ofJson? (.ofList UnitPart.toJson unit.parts) = some unit.parts :=
    asList?_ofList fun part _ => part.ofJson?_toJson
  have coder : asOption? Vocabulary.ofJson? (.ofOption Vocabulary.toJson unit.abiCoder) =
      some unit.abiCoder := asOption?_ofOption rfl fun a _ => Vocabulary.ofJson?_toJson a
  simp only [Record.Gives, forall_mem_cons] at gives
  simp [holds.node, gives, parts, coder]

/-- A document that is read and written again. -/
def normalize? (document : Json) : Option Json := (SourceUnit.ofJson? document).map toJson

/-- **Reading undoes writing.** Whatever the unit, its document is read, and gives the unit back. So
a document that can be read has a normal form, which is read as the same unit and is its own normal
form. -/
theorem import_export :
    (∀ unit : SourceUnit, SourceUnit.ofJson? unit.toJson = some unit) ∧
    (∀ document, (normalize? document).bind normalize? = normalize? document) ∧
    ∀ document unit, SourceUnit.ofJson? document = some unit →
      ∃ normal, normalize? document = some normal ∧ SourceUnit.ofJson? normal = some unit := by
  refine ⟨ofJson?_toJson, fun document => ?_, fun document unit read => ?_⟩
  · unfold normalize?
    cases SourceUnit.ofJson? document with
    | none => rfl
    | some unit => rw [Option.map_some, Option.bind_some, ofJson?_toJson, Option.map_some]
  · exact ⟨unit.toJson, by rw [normalize?, read, Option.map_some], unit.ofJson?_toJson⟩

end SourceUnit

end ContractTyping
