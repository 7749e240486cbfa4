import ContractTyping.Proofs.Inventory

/-!
# What is declared

The declarations of a source unit are those of its inventory: everything that can be looked up
stands in it, under its own identity (`ofUnit_occurs`).
-/

namespace ContractTyping

open List Inventory

variable {f : Function} {part : ContractPart} {c : Contract}
variable {vars : List Variable} {v : Variable} {s : StructDef} {unit : SourceUnit} {u : UsingFor}

theorem variablesWithInner_append (vars more : List Variable) :
    variablesWithInner (vars ++ more) = variablesWithInner vars ++ variablesWithInner more := by
  induction vars with
  | nil => rfl
  | cons v rest ih => rw [cons_append, variablesWithInner, variablesWithInner, ih, append_assoc]

theorem mem_variablesWithInner : v ∈ variablesWithInner vars ↔ ∃ w ∈ vars, v ∈ w.withInner := by
  induction vars with
  | nil => simp [variablesWithInner]
  | cons w rest ih => simp [variablesWithInner, ih]

theorem Variable.self_mem_withInner (v : Variable) : v ∈ v.withInner := by
  obtain ⟨traits, typeName, value⟩ := v
  cases typeName <;> exact mem_cons_self

/-! ## Variables of statements -/

mutual

theorem Statement.vars_eq (s : Statement) : s.vars = variablesWithInner s.inventory.vars := by
  match s with
  | .block _ body => exact body.vars_eq
  | .ifElse _ _ yes none =>
    show yes.vars ++ [] = variablesWithInner ([] ++ (yes.inventory.vars ++ []))
    rw [yes.vars_eq, append_nil, append_nil, nil_append]
  | .ifElse _ _ yes (some no) =>
    show yes.vars ++ no.vars = variablesWithInner ([] ++ (yes.inventory.vars ++ no.inventory.vars))
    rw [yes.vars_eq, no.vars_eq, nil_append, variablesWithInner_append]
  | .whileLoop _ _ body _ => exact body.vars_eq
  | .forLoop _ none _ _ body => exact body.vars_eq
  | .forLoop _ (some initial) _ _ body =>
    show initial.vars ++ body.vars =
      variablesWithInner (initial.inventory.vars ++ ([] ++ ([] ++ body.inventory.vars)))
    rw [initial.vars_eq, body.vars_eq, variablesWithInner_append, nil_append, nil_append]
  | .declare _ vars _ =>
    show _ = variablesWithInner (vars.filterMap id ++ [])
    rw [Statement.vars, append_nil]
  | .tryCatch _ _ clauses => exact clausesVariables_eq clauses
  | .placeholder _ | .continueLoop _ | .breakLoop _ | .returnValue .. | .emit .. | .expression .. =>
    rfl

theorem Block.vars_eq (b : Block) : b.vars = variablesWithInner b.inventory.vars := by
  match b with
  | .mk _ body _ => exact statementsVariables_eq body

theorem statementsVariables_eq (body : List Statement) :
    statementsVariables body = variablesWithInner (statementsInventory body).vars := by
  match body with
  | [] => rfl
  | s :: rest =>
    show s.vars ++ statementsVariables rest = variablesWithInner
      (s.inventory.vars ++ (statementsInventory rest).vars)
    rw [s.vars_eq, statementsVariables_eq rest, variablesWithInner_append]

theorem clausesVariables_eq (clauses : List CatchClause) :
    clausesVariables clauses = variablesWithInner (clausesInventory clauses).vars := by
  match clauses with
  | [] => rfl
  | .mk _ _ parameters body :: rest =>
    show variablesWithInner (parameters.getD []) ++ body.vars ++ clausesVariables rest =
      variablesWithInner
        (parameters.getD [] ++ (body.inventory.vars ++ (clausesInventory rest).vars))
    rw [body.vars_eq, clausesVariables_eq rest, variablesWithInner_append,
      variablesWithInner_append, append_assoc]

end

theorem bodyVariables_eq (body : Option Block) :
    bodyVariables body = variablesWithInner (bodyInventory body).vars := by
  cases body with
  | none => rfl
  | some body => exact body.vars_eq

theorem modifierCalls_vars (calls : List ModifierCall) :
    (Inventory.all ModifierCall.inventory calls).vars = [] :=
  flatMap_eq_nil_iff.mpr fun _ _ => rfl

theorem Function.declarations_eq (f : Function) (scope : Option NodeId) :
    f.declarations scope = (f.id, ⟨.function f, scope⟩) ::
      variableDeclarations scope (variablesWithInner f.inventory.vars) := by
  have vars : f.inventory.vars = f.parameters ++ (f.returns ++
      ((Inventory.all ModifierCall.inventory f.modifiers).vars ++ (bodyInventory f.body).vars)) :=
      rfl
  rw [vars, modifierCalls_vars, nil_append, variablesWithInner_append, variablesWithInner_append,
    ← bodyVariables_eq, ← append_assoc]
  rfl

theorem Modifier.declared_eq (m : Modifier) :
    variablesWithInner m.parameters ++ bodyVariables m.body =
      variablesWithInner m.inventory.vars := by
  have vars : m.inventory.vars = m.parameters ++ (bodyInventory m.body).vars := rfl
  rw [vars, variablesWithInner_append, ← bodyVariables_eq]

/-! ## Declarations of a unit -/

namespace DeclaredItem

def id : DeclaredItem → NodeId
  | contract c => c.id
  | function f => f.id
  | modifier m => m.node.id
  | event e => e.node.id
  | message m => m.node.id
  | struct s => s.node.id
  | var v => v.id
  | global g => g.id

/-- Whether a declaration stands in what an inventory lists. -/
def Occurs (I : Inventory) : DeclaredItem → Prop
  | contract c => c.inventory.Within I
  | function f => f.inventory.Within I
  | modifier m => m.inventory.Within I
  | event e => e.parameters ⊆ I.vars
  | message m => m.parameters ++ m.returns ⊆ I.vars
  | struct s => s.members ⊆ I.fields
  | var v => v ∈ variablesWithInner (I.vars ++ I.fields)
  | global _ => False

end DeclaredItem

/-- A declaration that stands in what an inventory lists, under its own identity. -/
def OccursIn (I : Inventory) (entry : NodeId × Declaration) : Prop :=
  entry.1 = entry.2.item.id ∧ entry.2.item.Occurs I

variable {I : Inventory}

theorem variableDeclarations_occur (inside : vars ⊆ I.vars) (scope : Option NodeId) :
    ∀ entry ∈ variableDeclarations scope (variablesWithInner vars), OccursIn I entry := by
  intro entry mem
  obtain ⟨v, inVars, rfl⟩ := mem_map.mp mem
  obtain ⟨w, inList, inner⟩ := mem_variablesWithInner.mp inVars
  exact ⟨rfl, mem_variablesWithInner.mpr ⟨w, mem_append_left _ (inside inList), inner⟩⟩

theorem Function.declarations_occur (inside : f.inventory.Within I) (scope : Option NodeId) :
    ∀ entry ∈ f.declarations scope, OccursIn I entry := by
  rw [f.declarations_eq]
  refine forall_mem_cons.mpr ⟨⟨rfl, inside⟩, ?_⟩
  exact variableDeclarations_occur inside.vars scope

theorem StructDef.declarations_occur (inside : s.members ⊆ I.fields) (scope : Option NodeId) :
    ∀ entry ∈ s.declarations scope, OccursIn I entry := by
  refine forall_mem_cons.mpr ⟨⟨rfl, inside⟩, fun entry mem => ?_⟩
  obtain ⟨v, inVars, rfl⟩ := mem_map.mp mem
  obtain ⟨w, inList, inner⟩ := mem_variablesWithInner.mp inVars
  exact ⟨rfl, mem_variablesWithInner.mpr ⟨w, mem_append_right _ (inside inList), inner⟩⟩

theorem ContractPart.declarations_occur (inside : part.inventory.Within I)
    (state : ∀ v, part = .stateVariable v → v ∈ I.vars) (scope : Option NodeId) :
    ∀ entry ∈ part.declarations scope, OccursIn I entry := by
  cases part with
  | function f => exact f.declarations_occur inside scope
  | stateVariable v =>
    have declared : v.withInner = variablesWithInner [v] := (append_nil _).symm
    rw [ContractPart.declarations, declared]
    refine variableDeclarations_occur (fun w mem => ?_) scope
    cases mem_singleton.mp mem
    exact state v rfl
  | event e =>
    exact forall_mem_cons.mpr ⟨⟨rfl, inside.vars⟩, variableDeclarations_occur inside.vars scope⟩
  | message m =>
    refine forall_mem_cons.mpr ⟨⟨rfl, inside.vars⟩, ?_⟩
    rw [← variablesWithInner_append]
    exact variableDeclarations_occur inside.vars scope
  | modifier m =>
    refine forall_mem_cons.mpr ⟨⟨rfl, inside⟩, ?_⟩
    rw [m.declared_eq]
    exact variableDeclarations_occur inside.vars scope
  | struct s => exact s.declarations_occur inside.fields scope
  | usingFor u => exact forall_mem_nil _

theorem Contract.parts_within (inside : c.inventory.Within I) (mem : part ∈ c.parts) :
    part.inventory.Within I ∧ ∀ v, part = .stateVariable v → v ∈ I.vars := by
  rw [Contract.inventory, within_append, within_append] at inside
  refine ⟨inside.2.2.piece mem, fun v equal => inside.2.1.vars ?_⟩
  exact mem_filterMap.mpr ⟨part, mem, by rw [equal]; rfl⟩

theorem UnitPart.declarations_occur {part : UnitPart} (inside : part.inventory.Within I) :
    ∀ entry ∈ part.declarations, OccursIn I entry := by
  cases part with
  | contract c =>
    refine forall_mem_cons.mpr ⟨⟨rfl, inside⟩, fun entry mem => ?_⟩
    obtain ⟨part, inParts, inPart⟩ := mem_flatMap.mp mem
    obtain ⟨within, state⟩ := c.parts_within inside inParts
    exact part.declarations_occur within state _ entry inPart
  | struct s => exact s.declarations_occur inside.fields none
  | function f => exact f.declarations_occur inside none
  | usingFor u => exact forall_mem_nil _

theorem Inventory.Within.refl (I : Inventory) : I.Within I :=
  ⟨List.Subset.refl _, List.Subset.refl _, List.Subset.refl _, List.Subset.refl _,
    List.Subset.refl _⟩

theorem SourceUnit.part_within {part : UnitPart} (mem : part ∈ unit.parts) :
    part.inventory.Within unit.inventory :=
  (Inventory.Within.refl unit.inventory).piece mem

/-- Everything that is declared in a source unit stands in its inventory. -/
theorem ofUnit_occurs (unit : SourceUnit) :
    ∀ entry ∈ (Declarations.ofUnit unit).entries, OccursIn unit.inventory entry := by
  intro entry mem
  obtain ⟨part, inParts, inPart⟩ := mem_flatMap.mp (mem_reverse.mp mem)
  exact part.declarations_occur (SourceUnit.part_within inParts) entry inPart

theorem SourceUnit.mem_usingForDirectives :
    u ∈ unit.usingForDirectives ↔ .usingFor u ∈ unit.parts := by
  rw [SourceUnit.usingForDirectives, mem_filterMap]
  refine ⟨?_, fun mem => ⟨_, mem, rfl⟩⟩
  rintro ⟨part, mem, equal⟩
  cases part <;> cases equal
  exact mem

theorem Contract.mem_usingForDirectives : u ∈ c.usingForDirectives ↔ .usingFor u ∈ c.parts := by
  rw [Contract.usingForDirectives, mem_filterMap]
  refine ⟨?_, fun mem => ⟨_, mem, rfl⟩⟩
  rintro ⟨part, mem, equal⟩
  cases part <;> cases equal
  exact mem

/-! ## Signatures -/

def ContractPart.signature : ContractPart → List Variable
  | function f => f.parameters ++ f.returns
  | stateVariable v => [v]
  | event e => e.parameters
  | message m => m.parameters ++ m.returns
  | modifier m => m.parameters
  | struct _ | usingFor _ => []

def Contract.signature (c : Contract) : List Variable := c.parts.flatMap ContractPart.signature

theorem Contract.mem_functions : f ∈ c.functions ↔ .function f ∈ c.parts := by
  rw [Contract.functions, mem_filterMap]
  refine ⟨?_, fun mem => ⟨_, mem, rfl⟩⟩
  rintro ⟨part, mem, equal⟩
  cases part <;> cases equal
  exact mem

/-- The variables that the type of a declaration is made of. -/
def DeclaredItem.signature : DeclaredItem → List Variable
  | contract c => c.signature
  | function f => f.parameters ++ f.returns
  | modifier m => m.parameters
  | event e => e.parameters
  | message m => m.parameters ++ m.returns
  | var v => [v]
  | struct _ | global _ => []

theorem Function.signature_subset (inside : f.inventory.Within I) :
    f.parameters ++ f.returns ⊆ I.vars := by
  rw [Function.inventory, within_append, within_append] at inside
  exact append_subset.mpr ⟨inside.1.vars, inside.2.1.vars⟩

theorem ContractPart.signature_subset (inside : part.inventory.Within I)
    (state : ∀ v, part = .stateVariable v → v ∈ I.vars) :
    part.signature ⊆ I.vars := by
  cases part with
  | function f => exact f.signature_subset inside
  | stateVariable v => exact cons_subset.mpr ⟨state v rfl, nil_subset _⟩
  | event e => exact inside.vars
  | message m => exact inside.vars
  | modifier m =>
    rw [ContractPart.inventory, Modifier.inventory, within_append] at inside
    exact inside.1.vars
  | struct s => exact nil_subset _
  | usingFor u => exact nil_subset _

theorem Contract.signature_subset (inside : c.inventory.Within I) : c.signature ⊆ I.vars := by
  intro v mem
  obtain ⟨part, inParts, inPart⟩ := mem_flatMap.mp mem
  obtain ⟨within, state⟩ := c.parts_within inside inParts
  exact ContractPart.signature_subset within state inPart

/-- The variables in the type of a declaration stand in the inventory. -/
theorem DeclaredItem.signature_subset {item : DeclaredItem} (occurs : item.Occurs I)
    (other : item.var? = none) : item.signature ⊆ I.vars := by
  cases item with
  | contract c => exact c.signature_subset occurs
  | function f => exact f.signature_subset occurs
  | modifier m =>
    rw [DeclaredItem.Occurs, Modifier.inventory, within_append] at occurs
    exact occurs.1.vars
  | event e => exact occurs
  | message m => exact occurs
  | struct s => exact nil_subset _
  | var v => cases other
  | global g => exact nil_subset _

/-! ## Looking up -/

namespace Declarations

variable {d : Declarations} {declaration : Declaration}
variable {scope : Option NodeId}

theorem mem_of_find? {id : NodeId} (found : d.find? id = some declaration) :
    (id, declaration) ∈ d.entries := by
  obtain ⟨before, after, equal, -⟩ := lookup_eq_some_iff.mp found
  rw [equal]
  exact mem_append_right _ mem_cons_self

variable {unit : SourceUnit} {id : NodeId}

theorem find?_occurs (found : (ofUnit unit).find? id = some declaration) :
    OccursIn unit.inventory (id, declaration) :=
  ofUnit_occurs unit _ (mem_of_find? found)

theorem lookup?_occurs (found : (ofUnit unit).lookup? id = some declaration) :
    (∃ g, declaration = ⟨.global g, none⟩) ∨ OccursIn unit.inventory (id, declaration) := by
  unfold lookup? at found
  split at found
  · obtain ⟨g, -, rfl⟩ := Option.map_eq_some_iff.mp found
    exact .inl ⟨g, rfl⟩
  · exact .inr (find?_occurs found)

theorem find?_of_lookup? (found : d.lookup? id = some ⟨.var v, scope⟩) :
    d.find? id = some ⟨.var v, scope⟩ := by
  unfold lookup? at found
  split at found
  · obtain ⟨g, -, equal⟩ := Option.map_eq_some_iff.mp found
    cases equal
  · exact found

theorem find?_of_contract? (found : d.contract? id = some c) :
    ∃ scope, d.find? id = some ⟨.contract c, scope⟩ := by
  unfold contract? at found
  split at found
  · next scope equal => cases found; exact ⟨scope, equal⟩
  · cases found

theorem find?_of_struct? (found : d.struct? id = some (s, scope)) :
    d.find? id = some ⟨.struct s, scope⟩ := by
  unfold struct? at found
  split at found
  · next equal => cases found; exact equal
  · cases found

/-- The variables in the type of what an identity refers to are declared in the unit. -/
theorem signature_of_lookup? (found : (ofUnit unit).lookup? id = some declaration) :
    declaration.item.signature ⊆ variablesWithInner
      (unit.inventory.vars ++ unit.inventory.fields) := by
  obtain ⟨item, scope⟩ := declaration
  rcases lookup?_occurs found with ⟨g, equal⟩ | ⟨-, occurs⟩
  · cases equal
    exact nil_subset _
  intro v mem
  cases other : item.var? with
  | some w =>
    cases item <;> cases other
    cases mem_singleton.mp mem
    exact occurs
  | none =>
    have inVars := DeclaredItem.signature_subset occurs other mem
    exact mem_variablesWithInner.mpr ⟨v, mem_append_left _ inVars, v.self_mem_withInner⟩

theorem contract?_occurs (found : (ofUnit unit).contract? id = some c) :
    id = c.id ∧ c.inventory.Within unit.inventory := by
  obtain ⟨scope, found⟩ := find?_of_contract? found
  exact find?_occurs found

end Declarations

end ContractTyping
