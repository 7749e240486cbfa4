import ContractTyping.Declarations

/-!
# What a source unit holds

Lists of the parts of a source unit, for statements about all of them.

* `Inventory` collects what a check visits: expressions at any depth, declared variables, members of
  structs, the paths of bases, modifiers and libraries, and the types of directives. Expressions and
  variables inside type names are not visited, and neither are the values of variables other than
  state variables.
* `references` collects every reference, wherever it stands: in expressions, in type names, and in
  the values of all variables.
-/

namespace ContractTyping

open List
variable {v : Variable}

/-! ## Expressions -/

mutual

/-- An expression and the expressions inside it, except for those in type names. -/
def Expr.nodes : Expr → List Expr
  | e@(.identifier ..) | e@(.elementaryType ..) | e@(.literal ..) | e@(.create ..) => [e]
  | e@(.unary _ _ _ part) | e@(.await _ part) | e@(.member _ part _) => e :: part.nodes
  | e@(.binary _ _ left right) | e@(.assignment _ _ left right) => e :: (left.nodes ++ right.nodes)
  | e@(.conditional _ condition yes no) => e :: (condition.nodes ++ (yes.nodes ++ no.nodes))
  | e@(.tuple _ components _) => e :: slotNodes components
  | e@(.call _ callee arguments _) => e :: (listNodes arguments ++ callee.nodes)
  | e@(.callOptions _ callee _ options) => e :: (callee.nodes ++ listNodes options)
  | e@(.index _ base index) => e :: (base.nodes ++ optionNodes index)
  | e@(.slice _ base start stop) => e :: (base.nodes ++ (optionNodes start ++ optionNodes stop))

def listNodes : List Expr → List Expr
  | [] => []
  | e :: rest => e.nodes ++ listNodes rest

def slotNodes : List (Option Expr) → List Expr
  | [] => []
  | none :: rest => slotNodes rest
  | some e :: rest => e.nodes ++ slotNodes rest

def optionNodes : Option Expr → List Expr
  | none => []
  | some e => e.nodes

end

theorem Expr.self_mem_nodes (e : Expr) : e ∈ e.nodes := by
  cases e <;> simp [Expr.nodes]

/-! ## Everything that is visited -/

/-- What a check visits in a piece of source. -/
structure Inventory where
  nodes : List Expr := []
  vars : List Variable := []
  /-- Members of structs. -/
  fields : List Variable := []
  paths : List Path := []
  /-- The types of directives. -/
  typeNames : List TypeName := []

namespace Inventory

variable {I J : Inventory} {α : Type}

instance : Append Inventory where
  append I J :=
    ⟨I.nodes ++ J.nodes, I.vars ++ J.vars, I.fields ++ J.fields, I.paths ++ J.paths,
      I.typeNames ++ J.typeNames⟩

/-- The inventories of several pieces of source, one after the other. -/
def all {α : Type} (inventory : α → Inventory) (pieces : List α) : Inventory where
  nodes := pieces.flatMap fun piece => (inventory piece).nodes
  vars := pieces.flatMap fun piece => (inventory piece).vars
  fields := pieces.flatMap fun piece => (inventory piece).fields
  paths := pieces.flatMap fun piece => (inventory piece).paths
  typeNames := pieces.flatMap fun piece => (inventory piece).typeNames

/-- The identities of the expressions. -/
def nodeIds (I : Inventory) : List NodeId := I.nodes.map Expr.id

/-- The identities of the variables, members of structs among them. -/
def varIds (I : Inventory) : List NodeId := (I.vars ++ I.fields).map Variable.id

/-- Whether everything in one inventory is in another one. -/
structure Within (I J : Inventory) : Prop where
  nodes : I.nodes ⊆ J.nodes
  vars : I.vars ⊆ J.vars
  fields : I.fields ⊆ J.fields
  paths : I.paths ⊆ J.paths
  typeNames : I.typeNames ⊆ J.typeNames

theorem nodeIds_append (I J : Inventory) : (I ++ J).nodeIds = I.nodeIds ++ J.nodeIds :=
  map_append

theorem count_varIds_append (I J : Inventory) (id : NodeId) :
    (I ++ J).varIds.count id = I.varIds.count id + J.varIds.count id := by
  have parts : (I ++ J).varIds = (I.vars ++ J.vars ++ (I.fields ++ J.fields)).map Variable.id := rfl
  rw [parts]
  simp only [varIds, map_append, count_append]
  omega

theorem within_append {K : Inventory} : (I ++ J).Within K ↔ I.Within K ∧ J.Within K := by
  refine ⟨fun h => ⟨⟨?_, ?_, ?_, ?_, ?_⟩, ⟨?_, ?_, ?_, ?_, ?_⟩⟩, fun h => ⟨?_, ?_, ?_, ?_, ?_⟩⟩
  · exact (append_subset.mp h.nodes).1
  · exact (append_subset.mp h.vars).1
  · exact (append_subset.mp h.fields).1
  · exact (append_subset.mp h.paths).1
  · exact (append_subset.mp h.typeNames).1
  · exact (append_subset.mp h.nodes).2
  · exact (append_subset.mp h.vars).2
  · exact (append_subset.mp h.fields).2
  · exact (append_subset.mp h.paths).2
  · exact (append_subset.mp h.typeNames).2
  · exact append_subset.mpr ⟨h.1.nodes, h.2.nodes⟩
  · exact append_subset.mpr ⟨h.1.vars, h.2.vars⟩
  · exact append_subset.mpr ⟨h.1.fields, h.2.fields⟩
  · exact append_subset.mpr ⟨h.1.paths, h.2.paths⟩
  · exact append_subset.mpr ⟨h.1.typeNames, h.2.typeNames⟩

/-- What is in one of several pieces is in all of them together. -/
theorem Within.piece {α : Type} {inventory : α → Inventory} {pieces : List α} {K : Inventory}
    (h : (all inventory pieces).Within K) {piece : α} (mem : piece ∈ pieces) :
    (inventory piece).Within K where
  nodes _ inPiece := h.nodes (mem_flatMap.mpr ⟨piece, mem, inPiece⟩)
  vars _ inPiece := h.vars (mem_flatMap.mpr ⟨piece, mem, inPiece⟩)
  fields _ inPiece := h.fields (mem_flatMap.mpr ⟨piece, mem, inPiece⟩)
  paths _ inPiece := h.paths (mem_flatMap.mpr ⟨piece, mem, inPiece⟩)
  typeNames _ inPiece := h.typeNames (mem_flatMap.mpr ⟨piece, mem, inPiece⟩)

theorem mem_append :
    v ∈ (I ++ J).vars ++ (I ++ J).fields ↔ v ∈ I.vars ++ I.fields ∨ v ∈ J.vars ++ J.fields := by
  show v ∈ I.vars ++ J.vars ++ (I.fields ++ J.fields) ↔ _
  simp only [List.mem_append]
  exact or_or_or_comm

/-- A variable or member among several pieces is one of some piece. -/
theorem mem_all {inventory : α → Inventory} {pieces : List α} :
    v ∈ (all inventory pieces).vars ++ (all inventory pieces).fields ↔
      ∃ piece ∈ pieces, v ∈ (inventory piece).vars ++ (inventory piece).fields := by
  simp only [all, List.mem_append, mem_flatMap, and_or_left, exists_or]

theorem all_cons (inventory : α → Inventory) (piece : α) (pieces : List α) :
    all inventory (piece :: pieces) = inventory piece ++ all inventory pieces := rfl

theorem all_append (inventory : α → Inventory) (pieces more : List α) :
    all inventory (pieces ++ more) = all inventory pieces ++ all inventory more := by
  simp only [all, flatMap_append]
  rfl

end Inventory

mutual

def Statement.inventory : Statement → Inventory
  | .block _ body => body.inventory
  | .placeholder _ | .continueLoop _ | .breakLoop _ => {}
  | .ifElse _ condition yes no =>
    { nodes := condition.nodes } ++ (yes.inventory ++ optionalInventory no)
  | .whileLoop _ condition body _ => { nodes := condition.nodes } ++ body.inventory
  | .forLoop _ initial condition step body =>
    optionalInventory initial ++
      ({ nodes := optionNodes condition } ++ ({ nodes := optionNodes step } ++ body.inventory))
  | .returnValue _ value => { nodes := optionNodes value }
  | .emit _ e | .expression _ e => { nodes := e.nodes }
  | .declare _ vars initial => { vars := vars.filterMap id } ++ { nodes := optionNodes initial }
  | .tryCatch _ call clauses => { nodes := call.nodes } ++ clausesInventory clauses

def Block.inventory : Block → Inventory
  | .mk _ statements _ => statementsInventory statements

def statementsInventory : List Statement → Inventory
  | [] => {}
  | s :: rest => s.inventory ++ statementsInventory rest

def optionalInventory : Option Statement → Inventory
  | none => {}
  | some s => s.inventory

def clausesInventory : List CatchClause → Inventory
  | [] => {}
  | .mk _ _ parameters body :: rest =>
    { vars := parameters.getD [] } ++ (body.inventory ++ clausesInventory rest)

end

def bodyInventory : Option Block → Inventory
  | none => {}
  | some body => body.inventory

def argumentNodes (arguments : Option (List Expr)) : List Expr := listNodes (arguments.getD [])

def ModifierCall.inventory (m : ModifierCall) : Inventory where
  nodes := argumentNodes m.arguments
  paths := [m.target]

def BaseSpecifier.inventory (s : BaseSpecifier) : Inventory where
  nodes := argumentNodes s.arguments
  paths := [s.base]

def Function.inventory (f : Function) : Inventory :=
  { vars := f.parameters } ++ ({ vars := f.returns } ++
    (.all ModifierCall.inventory f.modifiers ++ bodyInventory f.body))

def Modifier.inventory (m : Modifier) : Inventory :=
  { vars := m.parameters } ++ bodyInventory m.body

def UsingFor.inventory (u : UsingFor) : Inventory where
  paths := [u.library]
  typeNames := u.typeName.toList

/-- The parts of a contract, where a state variable counts with its value only. -/
def ContractPart.inventory : ContractPart → Inventory
  | function f => f.inventory
  | stateVariable v => { nodes := optionNodes v.value }
  | event e => { vars := e.parameters }
  | message m => { vars := m.parameters ++ m.returns }
  | modifier m => m.inventory
  | struct s => { fields := s.members }
  | usingFor u => u.inventory

def Contract.inventory (c : Contract) : Inventory :=
  .all BaseSpecifier.inventory c.bases ++
    ({ vars := c.stateVariables } ++ .all ContractPart.inventory c.parts)

def UnitPart.inventory : UnitPart → Inventory
  | contract c => c.inventory
  | struct s => { fields := s.members }
  | function f => f.inventory
  | usingFor u => u.inventory

def SourceUnit.inventory (unit : SourceUnit) : Inventory := .all UnitPart.inventory unit.parts

/-! ## References -/

/-- A reference: the node that it stands in, and what it refers to. -/
abbrev Reference := NodeId × NodeId

def Path.references (path : Path) : List Reference := path.target.toList.map (path.node.id, ·)

mutual

/-- The references in an expression. -/
def Expr.references : Expr → List Reference
  | .identifier node _ target overloads => (target.toList ++ overloads).map (node.id, ·)
  | .elementaryType .. | .literal .. => []
  | .unary _ _ _ part | .await _ part | .member _ part _ => part.references
  | .binary _ _ left right | .assignment _ _ left right => left.references ++ right.references
  | .conditional _ condition yes no => condition.references ++ (yes.references ++ no.references)
  | .tuple _ components _ => slotReferences components
  | .call _ callee arguments _ => callee.references ++ listReferences arguments
  | .callOptions _ callee _ options => callee.references ++ listReferences options
  | .create _ typeName => typeName.references
  | .index _ base index => base.references ++ optionReferences index
  | .slice _ base start stop =>
    base.references ++ (optionReferences start ++ optionReferences stop)

def listReferences : List Expr → List Reference
  | [] => []
  | e :: rest => e.references ++ listReferences rest

def slotReferences : List (Option Expr) → List Reference
  | [] => []
  | none :: rest => slotReferences rest
  | some e :: rest => e.references ++ slotReferences rest

def optionReferences : Option Expr → List Reference
  | none => []
  | some e => e.references

/-- The references in a type name, those in lengths of arrays among them. -/
def TypeName.references : TypeName → List Reference
  | .elementary .. => []
  | .userDefined _ path => path.references
  | .mapping _ key value => key.references ++ value.references
  | .array _ base length => base.references ++ optionReferences length
  | .function _ parameters returns _ _ => varsReferences parameters ++ varsReferences returns

/-- The references in the type and in the value of a variable. -/
def Variable.references : Variable → List Reference
  | .mk _ none value => optionReferences value
  | .mk _ (some typeName) value => typeName.references ++ optionReferences value

def varsReferences : List Variable → List Reference
  | [] => []
  | v :: rest => v.references ++ varsReferences rest

end

theorem Variable.references_of_value (v : Variable) {value : Expr} (equal : v.value = some value) :
    value.references ⊆ v.references := by
  obtain ⟨traits, typeName, initial⟩ := v
  cases equal
  cases typeName with
  | none => exact List.Subset.refl _
  | some typeName => exact subset_append_right _ _

theorem Variable.references_of_typeName (v : Variable) {typeName : TypeName}
    (equal : v.typeName = some typeName) : typeName.references ⊆ v.references := by
  obtain ⟨traits, name, initial⟩ := v
  cases equal
  exact subset_append_left _ _

theorem varsReferences_eq (vars : List Variable) :
    varsReferences vars = vars.flatMap Variable.references := by
  induction vars with
  | nil => rfl
  | cons v rest ih => rw [varsReferences, ih, flatMap_cons]

theorem references_mem_vars {vars : List Variable} (mem : v ∈ vars) :
    v.references ⊆ varsReferences vars := by
  rw [varsReferences_eq]
  exact fun r inV => mem_flatMap.mpr ⟨v, mem, inV⟩

/-- All references in what an inventory lists. -/
def Inventory.references (I : Inventory) : List Reference :=
  listReferences I.nodes ++ (varsReferences (I.vars ++ I.fields) ++
    (I.paths.flatMap Path.references ++ I.typeNames.flatMap TypeName.references))

/-- Every reference in a source unit. -/
def SourceUnit.references (unit : SourceUnit) : List Reference := unit.inventory.references

end ContractTyping
