import ContractTyping.Proofs.Cycle.Inheritance
import ContractTyping.Proofs.Faults
import ContractTyping.Proofs.Order.Context

/-!
# A part of a source unit on its own

`SourceUnit.Regular` collects what makes the order of the parts of a source unit irrelevant. The
check of one part then takes its types of variables from the parts before it or works them out, with
the same result (`Site.ofPart`), and no contract is left out for a cycle (`cycle?_eq_none`).
-/

namespace ContractTyping

open List Declarations

variable {v : Variable}

/-- What the order of the parts does not matter for: expressions, variables and declarations are
numbered apart, no contract is its own base, and no identifier refers to a member of a struct. -/
structure SourceUnit.Regular (unit : SourceUnit) : Prop where
  nodes : unit.inventory.nodeIds.Nodup
  vars : unit.inventory.varIds.Nodup
  declarations : ((ofUnit unit).entries.map Prod.fst).Nodup
  acyclic : ∀ id, ¬ Graph.Reaches (ofUnit unit).basesOf id id
  named : ∀ e ∈ unit.inventory.nodes, ∀ id ∈ e.targets, id ∉ unit.inventory.fields.map Variable.id

/-! ## Declarations -/

theorem mem_variableDeclarations {vars : List Variable} (mem : v ∈ vars) (scope : Option NodeId) :
    (v.id, ⟨.var v, scope⟩) ∈ variableDeclarations scope (variablesWithInner vars) :=
  mem_map_of_mem (mem_variablesWithInner.mpr ⟨v, mem, v.self_mem_withInner⟩)

theorem Function.var_declared {f : Function} (mem : v ∈ f.inventory.vars) (scope : Option NodeId) :
    (v.id, ⟨.var v, scope⟩) ∈ f.declarations scope := by
  rw [f.declarations_eq]
  exact mem_cons_of_mem _ (mem_variableDeclarations mem scope)

theorem ContractPart.var_declared {part : ContractPart} (mem : v ∈ part.inventory.vars)
    (scope : Option NodeId) : (v.id, ⟨.var v, scope⟩) ∈ part.declarations scope := by
  cases part with
  | function f => exact Function.var_declared mem scope
  | event e => exact mem_cons_of_mem _ (mem_variableDeclarations mem scope)
  | message m =>
    refine mem_cons_of_mem _ ?_
    rw [← variablesWithInner_append]
    exact mem_variableDeclarations mem scope
  | modifier m =>
    refine mem_cons_of_mem _ ?_
    rw [m.declared_eq]
    exact mem_variableDeclarations mem scope
  | stateVariable _ | struct _ | usingFor _ => cases mem

/-- All variables are declared. -/
theorem UnitPart.var_declared {part : UnitPart} (mem : v ∈ part.inventory.vars) :
    ∃ scope, (v.id, ⟨.var v, scope⟩) ∈ part.declarations := by
  cases part with
  | function f => exact ⟨none, Function.var_declared mem none⟩
  | struct _ | usingFor _ => cases mem
  | contract c =>
    refine ⟨some c.id, mem_cons_of_mem _ (mem_flatMap.mpr ?_)⟩
    rcases mem_append.mp mem with inBases | inParts
    · obtain ⟨specifier, -, none⟩ := mem_flatMap.mp inBases
      cases none
    rcases mem_append.mp inParts with state | inside
    · obtain ⟨part, inParts, equal⟩ := mem_filterMap.mp state
      refine ⟨part, inParts, ?_⟩
      cases part <;> cases equal
      exact mem_map_of_mem v.self_mem_withInner
    · obtain ⟨part, inParts, inPart⟩ := mem_flatMap.mp inside
      exact ⟨part, inParts, ContractPart.var_declared inPart _⟩

theorem SourceUnit.var_declared {unit : SourceUnit} (mem : v ∈ unit.inventory.vars) :
    ∃ scope, (v.id, ⟨.var v, scope⟩) ∈ (ofUnit unit).entries := by
  obtain ⟨part, inParts, inPart⟩ := mem_flatMap.mp mem
  obtain ⟨scope, declared⟩ := UnitPart.var_declared inPart
  exact ⟨scope, mem_reverse.mpr (mem_flatMap.mpr ⟨part, inParts, declared⟩)⟩

namespace SourceUnit.Regular

variable {unit : SourceUnit}

theorem cycle?_eq_none (regular : unit.Regular) {c : Contract} (mem : .contract c ∈ unit.parts) :
    (ofUnit unit).cycle? c = none := by
  rw [cycle?_eq_none_iff regular.declarations mem]
  rintro ⟨id, -, round⟩
  exact regular.acyclic id round

end SourceUnit.Regular

/-! ## The site of a part -/

/-- The variables of a source unit whose types the checks of its parts may ask for. -/
def SourceUnit.Reads (unit : SourceUnit) (v : Variable) : Prop :=
  (∃ scope, (v.id, ⟨.var v, scope⟩) ∈ (ofUnit unit).entries) ∧
    v.id ∉ unit.inventory.fields.map Variable.id

/-- A part of a source unit, checked in the order of the unit and again in another order. A type
recorded for a variable is the one that it has by its type name, unless nothing asks for it. -/
def Site.ofPart (unit other : SourceUnit) (settings : Settings) (part : UnitPart) : Site where
  inventory := part.inventory
  reads := unit.Reads
  settles id t := ∀ v, unit.Reads v → v.id = id →
    Declarations.orInvalid ((Declarations.ofUnit unit).declaredType v) = .ok t
  faults := fun _ => True
  loops := fun _ => False
  here := Check.contextOf unit settings
  there := Check.contextOf other settings

section Legal

variable {unit other : SourceUnit} {settings : Settings} {part : UnitPart}

variable (regular : unit.Regular)

include regular

theorem SourceUnit.Regular.reads_of_mem (mem : v ∈ unit.inventory.vars) : unit.Reads v := by
  refine ⟨SourceUnit.var_declared mem, fun inFields => ?_⟩
  have distinct := regular.vars
  rw [Inventory.varIds, map_append, nodup_append] at distinct
  exact distinct.2.2 _ (mem_map_of_mem mem) _ inFields rfl

/-- A variable that is read is known by its identity. -/
theorem SourceUnit.Regular.reads_unique {w : Variable} (reads : unit.Reads v)
    (reads' : unit.Reads w) (equal : w.id = v.id) : w = v := by
  obtain ⟨⟨scope, declared⟩, -⟩ := reads
  obtain ⟨⟨scope', declared'⟩, -⟩ := reads'
  rw [equal] at declared'
  have same := (lookup_of_mem regular.declarations declared').symm.trans
    (lookup_of_mem regular.declarations declared)
  cases same
  rfl

omit regular in
theorem Site.resolvable_ofPart (typeName : TypeName) :
    (Site.ofPart unit other settings part).Resolvable typeName := fun _ _ _ => trivial

theorem SourceUnit.Regular.readable (mem : v ∈ unit.inventory.vars) :
    (Site.ofPart unit other settings part).Readable v :=
  ⟨regular.reads_of_mem mem, fun _ _ => trivial⟩

theorem SourceUnit.Regular.legal (reorders : unit.Reorders other)
    (settings : Settings) (inParts : part ∈ unit.parts) :
    (Site.ofPart unit other settings part).Legal where
  alike := reorders.alike regular.declarations settings
  items id declaration found isOther v mem := by
    rcases lookup?_occurs found with ⟨g, rfl⟩ | ⟨-, occurs⟩
    · cases mem
    · exact regular.readable (DeclaredItem.signature_subset occurs isOther mem)
  contracts id c found v mem :=
    regular.readable (Contract.signature_subset (contract?_occurs found).2 mem)
  named e inNodes id target declaration found v mem := by
    obtain ⟨item, scope⟩ := declaration
    rcases lookup?_occurs found with ⟨g, equal⟩ | ⟨same, occurs⟩
    · cases equal
      cases mem
    -- A variable that is named itself is no member of a struct; others are read for a signature.
    cases isVar : item.var? with
    | none => exact regular.readable (DeclaredItem.signature_subset occurs isVar mem)
    | some w =>
      cases item <;> cases isVar
      cases mem_singleton.mp mem
      have here : id = v.id := same
      refine ⟨⟨⟨scope, mem_of_find? ?_⟩, ?_⟩, fun _ _ => trivial⟩
      · exact here ▸ find?_of_lookup? found
      · exact here ▸ regular.named e ((SourceUnit.part_within inParts).nodes inNodes) id target
  vars v mem := regular.readable ((SourceUnit.part_within inParts).vars mem)
  returns := nofun
  settles v mem t typed w reads equal := by
    have declared := regular.reads_of_mem ((SourceUnit.part_within inParts).vars mem)
    rwa [regular.reads_unique declared reads equal]
  settlesFields v mem t w reads equal := by
    have inFields := (SourceUnit.part_within inParts).fields mem
    exact absurd (equal ▸ mem_map_of_mem inFields) reads.2
  targets _ _ _ _ _ := trivial
  paths _ _ _ _ _ := trivial
  names _ _ _ _ _ := trivial
  members _ _ _ _ := trivial
  created _ typeName _ := Site.resolvable_ofPart typeName
  fields _ _ typeName _ := Site.resolvable_ofPart typeName
  typeNames typeName _ := Site.resolvable_ofPart typeName
  directives _ _ typeName _ := Site.resolvable_ofPart typeName
  contractDirectives _ _ _ _ _ typeName _ := Site.resolvable_ofPart typeName
  indices _ _ _ _ _ _ := trivial

end Legal

end ContractTyping
