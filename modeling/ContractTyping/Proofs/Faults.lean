import ContractTyping.Proofs.Effect.Contract
import ContractTyping.Proofs.Reference

/-!
# Faults have their cause in the source

A check ends with a fault only if the source unit breaks what the check relies on (`Fault.Caused`):
two nodes of one kind share an identity, a reference leads nowhere, or names and values of a call
differ in number. That an expression was never typed is not among them.
-/

namespace ContractTyping

open Check List Inventory Declarations

variable {v : Variable}

/-- What in a source unit is to blame for a fault. -/
def Fault.Caused (unit : SourceUnit) : Fault → Prop
  | typedTwice n => 2 ≤ unit.inventory.nodeIds.count n ∨ 2 ≤ unit.inventory.varIds.count n
  | danglingReference node target =>
    (node, target) ∈ unit.references ∧ (ofUnit unit).lookup? target = none
  | argumentNamesMismatch node names values =>
    ∃ e ∈ unit.inventory.nodes, e.id = node ∧ e.mismatch? = some (names, values)
  | untyped _ => False

/-! ## References of what is declared -/

theorem listReferences_eq (es : List Expr) : listReferences es = es.flatMap Expr.references := by
  induction es with
  | nil => rfl
  | cons e rest ih => rw [listReferences, ih, flatMap_cons]

namespace Inventory

variable {I : Inventory}

theorem references_of_node {e : Expr} (mem : e ∈ I.nodes) : e.references ⊆ I.references := by
  intro r inside
  refine mem_append_left _ ?_
  rw [listReferences_eq]
  exact mem_flatMap.mpr ⟨e, mem, inside⟩

theorem references_of_var (mem : v ∈ I.vars ++ I.fields) :
    v.references ⊆ I.references := fun _ inside =>
  mem_append_right _ (mem_append_left _ (references_mem_vars mem inside))

theorem references_of_path {path : Path} (mem : path ∈ I.paths) : path.references ⊆ I.references :=
  fun _ inside => mem_append_right _
    (mem_append_right _ (mem_append_left _ (mem_flatMap.mpr ⟨path, mem, inside⟩)))

theorem references_of_typeName {typeName : TypeName} (mem : typeName ∈ I.typeNames) :
    typeName.references ⊆ I.references :=
  fun _ inside => mem_append_right _ (mem_append_right _ (mem_append_right _
    (mem_flatMap.mpr ⟨typeName, mem, inside⟩)))

end Inventory

mutual

/-- The references of a variable inside a type name are among those of the type name. -/
theorem Variable.references_of_inner (v : Variable) {w : Variable} (mem : w ∈ v.withInner) :
    w.references ⊆ v.references := by
  match v with
  | .mk traits none value =>
    cases mem_singleton.mp mem
    exact List.Subset.refl _
  | .mk traits (some typeName) value =>
    rcases mem_cons.mp mem with rfl | inner
    · exact List.Subset.refl _
    · exact fun r inside => mem_append_left _ (typeName.references_of_inner inner inside)

theorem TypeName.references_of_inner (typeName : TypeName) {w : Variable}
    (mem : w ∈ typeName.innerVariables) : w.references ⊆ typeName.references := by
  match typeName with
  | .function _ parameters returns _ _ =>
    intro r inside
    rcases mem_append.mp mem with inner | inner
    · exact mem_append_left _ (references_of_inner_vars parameters inner inside)
    · exact mem_append_right _ (references_of_inner_vars returns inner inside)
  | .mapping _ key value =>
    intro r inside
    rcases mem_append.mp mem with inner | inner
    · exact mem_append_left _ (key.references_of_inner inner inside)
    · exact mem_append_right _ (value.references_of_inner inner inside)
  | .array _ base _ =>
    exact fun r inside => mem_append_left _ (base.references_of_inner mem inside)
  | .elementary .. => cases mem
  | .userDefined .. => cases mem

theorem references_of_inner_vars (vars : List Variable) {w : Variable}
    (mem : w ∈ variablesWithInner vars) : w.references ⊆ varsReferences vars := by
  match vars with
  | [] => cases mem
  | v :: rest =>
    intro r inside
    rcases mem_append.mp mem with inner | inner
    · exact mem_append_left _ (v.references_of_inner inner inside)
    · exact mem_append_right _ (references_of_inner_vars rest inner inside)

end

theorem closed_ofUnit (unit : SourceUnit) : (ofUnit unit).Closed unit.references where
  vars id v scope found := by
    rcases lookup?_occurs found with ⟨g, equal⟩ | ⟨-, occurs⟩
    · cases equal
    · intro r inside
      have inVars := references_of_inner_vars _ occurs inside
      exact mem_append_right _ (mem_append_left _ inVars)
  structs id s scope found := by
    have occurs := (find?_occurs (find?_of_struct? found)).2
    rw [varsReferences_eq]
    intro r inside
    obtain ⟨v, mem, inV⟩ := mem_flatMap.mp inside
    exact references_of_var (mem_append_right _ (occurs mem)) inV

/-! ## The site of a whole unit -/

theorem Context.Alike.refl (c : Context) : c.Alike c := by
  constructor <;> rfl

/-- A whole source unit, where every fault has to have a cause. -/
def Site.ofUnit (unit : SourceUnit) (settings : Settings) : Site where
  inventory := unit.inventory
  reads := fun _ => True
  settles := fun _ _ => True
  faults := Fault.Caused unit
  loops := fun _ => True
  here := contextOf unit settings
  there := contextOf unit settings

section Unit

variable {unit : SourceUnit} {settings : Settings}
variable {fault : Fault}

theorem caused_of_dangles (dangles : (ofUnit unit).Dangles unit.references fault) :
    fault.Caused unit := by
  obtain ⟨node, target, rfl, mem, missing⟩ := dangles
  exact ⟨mem, missing⟩

theorem readable_of_references (inside : v.references ⊆ unit.references) :
    (Site.ofUnit unit settings).Readable v := by
  refine ⟨trivial, fun fault failed => caused_of_dangles ?_⟩
  exact (declaredType_fails (closed_ofUnit unit).leads v inside).fault fault
    (orInvalid_eq_error.mp failed)

theorem readable_of_mem (mem : v ∈ unit.inventory.vars) : (Site.ofUnit unit settings).Readable v :=
  readable_of_references (references_of_var (mem_append_left _ mem))

theorem readable_of_lookup? {id : NodeId} {declaration : Declaration}
    (found : (ofUnit unit).lookup? id = some declaration) (mem : v ∈ declaration.item.signature) :
    (Site.ofUnit unit settings).Readable v := by
  refine readable_of_references fun r inside => ?_
  have inVars := references_of_inner_vars _ (signature_of_lookup? found mem) inside
  exact mem_append_right _ (mem_append_left _ inVars)

theorem resolvable_of_references {typeName : TypeName}
    (inside : typeName.references ⊆ unit.references) :
    (Site.ofUnit unit settings).Resolvable typeName := fun place fault failed =>
  caused_of_dangles
    ((resolve_fails (closed_ofUnit unit).leads typeName inside place).fault fault failed)

theorem legal_ofUnit (unit : SourceUnit) (settings : Settings) :
    (Site.ofUnit unit settings).Legal where
  alike := .refl _
  items id declaration found _ v mem := readable_of_lookup? found mem
  contracts id c found v mem :=
    readable_of_mem (Contract.signature_subset (contract?_occurs found).2 mem)
  named e inNodes id target declaration found v mem := readable_of_lookup? found mem
  vars v mem := readable_of_mem mem
  returns := nofun
  settles := fun _ _ _ _ => trivial
  settlesFields := fun _ _ _ => trivial
  targets e inNodes id target missing := by
    refine ⟨references_of_node inNodes ?_, missing⟩
    cases e with
    | identifier node name linked overloads => exact mem_map_of_mem target
    | _ => cases target
  paths path mem id target missing := by
    refine ⟨references_of_path mem ?_, missing⟩
    exact mem_map_of_mem (Option.mem_toList.mpr target)
  names e inNodes names values mismatch := ⟨e, inNodes, rfl, mismatch⟩
  members id location fault failed :=
    caused_of_dangles (structMembers_dangles (closed_ofUnit unit) failed)
  created node typeName mem := resolvable_of_references (references_of_node mem)
  fields v mem typeName equal := resolvable_of_references fun r inside =>
    references_of_var (mem_append_right _ mem) (v.references_of_typeName equal inside)
  typeNames typeName mem := resolvable_of_references (references_of_typeName mem)
  directives u mem typeName equal := by
    have inParts := SourceUnit.mem_usingForDirectives.mp mem
    exact resolvable_of_references (references_of_typeName
      ((SourceUnit.part_within inParts).typeNames (Option.mem_toList.mpr equal)))
  contractDirectives id c found u mem typeName equal := by
    have inParts := Contract.mem_usingForDirectives.mp mem
    have inside := (c.parts_within (contract?_occurs found).2 inParts).1
    exact resolvable_of_references
      (references_of_typeName (inside.typeNames (Option.mem_toList.mpr equal)))
  indices node base index mem fault failed := by
    refine caused_of_dangles (evaluate_dangles (closed_ofUnit unit) ?_ failed)
    exact fun r inside => references_of_node mem (mem_append_right _ inside)

/-- A run of the checks of all parts does at most what the inventory of the unit allows. -/
theorem unit_covers (unit : SourceUnit) (settings : Settings) :
    (Site.ofUnit unit settings).Covers unit.inventory (unit.parts.forM unitPart) :=
  Site.Covers.forM fun _ mem =>
    (legal_ofUnit unit settings).unitPart (SourceUnit.part_within mem) fun _ _ _ _ _ _ => trivial

theorem check_eq (unit : SourceUnit) (settings : Settings) : check unit settings =
      (unit.parts.forM unitPart (contextOf unit settings) {}).map fun result =>
        ⟨result.2.annotations, result.2.diagnostics⟩ := by
  show Except.bind (unit.parts.forM unitPart (contextOf unit settings) {}) _ = _
  cases unit.parts.forM unitPart (contextOf unit settings) {} <;> rfl

theorem check_ok {report : Report} : check unit settings = .ok report ↔
      ∃ found, unit.parts.forM unitPart (contextOf unit settings) {} = .ok ((), found) ∧
        report = ⟨found.annotations, found.diagnostics⟩ := by
  rw [check_eq]
  constructor
  · cases unit.parts.forM unitPart (contextOf unit settings) {} with
    | error fault => exact nofun
    | ok result =>
      rintro ⟨⟩
      exact ⟨result.2, rfl, rfl⟩
  · rintro ⟨found, run, rfl⟩
    rw [run]
    rfl

/-- A test of a result, such as the report of a check, to be evaluated. -/
theorem exists_ok {α : Type} {result : Except Fault α} {P : α → Prop} [DecidablePred P]
    (holds : result.toOption.any (fun a => P a) = true) : ∃ a, result = .ok a ∧ P a := by
  cases result with
  | error fault => cases holds
  | ok a => exact ⟨a, rfl, of_decide_eq_true holds⟩

theorem check_error : check unit settings = .error fault ↔
      unit.parts.forM unitPart (contextOf unit settings) {} = .error fault := by
  rw [check_eq]
  cases unit.parts.forM unitPart (contextOf unit settings) {} with
  | error other =>
    constructor
    · rintro ⟨⟩
      rfl
    · rintro ⟨⟩
      rfl
  | ok result => exact ⟨nofun, nofun⟩

theorem caused_of_check (failed : check unit settings = .error fault) : fault.Caused unit := by
  -- Nothing has a type before the first part, so only a node listed twice can be typed again.
  have nothing {ids : List NodeId} {n : NodeId} (again : TypedAgain (fun _ => none) ids n) :
      2 ≤ ids.count n := again.resolve_left fun h => by cases h.1
  obtain ⟨outcome, run, accounts, -⟩ := unit_covers unit settings {} nofun
  have run : unit.parts.forM unitPart (contextOf unit settings) {} = outcome.after {} := run
  rw [check_eq, run] at failed
  cases outcome with
  | ok result => cases failed
  | error other =>
    cases failed
    rcases accounts with allowed | ⟨n, rfl, again⟩
    · exact allowed
    · exact again.imp nothing nothing

end Unit

/-- What a check relies on: expressions are numbered apart and so are variables, references lead
somewhere, and names come with values. -/
structure SourceUnit.WellFormed (unit : SourceUnit) : Prop where
  nodes : unit.inventory.nodeIds.Nodup
  vars : unit.inventory.varIds.Nodup
  references : ∀ r ∈ unit.references, ((ofUnit unit).lookup? r.2).isSome
  names : ∀ e ∈ unit.inventory.nodes, e.mismatch? = none

theorem SourceUnit.WellFormed.not_caused {unit : SourceUnit} (wellFormed : unit.WellFormed)
    (fault : Fault) : ¬ fault.Caused unit := by
  cases fault with
  | typedTwice n =>
    rintro (twice | twice)
    · have := nodup_iff_count.mp wellFormed.nodes n
      omega
    · have := nodup_iff_count.mp wellFormed.vars n
      omega
  | danglingReference node target =>
    rintro ⟨mem, missing⟩
    have := wellFormed.references _ mem
    rw [missing] at this
    cases this
  | untyped n => exact id
  | argumentNamesMismatch node names values =>
    rintro ⟨e, mem, -, mismatch⟩
    rw [wellFormed.names e mem] at mismatch
    cases mismatch

/-- A check ends with a fault only for a cause in the source unit, so ends well without one. -/
theorem check_fault_sound (unit : SourceUnit) (settings : Settings) :
    (∀ fault, check unit settings = .error fault → fault.Caused unit) ∧
      (unit.WellFormed → ∃ report, check unit settings = .ok report) := by
  refine ⟨fun fault => caused_of_check, fun wellFormed => ?_⟩
  cases result : check unit settings with
  | ok report => exact ⟨report, rfl⟩
  | error fault => exact absurd (caused_of_check result) (wellFormed.not_caused fault)

/-- A contract with a flag and a function that sets it, by one name, which refers to the target. -/
def flagUnit (name target : NodeId) : SourceUnit :=
  let node (id : Int64) : Node := ⟨⟨id⟩, .unknown⟩
  let flag : Variable :=
    .mk { node := node 3, name := "flag", isState := true }
      (some (.elementary (node 4) "bool" false)) none
  let assignment : Expr :=
    .assignment (node 7) none (.identifier ⟨name, .unknown⟩ "flag" (some target) [])
      (.literal (node 9) .bool "true" none)
  let set : Function :=
    { (default : Function) with
      node := node 5, name := "set", body :=
        some (.mk (node 6) [.expression (node 10) assignment] false) }
  { node := node 1
    path := "flag"
    abiCoder := none
    parts :=
    [.contract ⟨node 2, "Flag", .contract, false, [], [], [.stateVariable flag, .function set]⟩] }

theorem check_fault_sound_flag :
    (check (flagUnit ⟨9⟩ ⟨3⟩) {} = .error (.typedTwice ⟨9⟩) ∧
      (Fault.typedTwice ⟨9⟩).Caused (flagUnit ⟨9⟩ ⟨3⟩)) ∧
    (check (flagUnit ⟨8⟩ ⟨77⟩) {} = .error (.danglingReference ⟨8⟩ ⟨77⟩) ∧
      (Fault.danglingReference ⟨8⟩ ⟨77⟩).Caused (flagUnit ⟨8⟩ ⟨77⟩)) ∧
    (flagUnit ⟨8⟩ ⟨3⟩).WellFormed ∧ ∃ report, check (flagUnit ⟨8⟩ ⟨3⟩) {} = .ok report := by
  have wellFormed : (flagUnit ⟨8⟩ ⟨3⟩).WellFormed := ⟨by decide, by decide, by decide, by decide⟩
  exact ⟨⟨rfl, (check_fault_sound _ {}).1 _ rfl⟩, ⟨rfl, (check_fault_sound _ {}).1 _ rfl⟩,
    wellFormed, (check_fault_sound _ {}).2 wellFormed⟩

end ContractTyping
