import ContractTyping.Proofs.Faults
import ContractTyping.Proofs.Passing.Settled

/-!
# What a check that passes has recorded

1. `poisoned_iff_silent`: the invalid type is recorded without an error in two places only, for
   parentheses around nothing and for the call of an overloaded name that was not narrowed to one
   declaration, and for what is made of them.
2. `annotations_complete`: without the invalid type, everything in the source unit has a recorded
  type.
-/

namespace ContractTyping

open List

/-- Whether an invalid type is recorded somewhere. -/
def Annotations.Poisoned (a : Annotations) : Prop :=
  (∃ id t, a.expression? id = some t ∧ t.isInvalid = true) ∨
    ∃ id t, a.var? id = some t ∧ t.isInvalid = true

theorem Annotations.not_poisoned {a : Annotations}
    (expressions : ∀ entry ∈ a.expressions, entry.2.isInvalid = false)
    (vars : ∀ entry ∈ a.vars, entry.2.isInvalid = false) : ¬ a.Poisoned := by
  have valid {table : TypeTable} (all : ∀ entry ∈ table, entry.2.isInvalid = false)
      {id : NodeId} {t : Ty} (found : table.get? id = some t) : ¬ t.isInvalid = true :=
    Bool.eq_false_iff.mp (all (id, t) (TypeTable.mem_of_get? found))
  rintro (⟨id, t, found, isInvalid⟩ | ⟨id, t, found, isInvalid⟩)
  · exact valid expressions found isInvalid
  · exact valid vars found isInvalid

variable {unit : SourceUnit} {settings : Settings} {report : Report}

/-! ## The end of a check -/

namespace Ending

variable {E : Ending}

/-- The checks of parts record what stands in these parts only. -/
theorem recorded_of_parts {parts : List UnitPart} (inside : parts ⊆ E.unit.parts) {σ τ : Findings}
    (run : parts.forM Check.unitPart (Check.contextOf E.unit E.settings) σ = .ok ((), τ))
    (id : NodeId) :
    ((τ.expression? id).isSome → id ∈ (Inventory.all UnitPart.inventory parts).nodeIds ∨
      (σ.expression? id).isSome) ∧
    ((τ.var? id).isSome → id ∈ (Inventory.all UnitPart.inventory parts).varIds ∨
      (σ.var? id).isSome) := by
  have covers : (Site.ofUnit E.unit E.settings).Covers (.all UnitPart.inventory parts)
    (parts.forM Check.unitPart) :=
    .forM fun part mem => (legal_ofUnit E.unit E.settings).unitPart
      (SourceUnit.part_within (inside mem)) fun _ _ _ _ _ _ => trivial
  obtain ⟨outcome, ran, accounts, -⟩ := covers σ nofun
  have ended : outcome.after σ = .ok ((), τ) := ran.symm.trans run
  cases outcome with
  | error fault => cases ended
  | ok result =>
    have grown : σ.grow result.2 = τ := congrArg Prod.snd (Except.ok.inj ended)
    rw [← grown]
    constructor
    · intro found
      refine ((Findings.isSome_expression?_grow σ _ id).mp found).imp_left fun typed => ?_
      exact mem_of_count_le (accounts.typed id) typed
    · intro found
      refine ((Findings.isSome_var?_grow σ _ id).mp found).imp_left fun declared => ?_
      exact mem_of_count_le (accounts.declared id) declared

/-- Only what stands in the unit is recorded. -/
theorem Reached.recorded (reached : E.Reached) {id : NodeId} {t : Ty} :
    (E.found.expression? id = some t → ∃ e ∈ E.unit.inventory.nodes, e.id = id) ∧
      (E.found.var? id = some t → ∃ v ∈ E.unit.inventory.vars ++ E.unit.inventory.fields,
        v.id = id) := by
  obtain ⟨typed, declared⟩ := recorded_of_parts (List.Subset.refl _) reached id
  constructor
  · intro found
    exact mem_map.mp ((typed (Option.isSome_of_mem found)).resolve_right nofun)
  · intro found
    exact mem_map.mp ((declared (Option.isSome_of_mem found)).resolve_right nofun)

/-- Whether the type name of a variable resolves and a clean type is recorded for it. -/
def Declared (E : Ending) (v : Variable) : Prop :=
  E.declarations.Typed v ∧ ∃ t, E.found.var? v.id = some t ∧ t.Clean

/-- What is known at the end about a piece of source: variables have types that resolve, and
expressions have clean types once all variables of the unit are known to have some. -/
structure Covers (E : Ending) (I : Inventory) : Prop where
  vars : ∀ v ∈ I.vars, E.Declared v
  fields : ∀ v ∈ I.fields, E.Declared v
  nodes : E.Settled → ∀ n ∈ I.nodes, E.Sound n

/-- A check that passes gets to everything. -/
theorem Reached.covers (reached : E.Reached) (passes : E.Passes) : E.Covers E.unit.inventory := by
  have declared : ∀ v ∈ E.unit.inventory.vars ++ E.unit.inventory.fields, E.Declared v := by
    intro v mem
    obtain ⟨part, inUnit, inPart⟩ := Inventory.mem_all.mp mem
    obtain ⟨t, recorded, sound | ⟨d, mem, isError⟩⟩ :=
      (traces_of_partBody (reached.partBody passes part inUnit)).2 v inPart
    · exact ⟨sound.1, t, recorded, sound.2⟩
    · rw [passes.errors d mem] at isError
      cases isError
  refine ⟨fun v mem => declared v (mem_append_left _ mem),
    fun v mem => declared v (mem_append_right _ mem), fun settled e mem => ?_⟩
  rw [← E.unit.visitNodes_visits] at mem
  obtain ⟨visit, inVisits, inside⟩ := mem_flatMap.mp mem
  have nodes : visit.expr.nodes ⊆ E.unit.inventory.nodes := by
    rw [← E.unit.visitNodes_visits]
    exact fun n inExpr => mem_flatMap.mpr ⟨visit, inVisits, inExpr⟩
  have sound : ∀ n ∈ visit.expr.visited E.found.annotations, E.Sound n := fun n visited =>
    (visited_of_made (reached.made passes visit inVisits) n visited).sound
      (List.Subset.trans (Expr.nodes_of_visited visit.expr visited) nodes) settled
  rw [← reached.visited_eq_nodes passes inVisits fun n visited recorded => ?_] at inside
  · exact sound e inside
  · obtain ⟨t, recorded', clean, -⟩ := sound n visited
    cases recorded.symm.trans recorded'
    cases clean.not_isInvalid

theorem Reached.yields (reached : E.Reached) :
    ({} : Findings).Extends E.found ∧ (E.Passes → E.Covers E.unit.inventory) :=
  ⟨(Check.parts_extends rfl reached).1, reached.covers⟩

theorem Reached.passes (reached : E.Reached)
    (clear : ∀ d ∈ E.found.diagnostics, d.isError = false) : E.Passes := by
  refine ⟨clear, (reached.yields.1.reported rfl).resolve_right ?_⟩
  rintro ⟨d, mem, isError⟩
  rw [clear d mem] at isError
  cases isError

theorem Covers.vars_clean (covers : E.Covers E.unit.inventory) (reached : E.Reached) {id : NodeId}
    {t : Ty} (found : E.found.var? id = some t) : t.Clean := by
  obtain ⟨v, mem, rfl⟩ := reached.recorded.2 found
  have declared : E.Declared v := forall_mem_append.mpr ⟨covers.vars, covers.fields⟩ v mem
  obtain ⟨-, t', recorded, clean⟩ := declared
  cases found.symm.trans recorded
  exact clean

theorem Covers.settled (covers : E.Covers E.unit.inventory) (reached : E.Reached)
    (passes : E.Passes) (silent : ∀ e ∈ E.unit.inventory.nodes, e.Silent E.found.annotations →
      E.found.expression? e.id ≠ some .invalid) : E.Settled where
  toPasses := passes
  silent := silent
  vars id t found := covers.vars_clean reached found
  declared v mem := by
    obtain ⟨w, inUnit, inner⟩ := mem_variablesWithInner.mp mem
    have declared : E.Declared w := forall_mem_append.mpr ⟨covers.vars, covers.fields⟩ w inUnit
    exact Declarations.inner_declaredType w declared.1.declaredType inner

end Ending

theorem Report.no_errors (passed : report.passed = true) :
    ∀ d ∈ report.diagnostics, d.isError = false := by
  intro d mem
  rw [Report.passed, Bool.not_eq_true', any_eq_false] at passed
  exact Bool.eq_false_iff.mpr (passed d mem)

/-- A check that passes reports what it has reached, without errors. -/
theorem exists_reached (checked : check unit settings = .ok report)
    (passed : report.passed = true) : ∃ found, report = ⟨found.annotations, found.diagnostics⟩ ∧
      (Ending.mk unit settings found).Reached ∧ (Ending.mk unit settings found).Passes := by
  obtain ⟨found, run, rfl⟩ := check_ok.mp checked
  have reached : (Ending.mk unit settings found).Reached := run
  exact ⟨found, rfl, reached, reached.passes (Report.no_errors passed)⟩

/-! ## The invalid type -/

/-- A check that passes records an invalid type only silently, and never for a variable. -/
theorem poisoned_iff_silent (checked : check unit settings = .ok report)
    (passed : report.passed = true) :
    (report.annotations.Poisoned ↔ ∃ e ∈ unit.inventory.nodes, e.Silent report.annotations) ∧
      ∀ id t, report.annotations.var? id = some t → t.isInvalid = false := by
  obtain ⟨found, rfl, reached, passes⟩ := exists_reached checked passed
  have covers := reached.yields.2 passes
  have vars : ∀ id t, found.annotations.var? id = some t → t.isInvalid = false :=
    fun id t recorded => (covers.vars_clean reached recorded).not_isInvalid
  refine ⟨⟨fun poisoned => ?_, fun ⟨e, mem, silent⟩ => ?_⟩, vars⟩
  · refine Classical.byContradiction fun loud => ?_
    have settled := covers.settled reached passes fun e mem silent => absurd ⟨e, mem, silent⟩ loud
    rcases poisoned with ⟨id, t, recorded, isInvalid⟩ | ⟨id, t, recorded, isInvalid⟩
    · obtain ⟨e, mem, rfl⟩ := reached.recorded.1 recorded
      obtain ⟨t', recorded', clean, -⟩ := covers.nodes settled e mem
      cases recorded.symm.trans recorded'
      rw [clean.not_isInvalid] at isInvalid
      cases isInvalid
    · rw [vars id t recorded] at isInvalid
      cases isInvalid
  · refine Classical.byContradiction fun pure => ?_
    have settled := covers.settled reached passes fun e mem _ recorded =>
      pure (.inl ⟨e.id, .invalid, recorded, rfl⟩)
    obtain ⟨-, -, -, loud⟩ := covers.nodes settled e mem
    exact loud silent

/-- A contract with two functions of one name, and a third that runs an expression. -/
def overloadUnit (e : Expr) : SourceUnit :=
  let node (id : Int64) : Node := ⟨⟨id⟩, .unknown⟩
  let function (id block : Int64) (name : String) (parameters : List Variable)
      (body : List Statement) : Function :=
    { (default : Function) with
      node := node id, name, parameters, body := some (.mk (node block) body false) }
  let parameter (id type : Int64) (name : String) : Variable :=
    .mk { node := node id, name := "x" } (some (.elementary (node type) name false)) none
  { node := node 1
    path := "overload"
    abiCoder := none
    parts := [.contract ⟨node 2, "Overload", .contract, false, [], [],
      [.function (function 3 6 "f" [parameter 4 5 "bool"] []),
        .function (function 7 10 "f" [parameter 8 9 "address"] []),
        .function (function 11 13 "g" [] [.expression (node 12) e])]⟩] }

/-- The call `(f)(true)`. The argument does not reach the name behind the parentheses. -/
def parenthesizedCall : Expr :=
  .call ⟨⟨20⟩, .unknown⟩
    (.tuple ⟨⟨21⟩, .unknown⟩ [some (.identifier ⟨⟨22⟩, .unknown⟩ "f" none [⟨3⟩, ⟨7⟩])] false)
    [.literal ⟨⟨23⟩, .unknown⟩ .bool "true" none] []

/-- The assignment `() = true`, with one component left out. -/
def emptyAssignment : Expr :=
  .assignment ⟨⟨20⟩, .unknown⟩ none (.tuple ⟨⟨21⟩, .unknown⟩ [none] false)
    (.literal ⟨⟨22⟩, .unknown⟩ .bool "true" none)

theorem poisoned_iff_silent_overload :
    (∃ report, check (overloadUnit parenthesizedCall) {} = .ok report ∧ report.passed = true ∧
      report.annotations.Poisoned) ∧
    (∃ report, check (overloadUnit emptyAssignment) {} = .ok report ∧ report.passed = true ∧
      report.annotations.Poisoned) ∧
    ∃ report, check (overloadUnit (.literal ⟨⟨20⟩, .unknown⟩ .bool "true" none)) {} = .ok report ∧
      report.passed = true ∧ ¬ report.annotations.Poisoned := by
  refine ⟨⟨_, rfl, rfl, ?_⟩, ⟨_, rfl, rfl, ?_⟩, ⟨_, rfl, rfl, ?_⟩⟩
  · exact (@poisoned_iff_silent (overloadUnit parenthesizedCall) {} _ rfl rfl).1.mpr
      ⟨parenthesizedCall, .head _, _, rfl⟩
  · exact (@poisoned_iff_silent (overloadUnit emptyAssignment) {} _ rfl rfl).1.mpr
      ⟨.tuple ⟨⟨21⟩, .unknown⟩ [none] false, .tail _ (.head _), trivial⟩
  · intro poisoned
    obtain ⟨e, mem, silent⟩ := (@poisoned_iff_silent
      (overloadUnit (.literal ⟨⟨20⟩, .unknown⟩ .bool "true" none)) {} _ rfl rfl).1.mp poisoned
    cases List.mem_singleton.mp mem
    exact silent

/-- A check that passes can record the invalid type. -/
theorem passed_check_may_be_poisoned :
    ¬ ∀ unit settings report, check unit settings = .ok report → report.passed = true →
      ¬ report.annotations.Poisoned :=
  fun pure => pure (overloadUnit parenthesizedCall) {} _ rfl rfl (.inl ⟨⟨20⟩, .invalid, rfl, rfl⟩)

/-! ## Completeness -/

/-- A check that passes without an invalid type has types for all expressions and variables. -/
theorem annotations_complete (checked : check unit settings = .ok report)
    (passed : report.passed = true) (pure : ¬ report.annotations.Poisoned) :
    (∀ e ∈ unit.inventory.nodes, ∃ t, report.annotations.expression? e.id = some t) ∧
      ∀ v ∈ unit.inventory.vars ++ unit.inventory.fields,
        ∃ t, report.annotations.var? v.id = some t := by
  obtain ⟨found, rfl, reached, passes⟩ := exists_reached checked passed
  have covers := reached.yields.2 passes
  have settled := covers.settled reached passes fun e mem _ recorded =>
    pure (.inl ⟨e.id, .invalid, recorded, rfl⟩)
  constructor
  · intro e mem
    obtain ⟨t, recorded, -⟩ := covers.nodes settled e mem
    exact ⟨t, recorded⟩
  · intro v mem
    have declared : Ending.Declared _ v :=
      List.forall_mem_append.mpr ⟨covers.vars, covers.fields⟩ v mem
    obtain ⟨-, t, recorded, -⟩ := declared
    exact ⟨t, recorded⟩

theorem annotations_complete_flag :
    ∃ report, check (flagUnit ⟨8⟩ ⟨3⟩) {} = .ok report ∧ report.passed = true ∧
      ¬ report.annotations.Poisoned ∧
      (∀ e ∈ (flagUnit ⟨8⟩ ⟨3⟩).inventory.nodes, ∃ t,
        report.annotations.expression? e.id = some t) ∧
      ∃ t, report.annotations.var? ⟨3⟩ = some t := by
  have pure : ¬ Annotations.Poisoned ⟨[(⟨7⟩, .bool), (⟨8⟩, .bool), (⟨9⟩, .bool)], [(⟨3⟩, .bool)]⟩ :=
    Annotations.not_poisoned (by decide) (by decide)
  have complete := @annotations_complete (flagUnit ⟨8⟩ ⟨3⟩) {} _ rfl rfl pure
  exact ⟨_, rfl, rfl, pure, complete.1, complete.2 _ (.head _)⟩

end ContractTyping
