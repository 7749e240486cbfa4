import ContractTyping.Proofs.Cycle.Inheritance
import ContractTyping.Proofs.Passing.Unit

/-!
# Reports of inheritance cycles

The check of a source unit leaves out the members of a contract exactly if the contract leads to a
cycle, and the reports of cycles are about different contracts that lie on cycles, at least one
behind each contract that is left out (`inheritance_cycles_reported`). `Marked` is what the run over
the parts keeps.
-/

namespace ContractTyping

open Check List Inventory Declarations Bool
variable {found : Findings}

/-- The report of a cycle at a contract. -/
def Contract.cycleReport (c : Contract) : Diagnostic := ⟨.inheritanceCycle c.name, c.span, .error⟩

def Diagnostic.isCycleReport (d : Diagnostic) : Bool :=
  match d.issue with
  | .inheritanceCycle _ => true
  | _ => false

theorem Diagnostic.not_cycleReport {d : Diagnostic} (ordinary : d.isOrdinary) :
    d.isCycleReport = false := by
  unfold Diagnostic.isOrdinary at ordinary
  unfold Diagnostic.isCycleReport
  split
  · next issue => rw [issue] at ordinary; cases ordinary
  · rfl

/-- Whether a contract is another one or has it among its bases, at any distance. -/
def SourceUnit.Below (unit : SourceUnit) (id base : NodeId) : Prop :=
  id = base ∨ Graph.Reaches (ofUnit unit).basesOf id base

/-- Whether a contract leads to an inheritance cycle. -/
def SourceUnit.Cyclic (unit : SourceUnit) (c : Contract) : Prop :=
  Graph.LeadsToCycle (ofUnit unit).basesOf c.id

/-! ## What the run keeps -/

/-- The findings inside the check of a unit, with the contracts that cycles were reported at. -/
structure Marked (unit : SourceUnit) (anchors : List Contract) (σ : Findings) : Prop where
  reports : σ.diagnostics.filter Diagnostic.isCycleReport = anchors.map Contract.cycleReport
  distinct : (anchors.map Contract.id).Nodup
  inUnit : ∀ a ∈ anchors, .contract a ∈ unit.parts
  onCycle : ∀ a ∈ anchors, Graph.Reaches (ofUnit unit).basesOf a.id a.id
  marked : ∀ a ∈ anchors, a.id ∈ σ.cyclic
  behind : ∀ id ∈ σ.cyclic, ∃ a ∈ anchors, unit.Below id a.id

namespace Marked

variable {unit : SourceUnit} {settings : Settings} {anchors : List Contract} {σ τ : Findings}
  {c : Contract} {cycle : List NodeId}

theorem start (unit : SourceUnit) : Marked unit [] {} :=
  ⟨rfl, nodup_nil, nofun, nofun, nofun, nofun⟩

variable (marked : Marked unit anchors σ)

include marked

/-- Inside a part nothing is reported about cycles. -/
theorem precedes (precedes : σ.Precedes τ) : Marked unit anchors τ where
  reports := by
    obtain ⟨new, equal, ordinary⟩ := precedes.diagnostics
    have none : new.filter Diagnostic.isCycleReport = [] :=
      filter_eq_nil_iff.mpr fun d mem =>
        eq_false_iff.mp (Diagnostic.not_cycleReport (ordinary d mem))
    rw [equal, filter_append, none, append_nil, marked.reports]
  distinct := marked.distinct
  inUnit := marked.inUnit
  onCycle := marked.onCycle
  marked := precedes.cyclic ▸ marked.marked
  behind := precedes.cyclic ▸ marked.behind

/-- What is marked leads to a cycle. -/
theorem cyclic (mem : c.id ∈ σ.cyclic) : unit.Cyclic c := by
  obtain ⟨a, inAnchors, below⟩ := marked.behind _ mem
  rcases below with same | reaches
  · exact ⟨a.id, .inl same.symm, marked.onCycle a inAnchors⟩
  · exact ⟨a.id, .inr reaches, marked.onCycle a inAnchors⟩

/-- A cycle that meets a marked contract is already reported further on. -/
theorem again (closed : Graph.IsCycle (ofUnit unit).basesOf cycle)
    (inside : ∀ id ∈ cycle, id = c.id ∨ Graph.Reaches (ofUnit unit).basesOf c.id id)
    (met : cycle.any σ.cyclic.contains = true) :
    Marked unit anchors { σ with cyclic := c.id :: (cycle ++ σ.cyclic) } := by
  obtain ⟨w, onCycle, known⟩ := any_eq_true.mp met
  obtain ⟨a, inAnchors, below⟩ := marked.behind w (contains_iff_mem.mp known)
  have behind (id : NodeId) (reaches : Graph.Reaches (ofUnit unit).basesOf id w) :
      unit.Below id a.id := by
    rcases below with rfl | further
    · exact .inr reaches
    · exact .inr (reaches.trans further)
  refine ⟨marked.reports, marked.distinct, marked.inUnit, marked.onCycle, fun b mem => ?_, ?_⟩
  · exact mem_cons_of_mem _ (mem_append_right _ (marked.marked b mem))
  · refine forall_mem_cons.mpr ⟨⟨a, inAnchors, ?_⟩, forall_mem_append.mpr
      ⟨fun id mem => ⟨a, inAnchors, behind id (closed.reaches mem onCycle)⟩, marked.behind⟩⟩
    rcases inside w onCycle with rfl | reaches
    · exact below
    · exact behind c.id reaches

/-- A cycle that meets no marked contract is reported at one that no other report is about. -/
theorem anew (closed : Graph.IsCycle (ofUnit unit).basesOf cycle)
    (inside : ∀ id ∈ cycle, id = c.id ∨ Graph.Reaches (ofUnit unit).basesOf c.id id)
    (met : cycle.any σ.cyclic.contains = false) {anchor : Contract}
    (inUnit : .contract anchor ∈ unit.parts) (onCycle : anchor.id ∈ cycle) :
    Marked unit (anchors ++ [anchor]) { σ with
      cyclic := c.id :: (cycle ++ σ.cyclic)
      diagnostics := σ.diagnostics ++ [anchor.cycleReport] } where
  reports := by
    rw [filter_append, marked.reports, map_append]
    rfl
  distinct := by
    rw [map_append, nodup_append]
    refine ⟨marked.distinct, nodup_singleton _, fun id inAnchors id' last equal => ?_⟩
    obtain ⟨a, mem, rfl⟩ := mem_map.mp inAnchors
    cases mem_singleton.mp last
    have new := any_eq_false.mp met _ onCycle
    exact new (contains_iff_mem.mpr (equal ▸ marked.marked a mem))
  inUnit := forall_mem_append.mpr ⟨marked.inUnit, forall_mem_singleton.mpr inUnit⟩
  onCycle := forall_mem_append.mpr
    ⟨marked.onCycle, forall_mem_singleton.mpr (closed.reaches onCycle onCycle)⟩
  marked := forall_mem_append.mpr
      ⟨fun a mem => mem_cons_of_mem _ (mem_append_right _ (marked.marked a mem)),
      forall_mem_singleton.mpr (mem_cons_of_mem _ (mem_append_left _ onCycle))⟩
  behind := by
    have last : anchor ∈ anchors ++ [anchor] := mem_append_right _ (mem_singleton_self _)
    refine forall_mem_cons.mpr ⟨⟨anchor, last, ?_⟩, forall_mem_append.mpr
      ⟨fun id mem => ⟨anchor, last, .inr (closed.reaches mem onCycle)⟩, fun id mem => ?_⟩⟩
    · exact (inside _ onCycle).imp Eq.symm id
    · obtain ⟨a, inAnchors, below⟩ := marked.behind id mem
      exact ⟨a, mem_append_left _ inAnchors, below⟩

end Marked

/-! ## Contracts -/

section Run

variable {unit : SourceUnit} {settings : Settings} {anchors : List Contract} {σ τ : Findings}
  {c : Contract}
variable {part : UnitPart}

/-- The question for a cycle is answered right. If there is one, the contract is only marked. -/
theorem isCyclic_ok (apart : unit.DeclaresApart) (mem : .contract c ∈ unit.parts)
    (marked : Marked unit anchors σ) {answer : Bool}
    (run : isCyclic c (contextOf unit settings) σ = .ok (answer, τ)) :
    (answer = true ↔ unit.Cyclic c) ∧ (answer = false → τ = σ) ∧
      (answer = true → τ.annotations = σ.annotations ∧ c.id ∈ τ.cyclic) ∧
      τ.emitPending = σ.emitPending ∧ ∃ anchors', Marked unit anchors' τ := by
  have none_iff := cycle?_eq_none_iff apart mem
  rw [isCyclic_run] at run
  by_cases known : σ.cyclic.contains c.id = true
  · rw [if_pos known] at run
    cases run
    have inside := contains_iff_mem.mp known
    exact ⟨iff_of_true rfl (marked.cyclic inside), (absurd · false_ne_true.symm),
      fun _ => ⟨rfl, inside⟩, rfl, anchors, marked⟩
  rw [if_neg known] at run
  have context : (contextOf unit settings).declarations = ofUnit unit := rfl
  rw [context] at run
  cases found : (ofUnit unit).cycle? c with
  | none =>
    rw [found] at run
    cases run
    exact ⟨iff_of_false false_ne_true (none_iff.mp found), fun _ => rfl, (absurd · false_ne_true),
      rfl, anchors, marked⟩
  | some cycle =>
    rw [found] at run
    cases run
    obtain ⟨closed, inside⟩ := isCycle_of_cycle? apart mem found
    have leads : unit.Cyclic c := by
      refine Classical.byContradiction fun harmless => ?_
      rw [none_iff.mpr harmless] at found
      cases found
    refine ⟨iff_of_true rfl leads, (absurd · false_ne_true.symm),
      fun _ => ⟨rfl, mem_cons_self⟩, rfl, ?_⟩
    unfold cycleFindings
    dsimp only
    by_cases met : cycle.any σ.cyclic.contains = true
    · rw [if_pos met, append_nil]
      exact ⟨anchors, marked.again closed inside met⟩
    rw [if_neg met]
    -- The first contract of the cycle is one of the unit, so the report is about it.
    obtain ⟨v, starts, -⟩ := closed.closed
    have first : v ∈ cycle := mem_of_mem_head? starts
    obtain ⟨anchor, isContract⟩ :=
      exists_contract_of_reaches (closed.reaches first first)
    have same : v = anchor.id := (contract?_occurs isContract).1
    have anchored : (cycle.head?.bind (ofUnit unit).contract?).getD c = anchor := by
      rw [starts, Option.bind_some, isContract, Option.getD_some]
    rw [context, anchored]
    exact ⟨anchors ++ [anchor], marked.anew closed inside (eq_false_iff.mpr met)
      (mem_parts_of_contract? isContract) (same ▸ first)⟩

/-- Inside the check of a unit, between its parts. -/
structure Between (unit : SourceUnit) (σ : Findings) : Prop where
  calm : σ.emitPending = false
  marked : ∃ anchors, Marked unit anchors σ

theorem Between.precedes (between : Between unit σ) (precedes : σ.Precedes τ) : Between unit τ := by
  obtain ⟨anchors, marked⟩ := between.marked
  exact ⟨precedes.emitPending between.calm, anchors, marked.precedes precedes⟩

variable (apart : unit.DeclaresApart)

include apart

/-- A contract without a cycle behind it is visited as a whole; of any other, nothing is typed. -/
theorem contract_ok (mem : .contract c ∈ unit.parts) (between : Between unit σ)
    (run : contract c (contextOf unit settings) σ = .ok ((), τ)) :
    Between unit τ ∧ (unit.Cyclic c → isCyclic c (contextOf unit settings) σ = .ok (true, τ) ∧
        τ.annotations = σ.annotations ∧ c.id ∈ τ.cyclic) ∧
      (¬ unit.Cyclic c → isCyclic c (contextOf unit settings) σ = .ok (false, σ) ∧
        (∀ visit ∈ c.visits, visit.Made (contextOf unit settings) τ) ∧
        ∀ v ∈ c.variables, v.TypedIn (contextOf unit settings) τ) := by
  obtain ⟨anchors, marked⟩ := between.marked
  obtain ⟨answer, υ, asked, run⟩ := bind_ok.mp run
  obtain ⟨right, same, left, pending, still⟩ := isCyclic_ok apart mem marked asked
  cases answer with
  | true =>
    cases run
    exact ⟨⟨pending.trans between.calm, still⟩, fun _ => ⟨asked, left rfl⟩,
      fun harmless => absurd (right.mp rfl) harmless⟩
  | false =>
    cases same rfl
    have walks : Walks (fun _ => True) (contextOf unit settings) c.visits c.inventory (members c) :=
      .members fun _ _ => trivial
    obtain ⟨precedes, made, typed⟩ := walks.result between.calm run
    exact ⟨between.precedes precedes, fun cyclic => absurd (right.mpr cyclic) nofun,
      fun _ => ⟨asked, made, fun v mem => typed v (c.variables_subset mem)⟩⟩

theorem unitPart_between (mem : part ∈ unit.parts) (between : Between unit σ)
    (run : unitPart part (contextOf unit settings) σ = .ok ((), τ)) : Between unit τ := by
  obtain ⟨υ, rfl | ⟨c, answer, rfl, -⟩, after⟩ := unitPart_ok run
  · exact between.precedes (after between.calm)
  · exact (contract_ok apart mem between run).1

theorem parts_between {parts : List UnitPart} (inside : parts ⊆ unit.parts)
    (between : Between unit σ)
    (run : parts.forM unitPart (contextOf unit settings) σ = .ok ((), τ)) : Between unit τ := by
  induction parts generalizing σ with
  | nil =>
    cases run
    exact between
  | cons part rest ih =>
    obtain ⟨inUnit, others⟩ := cons_subset.mp inside
    obtain ⟨_, υ, first, run⟩ := bind_ok.mp run
    exact ih others (unitPart_between apart inUnit between first) run

omit apart

/-! ## The place of a contract in the run -/

/-- The run over the parts of a unit, stopped before and after one of them. -/
structure Stop (unit : SourceUnit) (settings : Settings) (part : UnitPart) (found : Findings) where
  before : List UnitPart
  after : List UnitPart
  parts : unit.parts = before ++ part :: after
  σ : Findings
  τ : Findings
  arrive : before.forM unitPart (contextOf unit settings) {} = .ok ((), σ)
  pass : unitPart part (contextOf unit settings) σ = .ok ((), τ)
  leave : after.forM unitPart (contextOf unit settings) τ = .ok ((), found)

theorem exists_stop (mem : part ∈ unit.parts)
    (run : unit.parts.forM unitPart (contextOf unit settings) {} = .ok ((), found)) :
    Nonempty (Stop unit settings part found) := by
  obtain ⟨before, after, parts⟩ := append_of_mem mem
  rw [parts, forM_eq_forM, forM_append] at run
  obtain ⟨_, σ, arrive, run⟩ := bind_ok.mp run
  rw [forM_cons] at run
  obtain ⟨_, τ, pass, leave⟩ := bind_ok.mp run
  exact ⟨⟨before, after, parts, σ, τ, arrive, pass, leave⟩⟩

namespace Stop

variable {part : UnitPart} {found : Findings}
variable (stop : Stop unit settings part found)

theorem before_subset : stop.before ⊆ unit.parts := by
  rw [stop.parts]
  exact subset_append_left _ _

theorem after_subset : stop.after ⊆ unit.parts := by
  rw [stop.parts]
  exact subset_append_of_subset_right _ (subset_cons_self _ _)

theorem between (apart : unit.DeclaresApart) : Between unit stop.σ :=
  parts_between apart stop.before_subset ⟨rfl, [], Marked.start unit⟩ stop.arrive

theorem extends_ : stop.τ.Extends found := by
  have calm := (parts_extends rfl stop.arrive).2
  exact (parts_extends (unitPart_extends calm stop.pass).2 stop.leave).1

/-- What stands in a part that records nothing is recorded nowhere, if identities are not shared. -/
theorem unrecorded (silent : stop.τ.annotations = stop.σ.annotations) (id : NodeId) :
    (unit.inventory.nodeIds.Nodup → id ∈ part.inventory.nodeIds → found.expression? id = none) ∧
      (unit.inventory.varIds.Nodup → id ∈ part.inventory.varIds → found.var? id = none) := by
  have inventory : unit.inventory = .all UnitPart.inventory stop.before ++
      (part.inventory ++ .all UnitPart.inventory stop.after) := by
    rw [SourceUnit.inventory, stop.parts, Inventory.all_append, Inventory.all_cons]
  have elsewhere {here before after : List NodeId} (mem : id ∈ here)
      (once : before.count id + (here.count id + after.count id) ≤ 1) :
      id ∉ before ∧ id ∉ after := by
    have inside := count_pos_iff.mpr mem
    exact ⟨count_eq_zero.mp (by omega), count_eq_zero.mp (by omega)⟩
  obtain ⟨typedBefore, declaredBefore⟩ :=
    @Ending.recorded_of_parts ⟨unit, settings, found⟩ _ stop.before_subset _ _ stop.arrive id
  obtain ⟨typedAfter, declaredAfter⟩ :=
    @Ending.recorded_of_parts ⟨unit, settings, found⟩ _ stop.after_subset _ _ stop.leave id
  constructor
  · intro distinct here
    have once := nodup_iff_count_le_one.mp distinct id
    rw [inventory, nodeIds_append, nodeIds_append, count_append, count_append] at once
    obtain ⟨notBefore, notAfter⟩ := elsewhere here once
    refine Option.not_isSome_iff_eq_none.mp fun recorded => ?_
    have passed := (typedAfter recorded).resolve_left notAfter
    rw [Findings.expression?, silent] at passed
    cases (typedBefore passed).resolve_left notBefore
  · intro distinct here
    have once := nodup_iff_count_le_one.mp distinct id
    rw [inventory, count_varIds_append, count_varIds_append] at once
    obtain ⟨notBefore, notAfter⟩ := elsewhere here once
    refine Option.not_isSome_iff_eq_none.mp fun recorded => ?_
    have passed := (declaredAfter recorded).resolve_left notAfter
    rw [Findings.var?, silent] at passed
    cases (declaredBefore passed).resolve_left notBefore

end Stop

end Run

/-! ## The whole unit -/

/-- Whether the check of a unit goes on to the members of a contract when it gets there. -/
def SourceUnit.Enters (unit : SourceUnit) (settings : Settings) (c : Contract) : Prop :=
  ∃ before after σ τ, unit.parts = before ++ .contract c :: after ∧
    before.forM unitPart (contextOf unit settings) {} = .ok ((), σ) ∧
    isCyclic c (contextOf unit settings) σ = .ok (false, τ)

/-- Whether everything in a contract is typed that stands by itself: expressions and variables. -/
def Annotations.Cover (a : Annotations) (c : Contract) : Prop :=
  (∀ visit ∈ c.visits, (a.expression? visit.expr.id).isSome) ∧
    ∀ v ∈ c.variables, (a.var? v.id).isSome

/-- Whether nothing in a contract is typed. -/
def Annotations.Omit (a : Annotations) (c : Contract) : Prop :=
  (∀ e ∈ c.inventory.nodes, a.expression? e.id = none) ∧
    ∀ v ∈ c.inventory.vars ++ c.inventory.fields, a.var? v.id = none

section Unit

variable {unit : SourceUnit} {settings : Settings} {report : Report}

theorem enters_iff (apart : unit.DeclaresApart)
    (run : unit.parts.forM unitPart (contextOf unit settings) {} = .ok ((), found)) {c : Contract}
    (mem : .contract c ∈ unit.parts) : unit.Enters settings c ↔ ¬ unit.Cyclic c := by
  constructor
  · rintro ⟨before, after, σ, τ, parts, arrive, asked⟩
    have inside : before ⊆ unit.parts := parts ▸ subset_append_left _ _
    obtain ⟨anchors, marked⟩ :=
      (parts_between apart inside ⟨rfl, [], Marked.start unit⟩ arrive).marked
    exact fun cyclic => absurd ((isCyclic_ok apart mem marked asked).1.mpr cyclic) nofun
  · intro harmless
    obtain ⟨stop⟩ := exists_stop mem run
    obtain ⟨asked, -⟩ := (contract_ok apart mem (stop.between apart) stop.pass).2.2 harmless
    exact ⟨stop.before, stop.after, stop.σ, stop.σ, stop.parts, stop.arrive, asked⟩

/-- The members of a contract are checked exactly if it leads to no inheritance cycle. Cycles are
reported at different contracts that lie on a cycle, and a contract that leads to a cycle has one of
these among its bases or is one of them. -/
theorem inheritance_cycles_reported (apart : unit.DeclaresApart)
    (nodes : unit.inventory.nodeIds.Nodup)
    (vars : unit.inventory.varIds.Nodup) (checked : check unit settings = .ok report) :
    (∀ c, .contract c ∈ unit.parts →
      (unit.Enters settings c ↔ ¬ unit.Cyclic c) ∧
      (¬ unit.Cyclic c → report.annotations.Cover c) ∧
        (unit.Cyclic c → report.annotations.Omit c)) ∧
    ∃ anchors : List Contract,
      report.diagnostics.filter Diagnostic.isCycleReport = anchors.map Contract.cycleReport ∧
      (anchors.map Contract.id).Nodup ∧
      (∀ a ∈ anchors, .contract a ∈ unit.parts ∧
        Graph.Reaches (Declarations.ofUnit unit).basesOf a.id a.id) ∧
      ∀ c, .contract c ∈ unit.parts → unit.Cyclic c → ∃ a ∈ anchors, unit.Below c.id a.id := by
  obtain ⟨found, run, rfl⟩ := check_ok.mp checked
  obtain ⟨anchors, marked⟩ :=
    (parts_between apart (List.Subset.refl _) ⟨rfl, [], Marked.start unit⟩ run).marked
  refine ⟨fun c mem => ⟨enters_iff apart run mem, fun harmless => ?_, fun cyclic => ?_⟩,
    anchors, marked.reports, marked.distinct,
    fun a inAnchors => ⟨marked.inUnit a inAnchors, marked.onCycle a inAnchors⟩,
    fun c mem cyclic => ?_⟩
  · obtain ⟨stop⟩ := exists_stop mem run
    obtain ⟨-, made, typed⟩ := (contract_ok apart mem (stop.between apart) stop.pass).2.2 harmless
    constructor
    · intro visit inside
      obtain ⟨σ, t, υ, -, visited, later⟩ := (made visit inside).run
      have recorded := Check.Records.expression _ _ _ _ _ _ visited
      exact Option.isSome_of_mem ((later.trans stop.extends_).expression _ _ recorded)
    · intro v inside
      obtain ⟨t, recorded, -⟩ := typed v inside
      exact Option.isSome_of_mem (stop.extends_.var _ _ recorded)
  · obtain ⟨stop⟩ := exists_stop mem run
    obtain ⟨-, silent, -⟩ := (contract_ok apart mem (stop.between apart) stop.pass).2.1 cyclic
    exact ⟨fun e inside => (stop.unrecorded silent e.id).1 nodes (List.mem_map_of_mem inside),
      fun v inside => (stop.unrecorded silent v.id).2 vars (List.mem_map_of_mem inside)⟩
  · obtain ⟨stop⟩ := exists_stop mem run
    obtain ⟨-, -, isMarked⟩ := (contract_ok apart mem (stop.between apart) stop.pass).2.1 cyclic
    exact marked.behind _ (stop.extends_.cyclic isMarked)

/-- A contract with one base and no parts. -/
def derivedContract (id specifier path base : Int64) (name : String) : Contract :=
  { node := ⟨⟨id⟩, .unknown⟩, name, kind := .contract, isAbstract := false,
    linearization := [], parts := []
    bases := [⟨⟨⟨specifier⟩, .unknown⟩, ⟨⟨⟨path⟩, .unknown⟩, ["base"], some ⟨base⟩⟩, none⟩] }

/-- A contract with a state variable and no bases. -/
def flagContract : Contract :=
  { node := ⟨⟨5⟩, .unknown⟩, name := "Flag", kind := .contract, isAbstract := false,
    linearization := [], bases := []
    parts := [.stateVariable (.mk { node := ⟨⟨12⟩, .unknown⟩, name := "flag", isState := true }
      (some (.elementary ⟨⟨13⟩, .unknown⟩ "bool" false))
      (some (.literal ⟨⟨14⟩, .unknown⟩ .bool "true" none)))] }

/-- Two contracts that inherit from each other, after one that inherits from the first. -/
def loopUnit : SourceUnit where
  node := ⟨⟨1⟩, .unknown⟩
  path := "loop"
  abiCoder := none
  parts :=
    [.contract (derivedContract 2 6 7 3 "Behind"), .contract (derivedContract 3 8 9 4 "First"),
    .contract (derivedContract 4 10 11 3 "Second"), .contract flagContract]

theorem inheritance_cycles_reported_loop :
    loopUnit.DeclaresApart ∧ loopUnit.inventory.nodeIds.Nodup ∧ loopUnit.inventory.varIds.Nodup ∧
    ∃ report, check loopUnit {} = .ok report ∧
      report.diagnostics.filter Diagnostic.isCycleReport =
        [(derivedContract 3 8 9 4 "First").cycleReport] ∧
      ¬ loopUnit.Enters {} (derivedContract 2 6 7 3 "Behind") ∧ loopUnit.Enters {} flagContract ∧
      report.annotations.Cover flagContract := by
  have apart : loopUnit.DeclaresApart := by decide
  have nodes : loopUnit.inventory.nodeIds.Nodup := by decide
  have vars : loopUnit.inventory.varIds.Nodup := by decide
  have cyclic : loopUnit.Cyclic (derivedContract 2 6 7 3 "Behind") :=
    ⟨⟨3⟩, .inr (.edge (.head _)), .step (.head _) (.edge (.head _))⟩
  have harmless : ¬ loopUnit.Cyclic flagContract := by
    rintro ⟨w, rfl | reaches, round⟩
    · exact round.succ_ne_nil rfl
    · exact reaches.succ_ne_nil rfl
  obtain ⟨contracts, -⟩ := @inheritance_cycles_reported loopUnit {} _ apart nodes vars rfl
  obtain ⟨left, -⟩ := contracts _ (.head _)
  obtain ⟨entered, covered, -⟩ := contracts flagContract (.tail _ (.tail _ (.tail _ (.head _))))
  exact ⟨apart, nodes, vars, _, rfl, rfl, fun enters => left.mp enters cyclic, entered.mpr harmless,
    covered harmless⟩

end Unit

end ContractTyping
