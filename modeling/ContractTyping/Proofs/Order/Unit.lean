import ContractTyping.Proofs.Order.Part

/-!
# The order of the parts of a source unit

What the check of a part finds does not depend on the parts before it, and what several parts find
can be put together in any order.

1. `adds_of_run`: a run over the parts of a regular source unit is made of one growth for each part,
   and the part adds it again in every other order (`Adds`).
2. `run_of_adds`: so a run in another order ends well too, with the same growths.
3. `check_reorders`: the two reports have the same annotations, and the same diagnostics up to their
   order.
-/

namespace ContractTyping

open Check List Findings Declarations TypeTable
variable {steps : Steps} {α : Type}

/-! ## Tables -/

namespace TypeTable

theorem insert_comm {id id' : NodeId} (differ : id ≠ id') (t t' : Ty) (table : TypeTable) :
    insert id t (insert id' t' table) = insert id' t' (insert id t table) := by
  have values : id.value.toInt ≠ id'.value.toInt := fun equal => by
    cases id
    cases id'
    cases Int64.toInt_inj.mp equal
    exact differ rfl
  induction table with
  | nil =>
    simp only [insert, Int64.lt_iff_toInt_lt]
    grind
  | cons entry rest ih =>
    obtain ⟨other, old⟩ := entry
    grind [insert, Int64.lt_iff_toInt_lt]

/-- Nodes that are set once each may be set in any order. -/
theorem insertAll_perm {entries entries' : List (NodeId × Ty)} (perm : entries'.Perm entries)
    (distinct : (entries.map Prod.fst).Nodup) (table : TypeTable) :
    table.insertAll entries' = table.insertAll entries := by
  refine (perm.symm.foldl_eq' (fun entry mem other mem' table => ?_) table).symm
  -- Two entries with one key are one entry.
  by_cases same : other.1 = entry.1
  · have found := lookup_of_mem distinct mem
    rw [← same, lookup_of_mem distinct mem'] at found
    rw [Prod.ext same (Option.some.inj found)]
  · exact insert_comm same other.2 entry.2 table

end TypeTable

/-! ## Runs over parts -/

/-- Findings from which a part can be checked: none of it is typed, and variables have the types
that they should have. -/
structure Site.Ready (S : Site) (σ : Findings) : Prop where
  expressions : ∀ id ∈ S.inventory.nodeIds, σ.expression? id = none
  vars : ∀ id ∈ S.inventory.varIds, σ.var? id = none
  emitPending : σ.emitPending = false
  cyclic : σ.cyclic = []
  settled : ∀ id t, σ.var? id = some t → S.settles id t

theorem Site.ready_nothing (S : Site) : S.Ready {} :=
  ⟨fun _ _ => rfl, fun _ _ => rfl, rfl, rfl, nofun⟩

/-- Parts of a source unit that have no node in common. -/
structure UnitPart.Apart (part other : UnitPart) : Prop where
  nodes : ∀ id ∈ part.inventory.nodeIds, id ∉ other.inventory.nodeIds
  vars : ∀ id ∈ part.inventory.varIds, id ∉ other.inventory.varIds

section Runs

variable {unit other : SourceUnit} {settings : Settings} {part : UnitPart} {σ τ : Findings}

theorem Site.Ready.related (ready : (Site.ofPart unit other settings part).Ready σ)
    (ready' : (Site.ofPart unit other settings part).Ready τ) :
    (Site.ofPart unit other settings part).Related σ τ where
  expressions id mem := (ready'.expressions id mem).trans (ready.expressions id mem).symm
  vars id mem := (ready'.vars id mem).trans (ready.vars id mem).symm
  emitPending := ready'.emitPending.trans ready.emitPending.symm
  cyclic := ready'.cyclic.trans ready.cyclic.symm
  settled := ready.settled
  settled' := ready'.settled
  declared v _ reads settles := settles v reads rfl

/-- What a part adds to the findings, also when it is checked in the other order. -/
structure Adds (unit other : SourceUnit) (settings : Settings) (part : UnitPart) (δ : Growth) :
    Prop where
  typed : ∀ id, δ.typed.count id ≤ part.inventory.nodeIds.count id
  declared : ∀ id, δ.declared.count id ≤ part.inventory.varIds.count id
  settled : ∀ entry ∈ δ.vars, (Site.ofPart unit other settings part).settles entry.1 entry.2
  emitPending : δ.emitPending ≠ some true
  cyclic : δ.cyclic = []
  again : ∀ σ, (Site.ofPart unit other settings part).Ready σ →
    unitPart part (contextOf other settings) σ = .ok ((), σ.grow δ)

theorem SourceUnit.Regular.adds (regular : unit.Regular) (reorders : unit.Reorders other)
    (inParts : part ∈ unit.parts) (ready : (Site.ofPart unit other settings part).Ready σ)
    (run : unitPart part (contextOf unit settings) σ = .ok ((), τ)) :
    ∃ δ, τ = σ.grow δ ∧ Adds unit other settings part δ := by
  have covers : (Site.ofPart unit other settings part).Covers part.inventory (unitPart part) := by
    refine (regular.legal reorders settings inParts).unitPart (.refl _) ?_
    rintro c rfl cycle found
    have none : (ofUnit unit).cycle? c = none := regular.cycle?_eq_none inParts
    cases none.symm.trans found
  obtain ⟨outcome, here, accounts, there⟩ := covers σ nofun
  have ended : outcome.after σ = .ok ((), τ) := here.symm.trans run
  cases outcome with
  | error fault => cases ended
  | ok result =>
    cases ended
    refine ⟨result.2, rfl, accounts.typed, accounts.declared, accounts.settled,
      accounts.emitPending, ?_, fun σ' ready' => there σ' (ready.related ready')⟩
    exact eq_nil_iff_forall_not_mem.mpr accounts.cyclic

/-- A part can still be checked after another one. -/
theorem Adds.ready {δ : Growth} {part' : UnitPart} (adds : Adds unit other settings part δ)
    (apart : part.Apart part') (ready : (Site.ofPart unit other settings part').Ready σ) :
    (Site.ofPart unit other settings part').Ready (σ.grow δ) where
  expressions id mem := by
    rw [← Option.not_isSome_iff_eq_none, isSome_expression?_grow]
    rintro (typed | before)
    · exact apart.nodes id (mem_of_count_le (adds.typed id) typed) mem
    · rw [ready.expressions id mem] at before
      cases before
  vars id mem := by
    rw [← Option.not_isSome_iff_eq_none, isSome_var?_grow]
    rintro (declared | before)
    · exact apart.vars id (mem_of_count_le (adds.declared id) declared) mem
    · rw [ready.vars id mem] at before
      cases before
  emitPending := by
    show δ.emitPending.getD σ.emitPending = false
    rw [ready.emitPending]
    cases touched : δ.emitPending with
    | none => rfl
    | some pending => exact Bool.eq_false_iff.mpr fun equal =>
      adds.emitPending (touched.trans (equal ▸ rfl))
  cyclic := by
    show δ.cyclic ++ σ.cyclic = []
    rw [adds.cyclic, ready.cyclic]
    rfl
  settled id t found := by
    rcases get?_insertAll_cases found with new | old
    · exact adds.settled _ new
    · exact ready.settled id t old

/-- Parts of a source unit, each with what it adds. -/
abbrev Steps := List (UnitPart × Growth)

def Findings.growAll (σ : Findings) (steps : Steps) : Findings :=
  steps.foldl (fun σ step => σ.grow step.2) σ

/-- A run over parts is made of what each of them adds. -/
theorem SourceUnit.Regular.adds_of_run (regular : unit.Regular) (reorders : unit.Reorders other)
    {parts : List UnitPart} (inUnit : ∀ part ∈ parts, part ∈ unit.parts)
    (apart : parts.Pairwise UnitPart.Apart)
    (ready : ∀ part ∈ parts, (Site.ofPart unit other settings part).Ready σ)
    (run : parts.forM unitPart (contextOf unit settings) σ = .ok ((), τ)) :
    ∃ steps : Steps, steps.map Prod.fst = parts ∧
      (∀ step ∈ steps, Adds unit other settings step.1 step.2) ∧ τ = σ.growAll steps := by
  induction parts generalizing σ with
  | nil =>
    cases run
    exact ⟨[], rfl, forall_mem_nil _, rfl⟩
  | cons part rest ih =>
    rw [forall_mem_cons] at inUnit ready
    rw [pairwise_cons] at apart
    obtain ⟨⟨⟩, between, first, later⟩ := bind_ok.mp run
    obtain ⟨δ, rfl, adds⟩ := regular.adds reorders inUnit.1 ready.1 first
    -- The parts behind share no node with this one, so they are as ready as before.
    obtain ⟨steps, rfl, all, rfl⟩ := ih inUnit.2 apart.2
      (fun part' mem => adds.ready (apart.1 part' mem) (ready.2 part' mem)) later
    exact ⟨(part, δ) :: steps, rfl, forall_mem_cons.mpr ⟨adds, all⟩, rfl⟩

/-- Parts that add something can be run over in the other order. -/
theorem run_of_adds (adds : ∀ step ∈ steps, Adds unit other settings step.1 step.2)
    (apart : (steps.map Prod.fst).Pairwise UnitPart.Apart)
    (ready : ∀ part ∈ steps.map Prod.fst, (Site.ofPart unit other settings part).Ready σ) :
    (steps.map Prod.fst).forM unitPart (contextOf other settings)
      σ = .ok ((), σ.growAll steps) := by
  induction steps generalizing σ with
  | nil => rfl
  | cons step rest ih =>
    rw [map_cons, forall_mem_cons] at ready
    rw [map_cons, pairwise_cons] at apart
    rw [forall_mem_cons] at adds
    rw [map_cons, List.forM, bind_run (adds.1.again σ ready.1)]
    exact ih adds.2 apart.2 fun part mem => adds.1.ready (apart.1 part mem) (ready.2 part mem)

end Runs

/-! ## Putting growths together -/

namespace Findings

variable (σ : Findings) (steps : Steps)

theorem growAll_annotations : (σ.growAll steps).annotations =
    ⟨σ.annotations.expressions.insertAll (steps.flatMap fun step => step.2.expressions),
      σ.annotations.vars.insertAll (steps.flatMap fun step => step.2.vars)⟩ := by
  induction steps generalizing σ with
  | nil => rfl
  | cons step rest ih =>
    rw [flatMap_cons, flatMap_cons, insertAll_append, insertAll_append]
    exact ih (σ.grow step.2)

theorem growAll_diagnostics : (σ.growAll steps).diagnostics =
    σ.diagnostics ++ steps.flatMap fun step => step.2.diagnostics := by
  induction steps generalizing σ with
  | nil => exact (append_nil _).symm
  | cons step rest ih => exact (ih (σ.grow step.2)).trans (append_assoc ..)

end Findings

theorem count_flatMap_le {f g : α → List NodeId} {pieces : List α} {id : NodeId}
    (le : ∀ piece ∈ pieces, (f piece).count id ≤ (g piece).count id) :
    (pieces.flatMap f).count id ≤ (pieces.flatMap g).count id := by
  induction pieces with
  | nil => exact Nat.le_refl 0
  | cons piece rest ih =>
    rw [forall_mem_cons] at le
    rw [flatMap_cons, flatMap_cons, count_append, count_append]
    exact Nat.add_le_add le.1 (ih le.2)

/-- A permutation of images comes from one of the list itself. -/
theorem exists_perm_of_map {β : Type} {f : α → β} {images images' : List β}
    (perm : images'.Perm images) {list : List α} (equal : list.map f = images) :
    ∃ list' : List α, list'.Perm list ∧ list'.map f = images' := by
  induction perm generalizing list with
  | nil => exact ⟨list, .refl _, equal⟩
  | cons b _ ih =>
    obtain ⟨a, rest, rfl, rfl, rest_eq⟩ := map_eq_cons_iff.mp equal
    obtain ⟨rest', perm, rfl⟩ := ih rest_eq
    exact ⟨a :: rest', perm.cons a, rfl⟩
  | swap b b' _ =>
    obtain ⟨a, rest, rfl, rfl, rest_eq⟩ := map_eq_cons_iff.mp equal
    obtain ⟨a', rest', rfl, rfl, rfl⟩ := map_eq_cons_iff.mp rest_eq
    exact ⟨a' :: a :: rest', .swap _ _ _, rfl⟩
  | trans _ _ ih ih' =>
    obtain ⟨middle, perm, middle_eq⟩ := ih' equal
    obtain ⟨list', perm', list_eq⟩ := ih middle_eq
    exact ⟨list', perm'.trans perm, list_eq⟩

/-! ## Regular units -/

theorem Inventory.varIds_all_perm (inventory : α → Inventory) (pieces : List α) :
    (all inventory pieces).varIds.Perm (pieces.flatMap fun piece => (inventory piece).varIds) := by
  refine perm_iff_count.mpr fun id => ?_
  induction pieces with
  | nil => rfl
  | cons piece rest ih =>
    rw [all_cons, count_varIds_append, ih, flatMap_cons, count_append]

namespace SourceUnit.Regular

variable {unit other : SourceUnit}

variable (regular : unit.Regular)

include regular

theorem partNodes : (unit.parts.flatMap fun part => part.inventory.nodeIds).Nodup := by
  have distinct := regular.nodes
  rwa [Inventory.nodeIds, SourceUnit.inventory, Inventory.all, map_flatMap] at distinct

theorem partVars : (unit.parts.flatMap fun part => part.inventory.varIds).Nodup :=
  (Inventory.varIds_all_perm ..).nodup_iff.mp regular.vars

theorem apart : unit.parts.Pairwise UnitPart.Apart := by
  have nodes := (pairwise_flatMap.mp regular.partNodes).2
  have vars := (pairwise_flatMap.mp regular.partVars).2
  refine (nodes.and vars).imp fun differ => ⟨fun id mem mem' => ?_, fun id mem mem' => ?_⟩
  · exact differ.1 id mem id mem' rfl
  · exact differ.2 id mem id mem' rfl

theorem reorder (reorders : unit.Reorders other) : other.Regular where
  nodes := ((reorders.parts.flatMap_right _).map _).nodup_iff.mpr regular.nodes
  vars :=
    (((reorders.parts.flatMap_right _).append (reorders.parts.flatMap_right _)).map _).nodup_iff.mpr
    regular.vars
  declarations :=
    ((reorders.declarations regular.declarations).entries.map _).nodup_iff.mpr regular.declarations
  acyclic := by
    rw [(reorders.declarations regular.declarations).basesOf]
    exact regular.acyclic
  named e inNodes id target inFields := by
    refine regular.named e ((reorders.parts.flatMap_right _).mem_iff.mp inNodes) id target ?_
    exact ((reorders.parts.flatMap_right _).map _).mem_iff.mp inFields

end SourceUnit.Regular

section Reports

variable {unit other : SourceUnit} {settings : Settings}

/-- If no node belongs to two parts, none is typed twice. -/
theorem nodup_of_count_le {ids : UnitPart → List NodeId} {entries : Growth → List (NodeId × Ty)}
    (distinct : ((steps.map Prod.fst).flatMap ids).Nodup)
    (le : ∀ step ∈ steps, ∀ id, ((entries step.2).map Prod.fst).count id ≤ (ids step.1).count id) :
    ((steps.flatMap fun step => entries step.2).map Prod.fst).Nodup := by
  rw [flatMap_map, nodup_iff_count] at distinct
  rw [map_flatMap, nodup_iff_count]
  exact fun id => Nat.le_trans (count_flatMap_le fun step mem => le step mem id) (distinct id)

/-- What is found in two orders is the same, apart from the order of diagnostics. -/
theorem SourceUnit.Regular.growAll_perm (regular : unit.Regular) {steps' : Steps}
    (parts : steps.map Prod.fst = unit.parts) (perm : steps'.Perm steps)
    (adds : ∀ step ∈ steps, Adds unit other settings step.1 step.2) :
    (growAll {} steps').annotations = (growAll {} steps).annotations ∧
      (growAll {} steps').diagnostics.Perm (growAll {} steps).diagnostics := by
  have nodeIds := regular.partNodes
  have varIds := regular.partVars
  rw [← parts] at nodeIds varIds
  have typed : ((steps.flatMap fun step => step.2.expressions).map Prod.fst).Nodup :=
    nodup_of_count_le nodeIds fun step mem => (adds step mem).typed
  have declared : ((steps.flatMap fun step => step.2.vars).map Prod.fst).Nodup :=
    nodup_of_count_le varIds fun step mem => (adds step mem).declared
  have expressions := insertAll_perm (perm.flatMap_right _) typed []
  have vars := insertAll_perm (perm.flatMap_right _) declared []
  rw [growAll_annotations, growAll_annotations, growAll_diagnostics, growAll_diagnostics]
  exact ⟨congr (congrArg Annotations.mk expressions) vars, (perm.flatMap_right _).append_left _⟩

theorem SourceUnit.Regular.check_other (regular : unit.Regular) (reorders : unit.Reorders other)
    {report : Report} (checked : check unit settings = .ok report) :
    ∃ report', check other settings = .ok report' ∧ report'.annotations = report.annotations ∧
      report'.diagnostics.Perm report.diagnostics := by
  obtain ⟨found, run, rfl⟩ := check_ok.mp checked
  obtain ⟨steps, parts, adds, rfl⟩ := regular.adds_of_run reorders (fun _ mem => mem) regular.apart
    (fun _ _ => Site.ready_nothing _) run
  -- Each part takes its growth along to its new place.
  obtain ⟨steps', perm, parts'⟩ := exists_perm_of_map reorders.parts parts
  have again :
      other.parts.forM unitPart (contextOf other settings) {} = .ok ((), growAll {} steps') := by
    rw [← parts']
    refine run_of_adds (fun step mem => adds step (perm.mem_iff.mp mem)) ?_ fun _ _ =>
      Site.ready_nothing _
    exact parts' ▸ (regular.reorder reorders).apart
  exact ⟨_, check_ok.mpr ⟨_, again, rfl⟩, regular.growAll_perm parts perm adds⟩

end Reports

/-- The order of the parts of a regular source unit matters for the order of diagnostics only. -/
theorem check_reorders {unit other : SourceUnit} (regular : unit.Regular)
    (reorders : unit.Reorders other) (settings : Settings) :
    ((∃ report, check unit settings = .ok report) ↔ ∃ report, check other settings = .ok report) ∧
      ∀ report report', check unit settings = .ok report → check other settings = .ok report' →
        report'.passed = report.passed ∧ report'.annotations = report.annotations ∧
          report'.diagnostics.Perm report.diagnostics := by
  refine ⟨⟨?_, ?_⟩, fun report report' checked checked' => ?_⟩
  · rintro ⟨report, checked⟩
    obtain ⟨report', checked', -⟩ := regular.check_other reorders checked
    exact ⟨report', checked'⟩
  · rintro ⟨report, checked⟩
    obtain ⟨report', checked', -⟩ := (regular.reorder reorders).check_other reorders.symm checked
    exact ⟨report', checked'⟩
  · obtain ⟨_, again, annotations, diagnostics⟩ := regular.check_other reorders checked
    cases checked'.symm.trans again
    exact ⟨congrArg (!·) diagnostics.any_eq, annotations, diagnostics⟩

/-- A contract with a flag, and one that is derived from it and sets the flag. Each also names
something that is not declared. -/
def derivedUnit (isBaseFirst : Bool) : SourceUnit :=
  let node (id : Int64) : Node := ⟨⟨id⟩, .unknown⟩
  let function (id block : Int64) (body : List Statement) : Function :=
    { (default : Function) with
      node := node id, name := "f", body := some (.mk (node block) body false) }
  let unknown (statement id : Int64) (name : String) : Statement :=
    .expression (node statement) (.identifier (node id) name none [])
  let flag : Variable :=
    .mk { node := node 3, name := "flag", isState := true }
      (some (.elementary (node 4) "bool" false)) none
  let set : Statement :=
    .expression (node 14) (.assignment (node 15) none (.identifier (node 16) "flag" (some ⟨3⟩) [])
      (.literal (node 17) .bool "true" none))
  let base : UnitPart := .contract ⟨node 2, "Base", .contract, false, [], [],
    [.stateVariable flag, .function (function 5 6 [unknown 7 8 "x"])]⟩
  let derived : UnitPart := .contract ⟨node 10, "Derived", .contract, false,
    [⟨node 11, ⟨node 12, ["Base"], some ⟨2⟩⟩, none⟩], [],
    [.function (function 13 18 [set, unknown 19 20 "y"])]⟩
  { node := node 1
    path := "derived"
    abiCoder := none
    parts := if isBaseFirst then [base, derived] else [derived, base] }

theorem regular_derivedUnit : (derivedUnit true).Regular where
  nodes := by decide
  vars := by decide
  declarations := by decide
  acyclic := by
    have only : ∀ id w, w ∈ (ofUnit (derivedUnit true)).basesOf id → id = ⟨10⟩ ∧ w = ⟨2⟩ := by
      intro id w next
      unfold basesOf at next
      split at next
      · next c found =>
        obtain ⟨scope, found⟩ := find?_of_contract? found
        -- Of the five declarations, the two contracts remain.
        rcases mem_of_find? found with _ | ⟨_, _ | ⟨_, _ | ⟨_, _ | ⟨_, _ | ⟨_, mem⟩⟩⟩⟩⟩
        · have next : w ∈ [⟨2⟩] := next
          exact ⟨rfl, mem_singleton.mp next⟩
        · cases next
        · cases mem
      · cases next
    rintro id (loop | ⟨first, rest⟩)
    · obtain ⟨rfl, equal⟩ := only _ _ loop
      cases equal
    · obtain ⟨rfl, rfl⟩ := only _ _ first
      cases rest with
      | edge next => cases (only _ _ next).1
      | step next _ => cases (only _ _ next).1
  named := by decide

theorem check_reorders_derived :
    (derivedUnit true).Regular ∧ (derivedUnit true).Reorders (derivedUnit false) ∧
      ∃ report report', check (derivedUnit true) {} = .ok report ∧ report.diagnostics.length = 2 ∧
        check (derivedUnit false) {} = .ok report' ∧ report'.passed = report.passed ∧
        report'.annotations = report.annotations ∧ report'.diagnostics.Perm report.diagnostics := by
  have reorders : (derivedUnit true).Reorders (derivedUnit false) := ⟨.swap _ _ _, rfl, rfl⟩
  obtain ⟨agree, same⟩ := check_reorders regular_derivedUnit reorders {}
  obtain ⟨report, checked, two⟩ :
      ∃ report, check (derivedUnit true) {} = .ok report ∧ report.diagnostics.length = 2 :=
    ⟨_, rfl, rfl⟩
  obtain ⟨report', checked'⟩ := agree.mp ⟨report, checked⟩
  exact ⟨regular_derivedUnit, reorders, report, report', checked, two, checked',
    same report report' checked checked'⟩

end ContractTyping
