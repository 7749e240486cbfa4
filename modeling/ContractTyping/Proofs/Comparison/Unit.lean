import ContractTyping.Proofs.Passing.Unit

/-!
# What settings change

Reports of a source unit under different settings. `Comparison.report_follows` and
`Comparison.fault_follows` lead the second check along the first one through a whole source unit.
What that gives depends on what is compared:

1. `annotations_wellFormed`: a check with itself. The recorded types are well-formed.
2. `coder_only_omits`: the older coder with the newer one. The newer one reports all but some errors
   about types that need it, and nothing changes for a source unit that names its coder.
3. `passed_of_later_version`: a target machine with a later one. What passes for the first passes
   for the second, with the same report.
-/

namespace ContractTyping

open Check List

namespace Comparison

variable {C : Comparison} {report : Report} {fault : Fault}

namespace Tracks

/-- The marks of cyclic contracts are the same in both checks, so cycles are reported alike. -/
theorem isCyclic (c : Contract) : C.Follows (isCyclic c) := by
  have mark (cycle : List NodeId) : C.Follows (do
      modify fun found => { found with cyclic := c.id :: (cycle ++ found.cyclic) }
      return true) := by
    have marked : C.Follows
        (modify fun found => { found with cyclic := c.id :: (cycle ++ found.cyclic) }) := by
      refine update (fun _ _ => rfl) (fun _ _ => rfl) (fun _ wf => ⟨trivial, wf, id⟩)
        fun σ σ' agree => ⟨rfl, { agree with cyclic := ?_ }⟩
      exact congrArg (c.id :: cycle ++ ·) agree.cyclic
    exact marked.seq fun _ => pure trivial
  refine .read (fun _ => rfl) fun scope => inspect (fun σ σ' agree => ?_) fun σ _ => ?_
  · rw [agree.cyclic]
  dsimp only
  split
  · exact pure trivial
  · split
    · exact pure trivial
    · split
      · exact mark _
      · exact (report _ _).seq fun _ => mark _

theorem unitPart (part : UnitPart) : C.Follows (unitPart part) := by
  cases part with
  | contract c =>
    refine (isCyclic c).seq fun cyclic => ?_
    split
    · exact pure trivial
    · exact of_walks fun _ => .members fun _ _ => trivial
  | struct s => exact of_walks fun _ => .struct s
  | function f => exact of_walks fun _ => .function f
  | usingFor u => exact of_walks fun _ => .usingFor u

end Tracks

theorem unit_follows (C : Comparison) : C.Follows (C.unit.parts.forM unitPart) :=
  Tracks.forM fun part _ => Tracks.unitPart part

theorem wellFormed_nothing : ({} : Findings).annotations.WellFormed :=
  ⟨forall_mem_nil _, forall_mem_nil _⟩

theorem agree_nothing (C : Comparison) : C.Agree {} {} := ⟨rfl, rfl, rfl, C.start⟩

theorem wellFormed_of_check (checked : check C.unit C.here = .ok report) :
    report.annotations.WellFormed := by
  obtain ⟨found, run, rfl⟩ := check_ok.mp checked
  exact (C.unit_follows.result wellFormed_nothing run).2.1

theorem report_follows (checked : check C.unit C.here = .ok report) :
    C.Ends report.diagnostics ∨ ∃ report', check C.unit C.there = .ok report' ∧
      report'.annotations = report.annotations ∧
      C.Matches report.diagnostics report'.diagnostics := by
  obtain ⟨found, run, rfl⟩ := check_ok.mp checked
  refine (C.unit_follows.follows wellFormed_nothing C.agree_nothing run).imp_right ?_
  rintro ⟨found', run', agree⟩
  exact ⟨_, check_ok.mpr ⟨found', run', rfl⟩, agree.annotations, agree.diagnostics⟩

/-- Diagnostics that correspond only if they are equal make the reports equal. -/
theorem report_same (exact : ∀ ds ds', C.Matches ds ds' → ds' = ds)
    (checked : check C.unit C.here = .ok report) :
    C.Ends report.diagnostics ∨ check C.unit C.there = .ok report := by
  refine (report_follows checked).imp_right ?_
  rintro ⟨⟨annotations, diagnostics⟩, checked', rfl, agree⟩
  cases exact _ _ agree
  exact checked'

theorem fault_follows (failed : check C.unit C.here = .error fault) :
    C.Lenient ∨ check C.unit C.there = .error fault := by
  refine (C.unit_follows.fails wellFormed_nothing C.agree_nothing
    (check_error.mp failed)).imp_right ?_
  exact check_error.mpr

end Comparison

/-! ## A check with itself -/

/-- Settings that make no difference for a source unit. -/
def Comparison.alike (unit : SourceUnit) (here there : Settings)
    (coder : unit.abiCoder.getD there.abiCoder = unit.abiCoder.getD here.abiCoder)
    (version : there.evmVersion = here.evmVersion) : Comparison where
  unit := unit
  here := here
  there := there
  Matches ds ds' := ds' = ds
  Ends _ := False
  start := rfl
  append d same := congrArg (· ++ [d]) same
  ends_append _ := id
  coder := .inl coder
  version := .inl version

theorem check_eq_of_alike {unit : SourceUnit} {here there : Settings}
    (coder : unit.abiCoder.getD there.abiCoder = unit.abiCoder.getD here.abiCoder)
    (version : there.evmVersion = here.evmVersion) : check unit here = check unit there := by
  let C := Comparison.alike unit here there coder version
  cases checked : check unit here with
  | ok report =>
    exact ((C.report_same (fun _ _ => id) checked).resolve_left id).symm
  | error fault =>
    have strict : ¬ C.Lenient := fun ⟨_, ends⟩ => ends
    exact ((C.fault_follows checked).resolve_left strict).symm

/-- A contract with a mapping to arrays of arrays, and a function that is given an array of arrays
and looks at the identity of the chain. -/
def ledgerUnit (coder : Option AbiCoder) : SourceUnit :=
  let node (id : Int64) : Node := ⟨⟨id⟩, .unknown⟩
  let elementary (id : Int64) (name : String) : TypeName := .elementary (node id) name false
  let shelves : Variable :=
    .mk { node := node 3, name := "shelves", isState := true }
      (some (.mapping (node 4) (elementary 5 "bytes")
        (.array (node 6) (.array (node 7) (elementary 8 "uint8") none)
          (some (.literal (node 9) .number "2" none))))) none
  let rows : Variable :=
    .mk { node := node 11, name := "rows", location := .memory }
      (some (.array (node 12) (.array (node 13) (elementary 14 "uint256") none) none)) none
  let chain : Expr := .member (node 17) (.identifier (node 18) "block" (some ⟨-4⟩) []) "chainid"
  let enter : Function :=
    { (default : Function) with
      node := node 10, name := "enter", visibility := .pub, parameters := [rows]
      body := some (.mk (node 15) [.expression (node 16) chain] false) }
  { node := node 1
    path := "ledger"
    abiCoder := coder
    parts := [.contract ⟨node 2, "Ledger", .contract, false, [], [],
      [.stateVariable shelves, .function enter]⟩] }

/-- Every recorded type is well-formed, at every depth. -/
theorem annotations_wellFormed (unit : SourceUnit) (settings : Settings) (report : Report)
    (checked : check unit settings = .ok report) :
    (∀ entry ∈ report.annotations.expressions, entry.2.WellFormed) ∧
      ∀ entry ∈ report.annotations.vars, entry.2.WellFormed := by
  have wf := (Comparison.alike unit settings settings rfl rfl).wellFormed_of_check checked
  exact ⟨wf.expressions, wf.vars⟩

theorem annotations_wellFormed_ledger :
    ∃ report, check (ledgerUnit none) {} = .ok report ∧
      report.annotations.var? ⟨3⟩ = some (.mapping .bytesMemory
        (.array (.array (.integer 8 false) none ⟨.storage, true⟩) (some 2) ⟨.storage, true⟩)) ∧
      (∀ entry ∈ report.annotations.expressions, entry.2.WellFormed) ∧
      ∀ entry ∈ report.annotations.vars, entry.2.WellFormed := by
  obtain ⟨report, checked, shelves⟩ : ∃ report, check (ledgerUnit none) {} = .ok report ∧
      report.annotations.var? ⟨3⟩ = some (.mapping .bytesMemory
        (.array (.array (.integer 8 false) none ⟨.storage, true⟩) (some 2) ⟨.storage, true⟩)) :=
    exists_ok (by decide +kernel)
  exact ⟨report, checked, shelves, annotations_wellFormed _ _ _ checked⟩

/-! ## Coders -/

namespace Diagnostic

variable {d : Diagnostic}

/-- Whether a diagnostic is the error that a type needs the newer coder. -/
def needsNewerCoder : Diagnostic → Bool
  | ⟨.notEncodable _ .needsCoderV2, _, .error⟩ => true
  | _ => false

theorem issue_of_needsNewerCoder (needs : d.needsNewerCoder = true) :
    ∃ t, d.issue = .notEncodable t .needsCoderV2 ∧ d.severity = .error := by
  unfold needsNewerCoder at needs
  split at needs
  · exact ⟨_, rfl, rfl⟩
  · cases needs

/-- Whether the second diagnostics are the first but for errors on types for the newer coder. -/
structure Thins (all kept : List Diagnostic) : Prop where
  sublist : kept.Sublist all
  others : kept.filter (!·.needsNewerCoder) = all.filter (!·.needsNewerCoder)

namespace Thins

variable {all kept : List Diagnostic}

variable (thins : Thins all kept)

include thins

theorem append (d : Diagnostic) : Thins (all ++ [d]) (kept ++ [d]) where
  sublist := thins.sublist.append (.refl [d])
  others := by rw [filter_append, filter_append, thins.others]

theorem drop (needs : d.needsNewerCoder = true) : Thins (all ++ [d]) kept where
  sublist := thins.sublist.trans (sublist_append_left all [d])
  others := by
    have dropped : [d].filter (!·.needsNewerCoder) = [] := by simp [needs]
    rw [filter_append, dropped, append_nil, thins.others]

theorem needsNewerCoder_of_missing (mem : d ∈ all) (missing : d ∉ kept) :
    d.needsNewerCoder = true := by
  refine Classical.byContradiction fun ordinary => missing ?_
  have mem : d ∈ all.filter (!·.needsNewerCoder) := mem_filter.mpr ⟨mem, by simpa using ordinary⟩
  rw [← thins.others] at mem
  exact (mem_filter.mp mem).1

end Thins

end Diagnostic

/-- The coders side by side. -/
def Comparison.coders (unit : SourceUnit) (version : EvmVersion) : Comparison where
  unit := unit
  here := ⟨version, .v1⟩
  there := ⟨version, .v2⟩
  Matches := Diagnostic.Thins
  Ends _ := False
  start := ⟨.slnil, rfl⟩
  append d thins := thins.append d
  ends_append _ := id
  coder := by
    cases unit.abiCoder with
    | none => exact .inr ⟨rfl, fun _ _ _ _ thins => thins.drop rfl⟩
    | some coder => exact .inl rfl
  version := .inl rfl

/-- The newer coder omits nothing but errors that a type needs it, and changes nothing else. A
source unit that names its coder has one result. -/
theorem coder_only_omits (unit : SourceUnit) (version : EvmVersion) :
    ((∃ fault, check unit ⟨version, .v1⟩ = .error fault ∧
      check unit ⟨version, .v2⟩ = .error fault) ∨
      ∃ older newer, check unit ⟨version, .v1⟩ = .ok older ∧ check unit ⟨version, .v2⟩ = .ok newer ∧
        newer.annotations = older.annotations ∧
        newer.diagnostics.Sublist older.diagnostics ∧
        newer.diagnostics.filter (!·.needsNewerCoder) = older.diagnostics.filter
          (!·.needsNewerCoder) ∧
        ∀ d ∈ older.diagnostics, d ∉ newer.diagnostics →
          ∃ t, d.issue = .notEncodable t .needsCoderV2 ∧ d.severity = .error) ∧
    (unit.abiCoder.isSome = true → check unit ⟨version, .v1⟩ = check unit ⟨version, .v2⟩) := by
  let C := Comparison.coders unit version
  constructor
  · cases checked : check unit ⟨version, .v1⟩ with
    | error fault =>
      have strict : ¬ C.Lenient := fun ⟨_, ends⟩ => ends
      exact .inl ⟨fault, rfl, (C.fault_follows checked).resolve_left strict⟩
    | ok older =>
      obtain ⟨newer, checked', annotations, thins⟩ := (C.report_follows checked).resolve_left id
      refine .inr ⟨older, newer, rfl, checked', annotations, thins.sublist, thins.others, ?_⟩
      intro d mem missing
      exact Diagnostic.issue_of_needsNewerCoder (thins.needsNewerCoder_of_missing mem missing)
  · intro named
    obtain ⟨coder, named⟩ := Option.isSome_iff_exists.mp named
    exact check_eq_of_alike (by rw [named]; rfl) rfl

/-- The function of the ledger is refused by the older coder, whoever chose it. -/
theorem coder_only_omits_ledger :
    (∃ older newer, check (ledgerUnit none) ⟨.london, .v1⟩ = .ok older ∧
      check (ledgerUnit none) ⟨.london, .v2⟩ = .ok newer ∧ older.diagnostics.length = 1 ∧
      newer.passed = true ∧ newer.annotations = older.annotations) ∧
    ∃ report, check (ledgerUnit (some .v1)) ⟨.london, .v2⟩ = .ok report ∧
      report.diagnostics.length = 1 ∧
      check (ledgerUnit (some .v1)) ⟨.london, .v1⟩ = .ok report := by
  constructor
  · obtain ⟨older, checked, refused⟩ : ∃ older, check (ledgerUnit none) ⟨.london, .v1⟩ = .ok older ∧
      older.diagnostics.length = 1 := exists_ok (by decide +kernel)
    obtain ⟨newer, checked', passed⟩ : ∃ newer, check (ledgerUnit none) ⟨.london, .v2⟩ = .ok newer ∧
      newer.passed = true := exists_ok (by decide +kernel)
    have both := (coder_only_omits (ledgerUnit none) .london).1
    rw [checked, checked'] at both
    rcases both with ⟨fault, failed, -⟩ | ⟨_, _, ⟨⟩, ⟨⟩, annotations, -⟩
    · cases failed
    · exact ⟨older, newer, checked, checked', refused, passed, annotations⟩
  · obtain ⟨report, checked, refused⟩ :
      ∃ report, check (ledgerUnit (some .v1)) ⟨.london, .v2⟩ = .ok report ∧
      report.diagnostics.length = 1 := exists_ok (by decide +kernel)
    exact ⟨report, checked, refused, ((coder_only_omits _ _).2 rfl).trans checked⟩

/-! ## Target machines -/

/-- A target machine and a later one side by side. -/
def Comparison.versions (unit : SourceUnit) (coder : AbiCoder) {version later : EvmVersion}
    (le : version.rank ≤ later.rank) : Comparison where
  unit := unit
  here := ⟨version, coder⟩
  there := ⟨later, coder⟩
  Matches ds ds' := ds' = ds
  Ends ds := ∃ d ∈ ds, d.isError = true
  start := rfl
  append d same := congrArg (· ++ [d]) same
  ends_append := by
    rintro ds d ⟨error, mem, isError⟩
    exact ⟨error, mem_append_left _ mem, isError⟩
  coder := .inl rfl
  version := .inr ⟨le, fun ds feature span =>
    ⟨_, mem_append_right ds (mem_singleton_self _), rfl⟩⟩

/-- What passes for a target machine passes for every later one, with the same report. -/
theorem passed_of_later_version (unit : SourceUnit) (coder : AbiCoder) {version later : EvmVersion}
    (le : version.rank ≤ later.rank) {report : Report}
    (checked : check unit ⟨version, coder⟩ = .ok report)
    (passed : report.passed = true) : check unit ⟨later, coder⟩ = .ok report := by
  refine ((Comparison.versions unit coder le).report_same (fun _ _ => id) checked).resolve_left ?_
  rintro ⟨d, mem, isError⟩
  rw [Report.no_errors passed d mem] at isError
  cases isError

/-- The identity of the chain is there since istanbul. -/
theorem passed_of_later_version_ledger :
    (∃ report, check (ledgerUnit none) ⟨.homestead, .v2⟩ = .ok report ∧ report.passed = false) ∧
    ∃ report, check (ledgerUnit none) ⟨.istanbul, .v2⟩ = .ok report ∧ report.passed = true ∧
      check (ledgerUnit none) ⟨.london, .v2⟩ = .ok report := by
  refine ⟨exists_ok (by decide +kernel), ?_⟩
  obtain ⟨report, checked, passed⟩ :
    ∃ report, check (ledgerUnit none) ⟨.istanbul, .v2⟩ = .ok report ∧
    report.passed = true := exists_ok (by decide +kernel)
  exact ⟨report, checked, passed, passed_of_later_version _ _ (by decide) checked passed⟩

end ContractTyping
