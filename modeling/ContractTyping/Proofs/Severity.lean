import ContractTyping.Proofs.Faults
import ContractTyping.Proofs.Trace.Unit

/-!
# Severity and category

A diagnostic is recorded as an error or as a warning by the check that makes it, while its category
is that of its issue. The two agree in all diagnostics of a check, so a check fails exactly if
something else is found than a double assignment to storage, a deprecated feature or the unused
result of a call (`severity_iff_category`).

Inside a part of a source unit this is what ordinary diagnostics are (`Diagnostic.isOrdinary`). What
is left are the reports of inheritance cycles between the parts.
-/

namespace ContractTyping

open Check List

/-- Whether a diagnostic is a warning exactly if its category says so. -/
def Diagnostic.Graded (d : Diagnostic) : Prop := d.severity = .warning ↔ d.issue.category = .warning

theorem Diagnostic.graded_of_isOrdinary {d : Diagnostic} (ordinary : d.isOrdinary) : d.Graded := by
  unfold Diagnostic.isOrdinary at ordinary
  unfold Diagnostic.Graded
  split at ordinary
  · cases ordinary
  · rw [beq_iff_eq.mp ordinary]
    by_cases warns : d.issue.category = .warning
    · simp [warns]
    · simp [warns]

theorem Diagnostic.graded_inheritanceCycle (contract : String) (span : Span) :
    (⟨.inheritanceCycle contract, span, .error⟩ : Diagnostic).Graded := by
  simp [Diagnostic.Graded, Issue.category]

/-- Whether an issue is only a piece of advice. -/
def Issue.IsAdvice (issue : Issue) : Prop :=
  issue = .doubleStorageAssignment ∨ issue = .selfdestructDeprecated ∨
    ∃ result, issue = .unusedCallResult result

theorem Issue.category_eq_warning_iff (issue : Issue) :
    issue.category = .warning ↔ issue.IsAdvice := by
  cases issue <;> simp [Issue.category, Issue.IsAdvice]

/-! ## The run over the parts -/

/-- Findings between the parts of a unit. -/
structure Findings.Graded (σ : Findings) : Prop where
  calm : σ.emitPending = false
  diagnostics : ∀ d ∈ σ.diagnostics, d.Graded

namespace Findings.Graded

variable {σ τ : Findings} {context : Context}

theorem start : Graded {} := ⟨rfl, forall_mem_nil _⟩

variable (graded : σ.Graded)

include graded

theorem precedes (precedes : σ.Precedes τ) : τ.Graded where
  calm := precedes.emitPending graded.calm
  diagnostics := by
    obtain ⟨new, equal, ordinary⟩ := precedes.diagnostics
    rw [equal]
    exact forall_mem_append.mpr
      ⟨graded.diagnostics, fun d mem => Diagnostic.graded_of_isOrdinary (ordinary d mem)⟩

/-- The report of a cycle is an error, and no warning by its category. -/
theorem isCyclic {c : Contract} {answer : Bool} (run : isCyclic c context σ = .ok (answer, τ)) :
    τ.Graded := by
  rw [isCyclic_run] at run
  split at run
  · cases run
    exact graded
  · split at run
    · cases run
      exact graded
    · cases run
      refine ⟨graded.calm, forall_mem_append.mpr ⟨graded.diagnostics, ?_⟩⟩
      split
      · exact forall_mem_nil _
      · exact forall_mem_singleton.mpr (Diagnostic.graded_inheritanceCycle _ _)

theorem unitPart {part : UnitPart} (run : unitPart part context σ = .ok ((), τ)) : τ.Graded := by
  obtain ⟨υ, rfl | ⟨c, answer, -, asked⟩, after⟩ := unitPart_ok run
  · exact graded.precedes (after graded.calm)
  · have asking := graded.isCyclic asked
    exact asking.precedes (after asking.calm)

theorem parts {parts : List UnitPart} (run : parts.forM Check.unitPart context σ = .ok ((), τ)) :
    τ.Graded := by
  induction parts generalizing σ with
  | nil =>
    cases run
    exact graded
  | cons part rest ih =>
    obtain ⟨_, υ, first, run⟩ := Check.bind_ok.mp run
    exact ih (graded.unitPart first) run

end Findings.Graded

/-! ## The result -/

theorem Report.passed_iff {report : Report} :
    report.passed = true ↔ ∀ d ∈ report.diagnostics, d.severity = .warning := by
  have isWarning (d : Diagnostic) : ¬ d.isError = true ↔ d.severity = .warning := by
    unfold Diagnostic.isError
    cases d.severity <;> decide
  rw [Report.passed, Bool.not_eq_true', any_eq_false]
  exact forall₂_congr fun d _ => isWarning d

/-- The severity of every diagnostic is that of its category, and a check passes exactly if all that
it has to say is advice. -/
theorem severity_iff_category {unit : SourceUnit} {settings : Settings} {report : Report}
    (checked : check unit settings = .ok report) :
    (∀ d ∈ report.diagnostics, d.severity = .warning ↔ d.issue.category = .warning) ∧
      (report.passed = true ↔ ∀ d ∈ report.diagnostics, d.issue.IsAdvice) := by
  obtain ⟨found, run, rfl⟩ := check_ok.mp checked
  have graded : ∀ d ∈ found.diagnostics, d.Graded := (Findings.Graded.start.parts run).diagnostics
  refine ⟨graded, Report.passed_iff.trans (forall₂_congr fun d mem => ?_)⟩
  exact (graded d mem).trans d.issue.category_eq_warning_iff

/-- A contract whose function swaps two byte arrays in storage, drops the result of sending value
and destroys the contract. -/
def adviceUnit : SourceUnit :=
  let node (id : Int64) : Node := ⟨⟨id⟩, .unknown⟩
  let name (id : Int64) (name : String) (target : Int64) : Expr :=
    .identifier (node id) name (some ⟨target⟩) []
  let state (id type : Int64) (name : String) : ContractPart :=
    .stateVariable (.mk { node := node id, name, isState := true }
      (some (.elementary (node type) "bytes" false)) none)
  let pair (id : Int64) (first second : Expr) : Expr :=
    .tuple (node id) [some first, some second] false
  let swap : Expr := .assignment (node 20) none (pair 21 (name 22 "left" 3) (name 23 "right" 5))
    (pair 24 (name 25 "right" 5) (name 26 "left" 3))
  let send : Expr := .call (node 30) (.member (node 31) (name 32 "heir" 8) "send")
    [.member (node 33) (name 34 "heir" 8) "balance"] []
  let destroy : Expr := .call (node 40) (name 41 "selfdestruct" (-23)) [name 42 "heir" 8] []
  { node := node 1
    path := "advice"
    abiCoder := none
    parts := [.contract ⟨node 2, "Will", .contract, false, [], [],
      [state 3 4 "left", state 5 6 "right",
        .function { (default : Function) with
          node := node 7, name := "execute"
          parameters := [.mk { node := node 8, name := "heir" }
            (some (.elementary (node 9) "address" true)) none]
          body := some (.mk (node 10)
            [.expression (node 11) swap, .expression (node 12) send, .expression (node 13) destroy]
            false) }]⟩] }

theorem severity_iff_category_advice :
    ∃ report, check adviceUnit {} = .ok report ∧
      report.diagnostics.map Diagnostic.issue =
        [.doubleStorageAssignment, .unusedCallResult .send, .selfdestructDeprecated] ∧
      report.diagnostics.map Diagnostic.severity = [.warning, .warning, .warning] ∧
      report.passed = true := by
  obtain ⟨report, checked, issues, severities⟩ : ∃ report, check adviceUnit {} = .ok report ∧
      report.diagnostics.map Diagnostic.issue =
        [.doubleStorageAssignment, .unusedCallResult .send, .selfdestructDeprecated] ∧
      report.diagnostics.map Diagnostic.severity = [.warning, .warning, .warning] :=
    exists_ok (by decide +kernel)
  refine ⟨report, checked, issues, severities, (severity_iff_category checked).2.mpr
    fun d mem => ?_⟩
  have advice :
    d.issue ∈ [Issue.doubleStorageAssignment, .unusedCallResult .send, .selfdestructDeprecated] :=
    issues ▸ List.mem_map_of_mem mem
  rcases List.mem_cons.mp advice with double | others
  · exact .inl double
  · rcases List.mem_cons.mp others with unused | deprecated
    · exact .inr (.inr ⟨_, unused⟩)
    · exact .inr (.inl (List.mem_singleton.mp deprecated))

end ContractTyping
