import ContractTyping.Proofs.Trace.Standard
import ContractTyping.Proofs.WellFormed

/-!
# Two checks side by side

A source unit that is checked under two settings. The settings are read in few places, and there the
first check may report an issue that the second does not have. `Comparison.Tracks` says of a piece
of the check that the second check follows the first one through it: same result, same types, and
diagnostics that correspond. It is given up only when the first check has found an error that the
second one may lack (`Ends`). Of a piece that runs after certain findings this is `TracksAt`.

The first check by itself is followed as well: the types it records are well-formed.

The rules for settings are `Tracks.gate` and `Tracks.reportIf`.
-/

namespace ContractTyping

open Check

/-- Whether the recorded types are well-formed. -/
structure Annotations.WellFormed (annotations : Annotations) : Prop where
  expressions : ∀ entry ∈ annotations.expressions, entry.2.WellFormed
  vars : ∀ entry ∈ annotations.vars, entry.2.WellFormed

theorem TypeTable.wellFormed_insert {id : NodeId} {t : Ty} {table : TypeTable}
    (old : ∀ entry ∈ table, entry.2.WellFormed) (wf : t.WellFormed) :
    ∀ entry ∈ insert id t table, entry.2.WellFormed := by
  intro entry mem
  rcases eq_or_mem_of_mem_insert mem with rfl | before
  · exact wf
  · exact old entry before

/-- Reports an issue that depends on the settings, if there is one. -/
def Check.reportIf (issue? : Context → Option Issue) (span : Span) : Check Unit := do
  if let some issue := issue? (← read) then report issue span

/-- Two checks of a source unit under different settings. -/
structure Comparison where
  unit : SourceUnit
  here : Settings
  there : Settings
  /-- How diagnostics of the first check correspond to those of the second. -/
  Matches : List Diagnostic → List Diagnostic → Prop
  /-- Diagnostics of the first check after which nothing is asked of the second. -/
  Ends : List Diagnostic → Prop
  start : Matches [] []
  append : ∀ {ds ds'} d, Matches ds ds' → Matches (ds ++ [d]) (ds' ++ [d])
  ends_append : ∀ {ds} d, Ends ds → Ends (ds ++ [d])
  /-- The second check has the same coder, or one that refuses less. -/
  coder : unit.abiCoder.getD there.abiCoder = unit.abiCoder.getD here.abiCoder ∨
    unit.abiCoder.getD there.abiCoder = .v2 ∧ ∀ ds ds' t span, Matches ds ds' →
      Matches (ds ++ [⟨.notEncodable t .needsCoderV2, span, .error⟩]) ds'
  /-- The second check has the same target machine, or a later one. -/
  version : there.evmVersion = here.evmVersion ∨
    here.evmVersion.rank ≤ there.evmVersion.rank ∧ ∀ ds feature span,
      Ends (ds ++ [⟨.featureUnavailable feature here.evmVersion, span, .error⟩])

namespace Comparison

variable {α β : Type} {C : Comparison}

/-- Where a piece of the first check runs. -/
def first (C : Comparison) (scope : Scope) : Context :=
  { contextOf C.unit C.here with scope }

/-- Where the same piece of the second check runs. -/
def second (C : Comparison) (scope : Scope) : Context :=
  { contextOf C.unit C.there with scope }

/-- Whether the two checks have found the same so far. -/
structure Agree (C : Comparison) (σ σ' : Findings) : Prop where
  annotations : σ'.annotations = σ.annotations
  emitPending : σ'.emitPending = σ.emitPending
  cyclic : σ'.cyclic = σ.cyclic
  diagnostics : C.Matches σ.diagnostics σ'.diagnostics

/-- Whether there are errors that the second check may lack. -/
def Lenient (C : Comparison) : Prop := ∃ ds, C.Ends ds

/-- The second check follows the first one through a piece that runs after some findings, with a
result in the first check as described. -/
structure TracksAt (C : Comparison) (scope : Scope) (σ : Findings) (m : Check α) (Q : α → Prop) :
    Prop where
  result : ∀ {a τ}, m (C.first scope) σ = .ok (a, τ) →
    Q a ∧ τ.annotations.WellFormed ∧ (C.Ends σ.diagnostics → C.Ends τ.diagnostics)
  follows : ∀ {σ' a τ}, C.Agree σ σ' → m (C.first scope) σ = .ok (a, τ) →
    C.Ends τ.diagnostics ∨ ∃ τ', m (C.second scope) σ' = .ok (a, τ') ∧ C.Agree τ τ'
  fails : ∀ {σ' fault}, C.Agree σ σ' → m (C.first scope) σ = .error fault →
    C.Lenient ∨ m (C.second scope) σ' = .error fault

/-- The second check follows the first through a piece wherever the types before are well-formed. -/
def Tracks (C : Comparison) (m : Check α) (Q : α → Prop) : Prop :=
  ∀ scope σ, σ.annotations.WellFormed → C.TracksAt scope σ m Q

/-- A piece that has no result of interest. -/
abbrev Follows (C : Comparison) (m : Check α) : Prop := C.Tracks m fun _ => True

namespace TracksAt

variable {scope : Scope} {σ : Findings} {m : Check α} {Q Q' : α → Prop} {R : β → Prop}

theorem mono (tracks : C.TracksAt scope σ m Q) (weaker : ∀ a τ, m (C.first scope) σ = .ok (a, τ) →
    τ.annotations.WellFormed → Q a → Q' a) : C.TracksAt scope σ m Q' where
  result run := by
    obtain ⟨holds, wf, rest⟩ := tracks.result run
    exact ⟨weaker _ _ run wf holds, wf, rest⟩
  follows := tracks.follows
  fails := tracks.fails

theorem bind {f : α → Check β} (one : C.TracksAt scope σ m Q)
    (next : ∀ a υ, m (C.first scope) σ = .ok (a, υ) →
    Q a → υ.annotations.WellFormed → C.TracksAt scope υ
    (f a) R) : C.TracksAt scope σ (m >>= f) R where
  result run := by
    obtain ⟨a, υ, run, run'⟩ := bind_ok.mp run
    obtain ⟨holds, wf, ends⟩ := one.result run
    obtain ⟨holds', wf', ends'⟩ := (next a υ run holds wf).result run'
    exact ⟨holds', wf', fun before => ends' (ends before)⟩
  follows agree run := by
    obtain ⟨a, υ, run, run'⟩ := bind_ok.mp run
    obtain ⟨holds, wf, -⟩ := one.result run
    rcases one.follows agree run with ended | ⟨υ', other, agree'⟩
    · exact .inl (((next a υ run holds wf).result run').2.2 ended)
    · rw [bind_run other]
      exact (next a υ run holds wf).follows agree' run'
  fails agree run := by
    rcases bind_error.mp run with run | ⟨a, υ, run, run'⟩
    · exact (one.fails agree run).imp_right fun other => bind_error.mpr (.inl other)
    · obtain ⟨holds, wf, -⟩ := one.result run
      rcases one.follows agree run with ended | ⟨υ', other, agree'⟩
      · exact .inl ⟨_, ended⟩
      · rw [bind_run other]
        exact (next a υ run holds wf).fails agree' run'

/-- A piece that does the same as another one. -/
theorem transfer {m' : Check α} (tracks : C.TracksAt scope σ m Q)
    (here : m' (C.first scope) σ = m (C.first scope) σ)
    (there : ∀ σ', C.Agree σ σ' → m' (C.second scope) σ' = m (C.second scope) σ') :
    C.TracksAt scope σ m' Q where
  result run := tracks.result (here ▸ run)
  follows agree run := there _ agree ▸ tracks.follows agree (here ▸ run)
  fails agree run := there _ agree ▸ tracks.fails agree (here ▸ run)

/-- What a piece does with the settings is the same in both checks, or the end of the comparison. -/
theorem gate {f : Context → Check β} (alike : f (C.second scope) = f (C.first scope) ∨
      C.Lenient ∧ ∀ {a τ}, f (C.first scope) (C.first scope) σ = .ok (a, τ) → C.Ends τ.diagnostics)
    (next : C.TracksAt scope σ (f (C.first scope)) R) : C.TracksAt scope σ (read >>= f) R := by
  rcases alike with same | ⟨lenient, ends⟩
  · exact next.transfer rfl fun σ' _ => by rw [read_run, same]
  · exact ⟨next.result, fun _ run => .inl (ends run), fun _ _ => .inl lenient⟩

/-- An operation that is a fault the second time. -/
theorem once (known : Annotations → Bool) (next : Annotations → Annotations) {fault : Fault} {a : α}
    (run : ∀ c σ, m c σ = if known σ.annotations then .error fault
      else .ok (a, { σ with annotations := next σ.annotations }))
    (keeps : known σ.annotations = false → Q a ∧ (next σ.annotations).WellFormed) :
      C.TracksAt scope σ m Q where
  result ok := by
    rw [run] at ok
    split at ok
    · cases ok
    · next fresh =>
      cases ok
      obtain ⟨holds, wf⟩ := keeps (Bool.eq_false_iff.mpr fresh)
      exact ⟨holds, wf, fun ends => ends⟩
  follows {σ' a τ} agree ok := by
    rw [run] at ok
    split at ok
    · cases ok
    · next fresh =>
      cases ok
      refine .inr
        ⟨{ σ' with annotations := next σ.annotations }, ?_, { agree with annotations := rfl }⟩
      rw [run, agree.annotations, if_neg fresh]
  fails agree error := by
    rw [run] at error
    split at error
    · next twice =>
      cases error
      exact .inr (by rw [run, agree.annotations, if_pos twice])
    · cases error

end TracksAt

namespace Tracks

variable {m : Check α} {f : α → Check β} {Q Q' : α → Prop} {R : β → Prop}

section

variable {scope : Scope} {σ σ' τ : Findings} {a : α} {fault : Fault}

variable (tracks : C.Tracks m Q)

include tracks

variable (wf : σ.annotations.WellFormed)

include wf

theorem result (run : m (C.first scope) σ = .ok (a, τ)) :
    Q a ∧ τ.annotations.WellFormed ∧ (C.Ends σ.diagnostics → C.Ends τ.diagnostics) :=
  (tracks scope σ wf).result run

theorem follows (agree : C.Agree σ σ') (run : m (C.first scope) σ = .ok (a, τ)) :
    C.Ends τ.diagnostics ∨ ∃ τ', m (C.second scope) σ' = .ok (a, τ') ∧ C.Agree τ τ' :=
  (tracks scope σ wf).follows agree run

theorem fails (agree : C.Agree σ σ')
    (run : m (C.first scope) σ = .error fault) : C.Lenient ∨ m (C.second scope) σ' = .error fault :=
  (tracks scope σ wf).fails agree run

end

/-! ## Putting pieces together -/

theorem pure {a : α} (holds : Q a) : C.Tracks (pure a) Q := by
  refine fun scope σ wf => ⟨fun run => ?_, fun agree run => ?_, fun _ run => ?_⟩
  · cases run
    exact ⟨holds, wf, id⟩
  · cases run
    exact .inr ⟨_, rfl, agree⟩
  · cases run

theorem mono (tracks : C.Tracks m Q) (weaker : ∀ a, Q a → Q' a) : C.Tracks m Q' :=
  fun scope σ wf => (tracks scope σ wf).mono fun a _ _ _ => weaker a

theorem forget (tracks : C.Tracks m Q) : C.Follows m := tracks.mono fun _ _ => trivial

theorem bind (one : C.Tracks m Q) (next : ∀ a, Q a → C.Tracks (f a) R) : C.Tracks (m >>= f) R :=
  fun scope σ wf => (one scope σ wf).bind fun a υ _ holds => next a holds scope υ

/-- A piece whose result does not matter may come first. -/
theorem seq (one : C.Tracks m Q) (next : ∀ a, C.Tracks (f a) R) : C.Tracks (m >>= f) R :=
  one.bind fun a _ => next a

theorem mapM {f : α → Check β} {xs : List α} (each : ∀ x ∈ xs, C.Tracks (f x) R) :
    C.Tracks (xs.mapM f) fun ys => ∀ y ∈ ys, R y := by
  induction xs with
  | nil => exact pure (List.forall_mem_nil _)
  | cons x rest ih =>
    obtain ⟨one, others⟩ := List.forall_mem_cons.mp each
    rw [List.mapM_cons]
    exact one.bind fun y holds => (ih others).bind fun ys more =>
      pure (List.forall_mem_cons.mpr ⟨holds, more⟩)

theorem forM {f : α → Check PUnit} {xs : List α} (each : ∀ x ∈ xs, C.Follows (f x)) :
    C.Follows (xs.forM f) := by
  induction xs with
  | nil => exact pure trivial
  | cons x rest ih =>
    obtain ⟨one, others⟩ := List.forall_mem_cons.mp each
    exact one.seq fun _ => ih others

/-! ## Operations -/

theorem fail (fault : Fault) : C.Tracks (fail fault) Q := by
  refine fun scope σ wf => ⟨fun run => ?_, fun _ run => ?_, fun _ run => ?_⟩
  · cases run
  · cases run
  · cases run
    exact .inr rfl

theorem ofExcept (result : Except Fault α) :
    C.Tracks (Check.ofExcept result) fun a => result = .ok a := by
  cases result with
  | error fault => exact fail fault
  | ok a => exact pure rfl

/-- An operation on the findings that always succeeds. -/
theorem update {value : Findings → α} {next : Findings → Findings}
    (here : ∀ scope σ, m (C.first scope) σ = .ok (value σ, next σ))
    (there : ∀ scope σ, m (C.second scope) σ = .ok (value σ, next σ))
    (keeps : ∀ σ, σ.annotations.WellFormed → Q (value σ) ∧ (next σ).annotations.WellFormed ∧
      (C.Ends σ.diagnostics → C.Ends (next σ).diagnostics))
    (agrees : ∀ σ σ', C.Agree σ σ' → value σ' = value σ ∧ C.Agree (next σ) (next σ')) :
    C.Tracks m Q := by
  refine fun scope σ wf => ⟨fun run => ?_, fun agree run => ?_, fun _ run => ?_⟩
  all_goals rw [here] at run; cases run
  · exact keeps _ wf
  · obtain ⟨same, agree'⟩ := agrees _ _ agree
    exact .inr ⟨_, (there _ _).trans (by rw [same]), agree'⟩

theorem record (issue : Issue) (span : Span) (severity : Severity) :
    C.Follows (record issue span severity) :=
  update (fun _ _ => rfl) (fun _ _ => rfl) (fun _ wf => ⟨trivial, wf, C.ends_append _⟩)
    fun _ _ agree => ⟨rfl, { agree with diagnostics := C.append _ agree.diagnostics }⟩

theorem report (issue : Issue) (span : Span) : C.Follows (report issue span) :=
  record issue span .error

theorem reject (issue : Issue) (span : Span) : C.Tracks (reject issue span) Ty.WellFormed :=
  (report issue span).seq fun _ => pure trivial

theorem orReject {result : Except Issue Ty} (wf : ∀ t, result = .ok t → t.WellFormed)
    (span : Span) : C.Tracks (orReject result span) Ty.WellFormed := by
  cases result with
  | ok t => exact pure (wf t rfl)
  | error issue => exact reject issue span

/-- What is found so far is the same in both checks, but for the diagnostics. -/
theorem inspect {f : Findings → Check β} (same : ∀ σ σ', C.Agree σ σ' → f σ' = f σ)
    (next : ∀ σ, σ.annotations.WellFormed → C.Tracks (f σ) R) : C.Tracks (get >>= f) R := by
  refine fun scope σ wf => (next σ wf scope σ wf).transfer rfl fun σ' agree => ?_
  rw [get_run, same σ σ' agree]

theorem setEmitPending (pending : Bool) : C.Follows (setEmitPending pending) :=
  update (fun _ _ => rfl) (fun _ _ => rfl) (fun _ wf => ⟨trivial, wf, id⟩)
    fun _ _ agree => ⟨rfl, { agree with emitPending := rfl }⟩

theorem takeEmitPending : C.Follows takeEmitPending := by
  refine inspect (fun σ σ' agree => ?_) fun σ _ => (setEmitPending false).seq fun _ => pure trivial
  rw [agree.emitPending]

theorem expression? (id : NodeId) :
    C.Tracks (expression? id) fun found => ∀ t, found = some t → t.WellFormed := by
  refine inspect (fun σ σ' agree => ?_) fun σ wf => pure fun t known => ?_
  · rw [agree.annotations]
  · exact wf.expressions _ (TypeTable.mem_of_get? known)

theorem annotateVariable (id : NodeId) {t : Ty} (wf : t.WellFormed) :
    C.Follows (annotateVariable id t) :=
  fun _ _ old => .once (fun annotations => (annotations.var? id).isSome)
    (fun annotations => { annotations with vars := annotations.vars.insert id t })
    (fun _ _ => annotateVariable_run id t)
    fun _ => ⟨trivial, { old with vars := TypeTable.wellFormed_insert old.vars wf }⟩

end Tracks

/-! ## Settings -/

/-- An issue that the second check does not need to have. -/
def Omits (C : Comparison) (issue : Issue) : Prop :=
  ∀ ds ds' span, C.Matches ds ds' → C.Matches (ds ++ [⟨issue, span, .error⟩]) ds'

/-- An issue of the first check after which nothing is asked of the second. -/
def Fatal (C : Comparison) (issue : Issue) : Prop :=
  ∀ ds span, C.Ends (ds ++ [⟨issue, span, .error⟩])

/-- After such an issue it does not matter how the first check goes on. -/
theorem Fatal.ends {issue : Issue} (fatal : C.Fatal issue) {scope : Scope} {σ τ : Findings}
    {span : Span} {b : β} {f : Unit → Check β}
    (next : ∀ υ, report issue span (C.first scope) σ = .ok ((), υ) → C.TracksAt scope υ (f ())
      fun _ => True)
    (run : (report issue span >>= f) (C.first scope) σ = .ok (b, τ)) : C.Ends τ.diagnostics :=
  ((next { σ with diagnostics := σ.diagnostics ++ [⟨issue, span, .error⟩] } rfl).result run).2.2
    (fatal _ span)

theorem requireFeature (C : Comparison) (scope : Scope) (feature : Feature)
    (available : EvmVersion → Bool) (lasting : EvmVersion.Lasting available) :
    Settles C.Fatal ((C.first scope).requireFeature feature available)
      ((C.second scope).requireFeature feature available) := by
  show Settles C.Fatal
    (if available C.here.evmVersion then .ok ()
      else .error (.featureUnavailable feature C.here.evmVersion))
    (if available C.there.evmVersion then .ok ()
      else .error (.featureUnavailable feature C.there.evmVersion))
  rcases C.version with same | ⟨older, fatal⟩
  · rw [same]
    exact .inl rfl
  · by_cases available' : available C.here.evmVersion = true
    · rw [if_pos available', if_pos (lasting _ _ older available')]
      exact .inl rfl
    · rw [if_neg available']
      exact .inr ⟨_, rfl, fun ds span => fatal ds feature span⟩

/-- The issues of the two checks: the same, or one of the first that the second need not have. -/
def Narrows (C : Comparison) (issue issue' : Option Issue) : Prop :=
  issue' = issue ∨ ∃ extra, issue = some extra ∧ issue' = none ∧ C.Omits extra

/-- Only the older coder refuses what needs the newer one. -/
theorem legacy (C : Comparison) (scope : Scope) (encodable : Bool) (t : Ty) : C.Narrows
      (if (C.first scope).abiCoder == .v1 && !encodable then some (.notEncodable t .needsCoderV2)
        else none)
      (if (C.second scope).abiCoder == .v1 && !encodable then some (.notEncodable t .needsCoderV2)
        else none) := by
  have here : (C.first scope).abiCoder = C.unit.abiCoder.getD C.here.abiCoder := rfl
  have there : (C.second scope).abiCoder = C.unit.abiCoder.getD C.there.abiCoder := rfl
  rw [here, there]
  rcases C.coder with same | ⟨newer, omits⟩
  · rw [same]
    exact .inl rfl
  · rw [newer]
    split
    · exact .inr ⟨_, rfl, rfl, fun ds ds' span => omits ds ds' t span⟩
    · exact .inl rfl

namespace Tracks

variable {f : Context → Check β} {R : β → Prop}

/-- A report that the second check may omit. -/
theorem reportIf {issue? : Context → Option Issue} (span : Span)
    (alike : ∀ scope, C.Narrows (issue? (C.first scope)) (issue? (C.second scope))) :
    C.Follows (Check.reportIf issue? span) := by
  have here (scope : Scope) : C.Follows (match issue? (C.first scope) with
      | some issue => Check.report issue span
      | _ => Pure.pure ()) := by
    split
    · exact report _ span
    · exact pure trivial
  intro scope σ wf
  rcases alike scope with same | ⟨issue, found, missing, omits⟩
  · refine (here scope scope σ wf).transfer rfl fun σ' _ => ?_
    rw [Check.reportIf, Check.read_run, same]
  · refine ⟨(here scope).result wf, fun {σ' a τ} agree run => ?_, fun _ run => ?_⟩
    all_goals rw [Check.reportIf, Check.read_run, found] at run; cases run
    refine .inr ⟨σ', ?_, { agree with diagnostics := omits _ _ span agree.diagnostics }⟩
    rw [Check.reportIf, Check.read_run, missing]
    rfl

/-- What is read but for the settings is the same in both checks. -/
theorem read (same : ∀ scope, f (C.second scope) = f (C.first scope))
    (next : ∀ scope, C.Tracks (f (C.first scope)) R) : C.Tracks (read >>= f) R :=
  fun scope σ wf => .gate (.inl (same scope)) (next scope scope σ wf)

end Tracks

end Comparison

/-- Both checks see what has been typed and what is declared in the same way. They have different
rules, so that remarks are followed only if they do not ask for these. -/
theorem Check.Remarks.follows {C : Comparison} {α : Type} {m : Check α}
    (remarks : Remarks False True m) : C.Follows m := by
  induction remarks with
  | pure a => exact .pure trivial
  | bind _ _ first next => exact first.seq next
  | record _ => exact .record _ _ _
  | look _ same _ next => exact .read (fun _ => same _ _ rfl rfl) fun _ => next _
  | expression? _ id => exact (Comparison.Tracks.expression? id).forget
  | fail _ fault => exact .fail fault
  | ask allowed | structMembers allowed => exact allowed.elim

end ContractTyping
