import ContractTyping.Proofs.Trace.Contract
import Mathlib.Data.List.Forall2

/-!
# Traces of a source unit

The visits of a source unit are about all of its expressions (`SourceUnit.visitNodes_visits`), and a
check that passes has made all of them (`Ending.Reached.made`), since it has checked every part as a
whole (`Ending.Reached.partBody`). What a check has done is known by a run that came to its end
(`Ending.Ends`).
-/

namespace ContractTyping

open Check List

/-! ## The visits of a unit -/

def SourceUnit.visits (unit : SourceUnit) : List Visit := unit.parts.flatMap UnitPart.visits

/-- The expressions at any depth that visits are about. -/
def visitNodes (visits : List Visit) : List Expr := visits.flatMap fun visit => visit.expr.nodes

/-- The visits of a walk are about the expressions that it goes through. -/
theorem Check.Walks.visitNodes {allowed : Variable → Prop} {c : Context} {visits : List Visit}
    {I : Inventory} {α : Type} {m : Check α} (walks : Walks allowed c visits I m) :
    visitNodes visits = I.nodes := by
  induction walks with
  | @bind α _ inhabited _ _ _ _ _ _ _ _ _ first next =>
    obtain ⟨a⟩ := inhabited
    rw [ContractTyping.visitNodes, flatMap_append]
    exact congrArg₂ (· ++ ·) first (next a)
  | followPath _ _ next => exact next none (fun _ same => by cases same)
  | read _ _ _ inner | within _ _ inner => exact inner
  | expression e | calleeKind e | emitStatement e => exact append_nil _
  | _ => rfl

/-- The visits of a unit are about all of its expressions. -/
theorem SourceUnit.visitNodes_visits (unit : SourceUnit) :
    visitNodes unit.visits = unit.inventory.nodes := by
  have walks (part : UnitPart) :
    Walks (fun _ => True) (contextOf unit {}) part.visits part.inventory (partBody part) :=
    .partBody rfl fun _ _ => trivial
  rw [SourceUnit.visits, visitNodes, flatMap_assoc]
  exact congrArg unit.parts.flatMap (funext fun part => (walks part).visitNodes)

/-! ## Runs that came to their end -/

namespace Ending

variable {E : Ending} {α β : Type} {scope : Scope}

/-- Whether a check was run without the mark of an emit statement, and ended well with a value. -/
def Ends (E : Ending) (scope : Scope) (m : Check α) (a : α) : Prop :=
  ∃ σ τ, σ.emitPending = false ∧ m (E.context scope) σ = .ok (a, τ) ∧ τ.Extends E.found

namespace Ends

variable {m : Check α} {f : α → Check β}
variable {b : β} {span : Span} {t : Ty}
variable {a : α} {issue : Issue}

/-- The two halves of a check, which may visit expressions. -/
theorem split (first : Proceeds m) (next : ∀ a, Proceeds (f a)) (ends : E.Ends scope (m >>= f) b) :
    ∃ a, E.Ends scope m a ∧ E.Ends scope (f a) b := by
  obtain ⟨σ, τ, calm, run, later⟩ := ends
  obtain ⟨a, υ, one, two⟩ := bind_ok.mp run
  have still := (first _ σ a υ calm one).emitPending calm
  exact ⟨a, ⟨σ, υ, calm, one, (next a _ υ b τ still two).toExtends.trans later⟩, υ, τ,
    still, two, later⟩

theorem bind (first : Advances m) (next : ∀ a, Advances (f a)) (ends : E.Ends scope (m >>= f) b) :
    ∃ a, E.Ends scope m a ∧ E.Ends scope (f a) b :=
  ends.split (fun c σ a τ _ => first c σ a τ) fun a c σ b τ _ => next a c σ b τ

theorem pure {b : α} (ends : E.Ends scope (Pure.pure a) b) : b = a := by
  obtain ⟨σ, τ, -, run, -⟩ := ends
  cases run
  rfl

theorem read {f : Context → Check β} (ends : E.Ends scope (MonadReader.read >>= f) b) :
    E.Ends scope (f (E.context scope)) b :=
  ends

theorem within {inner : Scope} (ends : E.Ends scope (within inner m) a) : E.Ends inner m a :=
  ends

theorem declareAll {vars : List Variable} {role : VariableRole} {types : List Ty}
    (ends : E.Ends scope (declareAll vars role) types) :
    List.Forall₂ (fun v t => E.Ends scope (declare v role) t) vars types := by
  unfold Check.declareAll at ends
  induction vars generalizing types with
  | nil =>
    cases ends.pure
    exact .nil
  | cons v rest ih =>
    rw [mapM_cons] at ends
    obtain ⟨t, first, ends⟩ := ends.split (.of_walks fun _ => .declare v role) fun t =>
      .of_walks fun _ => (Walks.declareAll rest role).before fun types => .pure (t :: types)
    obtain ⟨types, others, ends⟩ := ends.split (.of_walks fun _ => .declareAll rest role)
      fun types =>
      .of_walks fun _ => .pure (t :: types)
    cases ends.pure
    exact .cons first (ih others)

/-- A check that passes has not reported an error. -/
theorem not_report (passes : E.Passes) {a : Unit} : ¬ E.Ends scope (report issue span) a := by
  rintro ⟨σ, τ, -, run, later⟩
  cases run
  cases passes.errors _ (later.diagnostics (mem_append_right _ (mem_singleton_self _)))

theorem not_reject (passes : E.Passes) : ¬ E.Ends scope (reject issue span) t := by
  rintro ⟨σ, τ, -, run, later⟩
  cases run
  cases passes.errors _ (later.diagnostics (mem_append_right _ (mem_singleton_self _)))

theorem orReject (passes : E.Passes) {result : Except Issue Ty}
    (ends : E.Ends scope (orReject result span) t) : result = .ok t := by
  cases result with
  | ok t => rw [ends.pure]
  | error issue => exact absurd ends (not_reject passes)

theorem annotate {id : NodeId} {t' : Ty} (ends : E.Ends scope (annotate id t) t') : t' = t := by
  obtain ⟨σ, τ, -, run, -⟩ := ends
  rw [annotate_run] at run
  split at run
  · cases run
  · cases run
    rfl

/-- A type is worked out and recorded. -/
theorem thenAnnotate {m : Check Ty} {id : NodeId}
    (ends : E.Ends scope (m >>= Check.annotate id) t) : E.Ends scope m t := by
  obtain ⟨σ, τ, calm, run, later⟩ := ends
  obtain ⟨given, υ, worked, run⟩ := bind_ok.mp run
  cases annotate_value run
  exact ⟨σ, υ, calm, worked, (Advances.annotate _ _ _ υ _ τ run).toExtends.trans later⟩

theorem recorded {e : Expr} {demand : Demand} (ends : E.Ends scope (expression e demand) t) :
    E.found.expression? e.id = some t := by
  obtain ⟨σ, τ, -, run, later⟩ := ends
  exact later.expression _ _ (Records.expression e demand _ σ t τ run)

/-- A check that passes records a variable with the type that its type name resolves to. -/
theorem declareType (passes : E.Passes) {v : Variable} {role : VariableRole}
    (ends : E.Ends scope (declare v role) t) :
    (E.declarations.declaredType v).run = .ok (.ok t) ∧ E.found.var? v.id = some t := by
  obtain ⟨σ, τ, -, run, later⟩ := ends
  obtain ⟨-, recorded, resolved | ⟨d, mem, isError⟩⟩ := declare_ok run
  · exact ⟨resolved, later.var _ _ recorded⟩
  · rw [passes.errors d (later.diagnostics mem)] at isError
    cases isError

/-- Without the mark, a call is not what an emit statement is about. -/
theorem takeEmitPending {f : Bool → Check β} (ends : E.Ends scope (takeEmitPending >>= f) b) :
    E.Ends scope (f false) b := by
  obtain ⟨σ, τ, calm, run, later⟩ := ends
  obtain ⟨emitted, υ, taken, run⟩ := bind_ok.mp run
  cases taken
  rw [calm] at run
  exact ⟨_, τ, rfl, run, later⟩

end Ends

end Ending

/-! ## The parts of a unit -/

namespace Ending

variable {E : Ending}
variable {part : UnitPart} {σ : Findings}

/-- A part is checked as a whole, unless a contract is marked. -/
theorem partBody_of_unitPart {τ : Findings} (calm : σ.emitPending = false)
    (run : unitPart part (E.context {}) σ = .ok ((), τ)) (unmarked : τ.cyclic = []) :
    ∃ υ, υ.emitPending = false ∧ partBody part (E.context {}) υ = .ok ((), τ) := by
  cases part with
  | contract c =>
    have run' : contract c (E.context {}) σ = .ok ((), τ) := run
    rw [contract_eq] at run'
    obtain ⟨answer, υ, asked, run'⟩ := bind_ok.mp run'
    obtain ⟨-, pending, left⟩ := isCyclic_extends asked
    cases answer with
    | true =>
      cases run'
      exact absurd unmarked (left rfl)
    | false => exact ⟨υ, pending.trans calm, run'⟩
  | struct _ | function _ | usingFor _ => exact ⟨σ, calm, run⟩

theorem partBody_of_parts {parts : List UnitPart} (passes : E.Passes) (calm : σ.emitPending = false)
    (run : parts.forM unitPart (E.context {}) σ = .ok ((), E.found)) :
    ∀ part ∈ parts, E.Ends {} (partBody part) () := by
  induction parts generalizing σ with
  | nil => exact forall_mem_nil _
  | cons part rest ih =>
    obtain ⟨_, τ, first, run⟩ := bind_ok.mp run
    have still := (unitPart_extends calm first).2
    have later := (parts_extends still run).1
    have unmarked : τ.cyclic = [] := eq_nil_of_subset_nil (passes.acyclic ▸ later.cyclic)
    obtain ⟨υ, before, body⟩ := partBody_of_unitPart calm first unmarked
    exact forall_mem_cons.mpr ⟨⟨υ, τ, before, body, later⟩, ih still run⟩

/-- A run of the checks of all parts, up to the given findings. -/
def Reached (E : Ending) : Prop :=
  E.unit.parts.forM unitPart (contextOf E.unit E.settings) {} = .ok ((), E.found)

/-- In a check that passes every part has been checked as a whole. -/
theorem Reached.partBody (reached : E.Reached) (passes : E.Passes) :
    ∀ part ∈ E.unit.parts, E.Ends {} (partBody part) () :=
  partBody_of_parts passes rfl reached

/-! ## The parts of a contract -/

/-- Every part of a contract has been checked, a state variable with the type that goes with it. -/
theorem Ends.contractParts {scope : Scope} {parts : List ContractPart} {types : List Ty}
    {R : Variable → Ty → Prop}
    (typed : List.Forall₂ R (parts.filterMap ContractPart.stateVariable?) types)
    (ends : E.Ends scope (contractParts parts types) ()) :
    ∀ part ∈ parts, ∃ given, E.Ends scope (contractPart given part) () ∧
      ∀ v, part = .stateVariable v → ∃ t, given.head? = some t ∧ R v t := by
  induction parts generalizing types with
  | nil => exact forall_mem_nil _
  | cons part rest ih =>
    rw [contractParts_cons] at ends
    obtain ⟨_, first, ends⟩ :=
      ends.split (.of_walks fun _ => .contractPart (fun _ _ => trivial) types) fun _ =>
      .of_walks fun _ => .contractParts (fun _ _ => trivial) _
    cases part with
    | stateVariable v =>
      cases typed with
      | @cons _ t _ types own others =>
        refine forall_mem_cons.mpr ⟨⟨t :: types, first, fun w same => ?_⟩, ih others ends⟩
        cases same
        exact ⟨t, rfl, own⟩
    | _ => exact forall_mem_cons.mpr ⟨⟨types, first, nofun⟩, ih typed ends⟩

/-- In a check that passes every part of a contract has been checked. -/
theorem Reached.contractPart (reached : E.Reached) (passes : E.Passes) {c : Contract}
    (inUnit : .contract c ∈ E.unit.parts) {part : ContractPart} (mem : part ∈ c.parts) :
    ∃ given, E.Ends { contract := some c } (contractPart given part) () ∧
      ∀ v, part = .stateVariable v →
        ∃ t, given.head? = some t ∧ E.Ends { contract := some c } (declare v .state) t := by
  have ends : E.Ends {} (members c) () := reached.partBody passes _ inUnit
  replace ends := ends.within
  have parts (types : List Ty) :
    Proceeds (Check.contractParts c.parts types >>= fun _ => c.kindIssues.forM _) :=
    .of_walks fun _ => (Walks.contractParts (fun _ _ => trivial) types).before fun _ => .kindIssues
  obtain ⟨_, -, ends⟩ :=
    ends.split (.of_walks fun _ => .forM fun specifier _ => .baseSpecifier specifier) fun _ =>
    .of_walks fun _ => (Walks.declareAll c.stateVariables .state).bind fun types =>
      (Walks.contractParts (fun _ _ => trivial) types).before fun _ => .kindIssues
  obtain ⟨types, declares, ends⟩ :=
    ends.split (.of_walks fun _ => .declareAll c.stateVariables .state) parts
  obtain ⟨_, parts, -⟩ :=
    ends.split (.of_walks fun _ => .contractParts (fun _ _ => trivial) types) fun _ =>
    .of_walks fun _ => .kindIssues
  exact parts.contractParts declares.declareAll part mem

/-! ## Visits -/

/-- What stands by itself in a part has been visited, and its variables are typed. -/
theorem traces_of_partBody (ends : E.Ends {} (partBody part) ()) :
    (∀ visit ∈ part.visits, visit.Made (E.context {}) E.found) ∧
      ∀ v ∈ part.inventory.vars ++ part.inventory.fields, v.TypedIn (E.context {}) E.found := by
  obtain ⟨σ, τ, calm, run, later⟩ := ends
  have walks : Walks (fun _ => True) (E.context {}) part.visits part.inventory (partBody part) :=
    .partBody rfl fun _ _ => trivial
  obtain ⟨-, made, typed⟩ := walks.result calm run
  exact ⟨fun visit mem => (made visit mem).later later, fun v mem => (typed v mem).later later⟩

theorem Reached.made (reached : E.Reached) (passes : E.Passes) :
    ∀ visit ∈ E.unit.visits, visit.Made (E.context {}) E.found := by
  intro visit mem
  obtain ⟨part, inParts, inPart⟩ := mem_flatMap.mp mem
  exact (traces_of_partBody (reached.partBody passes part inParts)).1 visit inPart

end Ending

end ContractTyping
