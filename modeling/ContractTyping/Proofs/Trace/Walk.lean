import ContractTyping.Proofs.Comparison.Expression
import ContractTyping.Proofs.Walk.Contract

/-!
# Traces of walks

A walk that ends well has made its visits, and what it goes through is typed, whether errors are
found or not (`Check.Walks.result`). A check under other settings goes along with it
(`Comparison.Tracks.of_walks`).
-/

namespace ContractTyping

open Check List

namespace Check

variable {α β : Type} {c : Context} {σ τ : Findings} {v : Variable}

/-! ## Steps that type something -/

/-- A variable is recorded with its type. This is that of its type name, or there is an error. -/
theorem declare_ok {v : Variable} {role : VariableRole} {t : Ty}
    (run : declare v role c σ = .ok (t, τ)) : σ.Precedes τ ∧ τ.var? v.id = some t ∧
      ((c.declarations.declaredType v).run = .ok (.ok t) ∨ ∃ d ∈ τ.diagnostics, d.isError) := by
  unfold declare at run
  rw [read_run] at run
  obtain ⟨result, υ, resolving, run⟩ := bind_ok.mp run
  obtain ⟨given, φ, judging, run⟩ := bind_ok.mp run
  have resolved := eq_ok_of_ofExcept ⟨c, σ, υ, resolving⟩
  have ordinary : ∀ issue, result = .error issue → issue.isOrdinary := by
    rintro issue rfl
    exact Declarations.declaredType_ordinary v issue resolved
  have before : σ.Precedes φ :=
    (Advances.ofExcept _ c σ result υ resolving).trans
      (Advances.orReject ordinary _ c υ given φ judging)
  have rest (_ : Unit) {ψ : Findings}
      (run : (do annotateVariable v.id given; return given : Check Ty) c ψ = .ok (t, τ)) :
      ψ.Precedes τ ∧ given = t ∧ τ.var? v.id = some given := by
    obtain ⟨_, χ, recording, run⟩ := bind_ok.mp run
    cases run
    exact ⟨Advances.annotateVariable _ _ c ψ _ _ recording, rfl,
      annotateVariable_recorded recording⟩
  have tail : φ.Precedes τ ∧ given = t ∧ τ.var? v.id = some given := by
    split at run
    · exact rest () run
    · have required {ψ χ : Findings} {u : Unit}
        (run : requireParameter role given v.span c ψ = .ok (u, χ)) :=
        (Remarks.requireParameter role given v.span).advances c ψ u χ run
      cases fault : locationFault? role given v.traits.location with
      | some issue =>
        rw [fault] at run
        obtain ⟨_, ψ, reported, run⟩ := bind_ok.mp run
        obtain ⟨_, χ, asked, run⟩ := bind_ok.mp run
        obtain ⟨after, recorded⟩ := rest () run
        exact ⟨(Advances.report rfl _ c φ _ _ reported).trans ((required asked).trans after),
          recorded⟩
      | none =>
        rw [fault] at run
        obtain ⟨_, χ, asked, run⟩ := bind_ok.mp run
        obtain ⟨after, recorded⟩ := rest () run
        exact ⟨(required asked).trans after, recorded⟩
  obtain ⟨after, rfl, recorded⟩ := tail
  refine ⟨before.trans after, recorded, ?_⟩
  cases result with
  | ok _ =>
    cases judging
    exact .inl resolved
  | error _ =>
    cases judging
    exact .inr ⟨_, after.toExtends.diagnostics (mem_append_right _ (mem_singleton_self _)), rfl⟩

theorem declare_typed {role : VariableRole} {t : Ty} (run : declare v role c σ = .ok (t, τ)) :
    v.TypedIn c τ := by
  obtain ⟨-, recorded, typed⟩ := declare_ok run
  refine ⟨t, recorded, typed.imp_left fun resolved => ?_⟩
  exact ⟨Declarations.typed_of_declaredType ⟨t, resolved⟩,
    Ty.clean_hereditary.declaredType v resolved⟩

theorem structField_ok (run : structField v c σ = .ok ((), τ)) : σ.Precedes τ ∧ v.TypedIn c τ := by
  unfold structField at run
  cases named : v.typeName with
  | none =>
    rw [named] at run
    obtain ⟨t, υ, rejected, run⟩ := bind_ok.mp run
    have after := Advances.annotateVariable _ _ c υ () τ run
    refine ⟨(Advances.reject rfl _ c σ t υ rejected).trans after, t,
      annotateVariable_recorded run, .inr ?_⟩
    cases rejected
    exact ⟨_, after.toExtends.diagnostics (mem_append_right _ (mem_singleton_self _)), rfl⟩
  | some typeName =>
    rw [named] at run
    obtain ⟨result, υ, resolving, run⟩ := bind_ok.mp run
    obtain ⟨t, φ, judging, run⟩ := bind_ok.mp run
    have after := Advances.annotateVariable _ _ c φ () τ run
    have ordinary := ordinary_of_resolve ⟨c, σ, υ, resolving⟩
    refine ⟨((Advances.resolve _ _ c σ result υ resolving).trans
      (Advances.orReject ordinary _ c υ t φ judging)).trans after, t,
      annotateVariable_recorded run, ?_⟩
    have resolved : (c.declarations.resolve typeName ⟨.storage, false⟩).run = .ok result :=
      eq_ok_of_ofExcept ⟨c, σ, υ, resolving⟩
    cases result with
    | ok _ =>
      cases judging
      exact .inl
        ⟨⟨typeName, named, fun place => Declarations.resolve_elsewhere typeName
          ⟨_, resolved⟩ place⟩,
        Ty.clean_hereditary.resolve typeName resolved⟩
    | error _ =>
      cases judging
      exact .inr ⟨_, after.toExtends.diagnostics (mem_append_right _ (mem_singleton_self _)), rfl⟩

/-- What is asked after the visit of what is emitted: it calls an event, or there is an error. -/
theorem emitStatement_announced {event : Expr} {a : PUnit}
    (run : (do unless (← calleeKind? event) == some .event do
      invalidStatement .notEvent event.span : Check PUnit) c σ = .ok (a, τ)) :
    σ.Precedes τ ∧
      (τ.annotations.calleeKind? event = some .event ∨ ∃ d ∈ τ.diagnostics, d.isError) := by
  obtain ⟨kind, υ, asked, run⟩ := bind_ok.mp run
  rw [calleeKind?_run] at asked
  cases asked
  split at run
  · next isEvent =>
    cases run
    exact ⟨.refl σ, .inl (beq_iff_eq.mp isEvent)⟩
  · refine ⟨Advances.report rfl _ c σ a τ run, .inr ?_⟩
    cases run
    exact ⟨_, mem_append_right _ (mem_singleton_self _), rfl⟩

/-- The mark of an emit statement is there while its expression is visited, and gone in the end. -/
theorem emitStatement_ok {event : Expr} (run : emitStatement event c σ = .ok ((), τ)) :
    σ.Precedes τ ∧ (Visit.mk event c.scope true).Made c τ := by
  obtain ⟨_, marked, mark, run⟩ := bind_ok.mp run
  cases mark
  obtain ⟨t, υ, visit, run⟩ := bind_ok.mp run
  obtain ⟨_, cleared, clear, run⟩ := bind_ok.mp run
  cases clear
  have inner := Advances.expression event {} c _ t υ visit
  obtain ⟨last, announced⟩ := emitStatement_announced run
  have cleared : υ.Precedes { υ with emitPending := false } :=
    ⟨fun _ _ known => known, fun _ _ known => known, ⟨[], (append_nil _).symm, forall_mem_nil _⟩,
      rfl, fun _ => rfl⟩
  have whole := inner.trans (cleared.trans last)
  exact ⟨⟨whole.expression, whole.var, whole.diagnostics, whole.cyclic,
    fun _ => last.emitPending rfl⟩,
    ⟨_, t, υ, rfl, visit, (cleared.trans last).toExtends⟩, fun _ => announced⟩

/-! ## Steps that type nothing -/

/-- A step that visits and types nothing. -/
theorem Advances.result {m : Check α} {a : α} (advances : Advances m) (run : m c σ = .ok (a, τ)) :
    σ.Precedes τ ∧ (∀ visit ∈ ([] : List Visit), visit.Made c τ) ∧
      ∀ v ∈ ([] : List Variable), v.TypedIn c τ :=
  ⟨advances c σ a τ run, forall_mem_nil _, forall_mem_nil _⟩

/-! ## Walks -/

namespace Walks

variable {allowed : Variable → Prop} {visits : List Visit} {I : Inventory} {m : Check α}

theorem result (walks : Walks allowed c visits I m) :
    ∀ {σ a τ}, σ.emitPending = false → m c σ = .ok (a, τ) →
    σ.Precedes τ ∧ (∀ visit ∈ visits, visit.Made c τ) ∧
      ∀ v ∈ I.vars ++ I.fields, v.TypedIn c τ := by
  induction walks with
  | remarks remarks => exact fun _ run => (remarks True True).advances.result run
  | bind _ _ first next =>
    intro σ b τ calm run
    obtain ⟨a, υ, one, two⟩ := bind_ok.mp run
    obtain ⟨before, made, typed⟩ := first calm one
    obtain ⟨after, made', typed'⟩ := next a (before.emitPending calm) two
    refine ⟨before.trans after,
      forall_mem_append.mpr ⟨fun visit mem => (made visit mem).later after.toExtends, made'⟩,
      fun v mem => ?_⟩
    rcases Inventory.mem_append.mp mem with mem | mem
    · exact (typed v mem).later after.toExtends
    · exact typed' v mem
  | read _ _ _ inner => exact inner
  | within _ _ inner =>
    intro σ a τ calm run
    obtain ⟨precedes, made, typed⟩ := inner calm run
    exact ⟨precedes, fun visit mem => (made visit mem).rescope, typed⟩
  | requireCrossing => exact fun _ run => (Remarks.requireCrossing _ _ _ _).advances.result run
  | @withFeature c feature available _ span _ _ inner =>
    intro σ _ τ calm run
    unfold Check.withFeature at run
    rw [read_run] at run
    cases answer : c.requireFeature feature available with
    | error issue =>
      rw [answer] at run
      exact (Advances.report (Context.requireFeature_ordinary answer) span).result run
    | ok _ =>
      rw [answer] at run
      exact inner calm run
  | expression e =>
    intro σ t τ calm run
    exact ⟨Advances.expression e {} _ σ t τ run,
      forall_mem_singleton.mpr ⟨⟨σ, t, τ, calm, run, .refl τ⟩, nofun⟩,
      forall_mem_nil _⟩
  | calleeKind e _ next =>
    intro σ a τ calm run
    obtain ⟨t, υ, one, run⟩ := bind_ok.mp run
    rw [bind_run (calleeKind?_run ..)] at run
    have before := Advances.expression e {} _ σ t υ one
    obtain ⟨after, -⟩ := next t _ (before.emitPending calm) run
    exact ⟨before.trans after,
      forall_mem_singleton.mpr ⟨⟨σ, t, υ, calm, one, after.toExtends⟩, nofun⟩,
      forall_mem_nil _⟩
  | emitStatement e =>
    intro σ _ τ _ run
    obtain ⟨precedes, made⟩ := emitStatement_ok run
    exact ⟨precedes, forall_mem_singleton.mpr made, forall_mem_nil _⟩
  | declare v role =>
    intro σ t τ _ run
    exact ⟨(declare_ok run).1, forall_mem_nil _, forall_mem_singleton.mpr (declare_typed run)⟩
  | structField v =>
    intro σ _ τ _ run
    obtain ⟨precedes, typed⟩ := structField_ok run
    exact ⟨precedes, forall_mem_nil _, forall_mem_singleton.mpr typed⟩
  | returnTypes | signatureTypes => exact fun _ run => (Advances.variableTypes _).result run
  | getterType _ =>
    intro σ f τ _ run
    exact Advances.result (.of_upholds fun _ _ => .getterType trivial) run
  | followPath path _ next =>
    intro σ a τ calm run
    obtain ⟨found, υ, one, two⟩ := bind_ok.mp run
    have before := Advances.followPath path _ σ found υ one
    obtain ⟨after, traces⟩ := next found (followPath_found one) (before.emitPending calm) two
    exact ⟨before.trans after, traces⟩
  | resolve typeName place _ next =>
    intro σ a τ calm run
    obtain ⟨result, υ, one, two⟩ := bind_ok.mp run
    have before := Advances.resolve typeName place _ σ result υ one
    obtain ⟨after, traces⟩ :=
      next result (ordinary_of_resolve ⟨_, σ, υ, one⟩) (before.emitPending calm) two
    exact ⟨before.trans after, traces⟩

end Walks

/-- Whether the findings go on from those before, without the mark of an emit statement. -/
def Proceeds (m : Check α) : Prop :=
  ∀ c σ a τ, σ.emitPending = false → m c σ = .ok (a, τ) → σ.Precedes τ

theorem Proceeds.of_walks {m : Check α} {visits : Context → List Visit} {I : Inventory}
    (walks : ∀ c, Walks (fun _ => True) c (visits c) I m) : Proceeds m :=
  fun c _ _ _ calm run => ((walks c).result calm run).1

end Check

/-! ## Other settings -/

namespace Comparison

variable {C : Comparison} {α : Type} {m : Check α}

namespace Tracks

theorem emitStatement (event : Expr) : C.Follows (emitStatement event) := by
  refine (setEmitPending true).seq fun _ => (expression event _).seq fun _ =>
    (setEmitPending false).seq fun _ => ?_
  refine (Remarks.calleeKind event).follows.seq fun kind => ?_
  split
  · exact pure trivial
  · exact report _ _

theorem structField (v : Variable) : C.Follows (structField v) := by
  unfold Check.structField
  cases v.typeName with
  | none => exact (reject _ _).bind fun _ => annotateVariable _
  | some typeName =>
    exact (resolve _ _).bind fun _ wf => (orReject wf _).bind fun _ => annotateVariable _

end Tracks

theorem tracks_of_walks {allowed : Variable → Prop} {c : Context} {visits : List Visit}
    {I : Inventory} (walks : Walks allowed c visits I m) :
    ∀ {scope σ}, c = C.first scope → σ.annotations.WellFormed →
      C.TracksAt scope σ m fun _ => True := by
  induction walks with
  | remarks remarks =>
    rintro scope σ rfl wf
    exact (remarks False True).follows scope σ wf
  | bind _ _ first next =>
    rintro scope σ rfl wf
    exact (first rfl wf).bind fun a _ _ _ => next a rfl
  | read settings _ _ inner =>
    rintro scope σ rfl wf
    exact .gate (.inl (settings C.there)) (inner rfl wf)
  | @within _ _ scope' _ _ _ _ _ inner =>
    rintro scope σ rfl wf
    have tracks : C.TracksAt scope' σ _ _ := inner rfl wf
    exact ⟨tracks.result, tracks.follows, tracks.fails⟩
  | requireCrossing => exact fun _ => Tracks.requireCrossing _ _ _ _ _ _
  | withFeature feature lasting span _ inner =>
    rintro scope σ rfl wf
    refine .gate ?_ ?_
    · rcases C.requireFeature scope feature _ lasting with same | ⟨issue, failed, fatal⟩
      · rw [same]
        exact .inl rfl
      · rw [failed]
        refine .inr ⟨⟨_, fatal [] span⟩, fun run => ?_⟩
        cases run
        exact fatal _ span
    · split
      · exact Tracks.report _ _ scope σ wf
      · exact inner rfl wf
  | expression e => exact fun _ => (Tracks.expression e {}).forget _ _
  | calleeKind e _ next =>
    rintro scope σ rfl wf
    refine ((Tracks.expression e {}) scope σ wf).bind fun t υ _ _ wf' => ?_
    exact ((Remarks.calleeKind e).follows scope υ wf').bind fun kind _ _ _ => next t kind rfl
  | emitStatement e => exact fun _ => Tracks.emitStatement e _ _
  | declare v role => exact fun _ => (Tracks.declare v role).forget _ _
  | structField v => exact fun _ => Tracks.structField v _ _
  | returnTypes | signatureTypes => exact fun _ => Tracks.variableTypes _ _ _
  | @getterType _ v => exact fun _ => Tracks.getterType v _ _
  | followPath path _ next =>
    rintro scope σ rfl wf
    exact (Tracks.followPath path scope σ wf).bind fun found _ run _ =>
      next found (followPath_found run) rfl
  | resolve typeName place _ next =>
    rintro scope σ rfl wf
    exact (Tracks.resolve typeName place scope σ wf).bind fun result υ run _ =>
      next result (ordinary_of_resolve ⟨_, σ, υ, run⟩) rfl

/-- A walk is the same under other settings. -/
theorem Tracks.of_walks {visits : Context → List Visit} {I : Inventory}
    (walks : ∀ c, Walks (fun _ => True) c (visits c) I m) : C.Follows m :=
  fun _ _ => tracks_of_walks (walks _) rfl

end Comparison

end ContractTyping
