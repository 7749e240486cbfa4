import ContractTyping.Proofs.Comparison.Basic
import ContractTyping.Proofs.Trace.Expression

/-!
# Expressions side by side

Every expression gets the same well-formed type in both checks. To be well-formed is a standard for
types (`Comparison.standard`), and that the second check follows goes along with it
(`Comparison.companion`). So it is enough to look at the operations of a check. Of these, encoding
depends on the coder (`encodingIssue?`).
-/

namespace ContractTyping

open Check

namespace Comparison

variable {C : Comparison}

open Ty.WellFormed (hereditary)

/-! ## Encoding -/

theorem encodingIssue? (C : Comparison) (scope : Scope) (packed : Bool) (argument : Ty) :
    C.Narrows (encodingIssue? (C.first scope) packed argument)
      (encodingIssue? (C.second scope) packed argument) := by
  have structs : (C.second scope).structs = (C.first scope).structs := rfl
  unfold Check.encodingIssue?
  rw [structs]
  split
  · exact .inl rfl
  · split
    · exact .inl rfl
    · cases argument.mobile? with
      | none => exact .inl rfl
      | some encoded =>
        show C.Narrows (if _ then _ else _) (if _ then _ else _)
        split
        · exact .inl rfl
        · split
          · exact .inl rfl
          · exact C.legacy scope _ _

namespace Tracks

theorem encodeArguments (packed : Bool) (span : Span) (types : List Ty) (spans : List Span) :
    C.Follows (Check.encodeArguments packed span types spans) := by
  induction types generalizing spans with
  | nil => exact pure trivial
  | cons argument rest ih =>
    have shape : Check.encodeArguments packed span (argument :: rest) spans =
        Check.reportIf (Check.encodingIssue? · packed argument) (spans.head?.getD span) >>= fun _ =>
          Check.encodeArguments packed span rest spans.tail := by
      rw [Check.encodeArguments, Check.reportIf, bind_assoc]
      refine congrArg (MonadReader.read >>= ·) (funext fun c => ?_)
      cases Check.encodingIssue? c packed argument <;> rfl
    rw [shape]
    exact (reportIf _ fun scope => C.encodingIssue? scope packed argument).seq fun _ => ih _

theorem encodeCall (f : FunctionTy) (arguments : Arguments) (span : Span) :
    C.Follows (encodeCall f arguments span) := by
  unfold Check.encodeCall
  dsimp only
  split
  · exact report _ _
  · split
    · exact report _ _
    · exact (Remarks.passPositional _ _ _ _ _).follows.seq fun _ => encodeArguments _ _ _ _

/-! ## The standard -/

theorem variableType (v : Variable) : C.Follows (variableType v) := by
  refine inspect (fun σ σ' agree => ?_) fun σ _ => ?_
  · rw [agree.annotations]
  split
  · exact pure trivial
  · exact .read (fun _ => rfl) fun scope => (ofExcept _).forget

end Tracks

end Comparison

/-- Whether the recorded types of variables are well-formed. -/
def Findings.VarsWellFormed (σ : Findings) : Prop := ∀ id t, σ.var? id = some t → t.WellFormed

theorem Annotations.WellFormed.recorded {σ : Findings} (wf : σ.annotations.WellFormed) :
    σ.VarsWellFormed :=
  fun _ _ known => wf.vars _ (TypeTable.mem_of_get? known)

namespace Comparison

variable {C : Comparison}

open Ty.WellFormed (hereditary)

/-- The second check follows the first one. -/
def companion (C : Comparison) (scope : Scope) :
    Companion (C.first scope) fun σ t => σ.VarsWellFormed → t.WellFormed where
  settings := C.there
  Fatal issue := C.Fatal issue ∧ issue.isOrdinary
  feature feature available lasting := by
    refine (C.requireFeature scope feature available lasting).imp_right ?_
    rintro ⟨issue, failed, fatal⟩
    exact ⟨issue, failed, fatal, Context.requireFeature_ordinary failed⟩
  Holds σ m := σ.annotations.WellFormed → C.TracksAt scope σ m fun _ => True
  remarks σ remarks := remarks.follows scope σ
  bind one next wf := (one wf).bind fun a υ run _ => next a υ run
  gate {β f σ} alike next wf := by
    refine .gate (alike.imp_right ?_) (next wf)
    rintro ⟨issue, span, g, ⟨fatal, ordinary⟩, equal, rest⟩
    rw [equal]
    refine ⟨⟨_, fatal [] span⟩, fatal.ends fun υ run => ?_⟩
    have later := Advances.report ordinary span _ σ () υ run
    cases run
    exact rest _ later wf
  variableType σ v := Tracks.variableType v scope σ
  takeEmitPending σ := Tracks.takeEmitPending scope σ
  encodeCall σ f arguments span := Tracks.encodeCall f arguments span scope σ
  annotate {σ id t} good wf := by
    refine .once (fun annotations => (annotations.expression? id).isSome)
      (fun annotations => { annotations with expressions := annotations.expressions.insert id t })
      (fun _ _ => annotate_run id t) fun fresh => ⟨trivial, { wf with expressions := ?_ }⟩
    have run :=
      (annotate_run (c := C.first scope) (σ := σ) id t).trans (if_neg (Bool.eq_false_iff.mp fresh))
    exact TypeTable.wellFormed_insert wf.expressions
      (good _ (Advances.annotate id t _ σ t _ run) (annotate_recorded run) wf.recorded)

/-- Types are well-formed where those of variables are. -/
def standard (C : Comparison) (scope : Scope) : Standard where
  context := C.first scope
  Good σ t := σ.VarsWellFormed → t.WellFormed
  reads _ := True
  visits _ := True
  hereditary σ := hereditary.imp σ.VarsWellFormed
  later precedes good wf := good fun id t known => wf id t (precedes.var id t known)
  invalid _ _ _ := trivial
  rejected _ _ _ := trivial
  silent _ _ _ _ := trivial
  recorded known wf := wf _ _ known
  declared _ v t _ given _ := by
    rcases Declarations.orInvalid_cases given with resolved | ⟨-, rfl⟩
    · exact hereditary.declaredType v resolved
    · trivial
  members _ _ _ _ run member mem _ :=
    Declarations.structMembers_hereditary hereditary run (fun _ _ _ _ _ => .inr trivial) member mem
  created _ _ _ _ _ _ _ := trivial
  items _ _ _ := trivial
  contracts _ _ _ := trivial
  companion := C.companion scope

namespace Tracks

/-- What is so by the standard is followed. -/
theorem of_upholds {α : Type} {m : Check α} {Q : α → Prop} {R : Scope → Findings → α → Prop}
    (upholds : ∀ scope σ, (C.standard scope).Upholds σ m (R scope))
    (gives : ∀ scope τ a, τ.annotations.WellFormed → R scope τ a → Q a) : C.Tracks m Q :=
  fun scope σ wf => ((upholds scope σ).also wf).mono fun a τ run wf' _ =>
    gives scope τ a wf' ((upholds scope σ).result a τ run).2

theorem resolve (typeName : TypeName) (place : Place) :
    C.Tracks (resolve typeName place) fun result => ∀ t, result = .ok t → t.WellFormed := by
  refine of_upholds (fun _ _ => .resolve typeName place) ?_
  rintro scope τ _ - resolved t rfl
  exact hereditary.resolve typeName resolved

theorem followPath (path : Path) : C.Follows (followPath path) := by
  unfold Check.followPath
  split
  · exact (report _ _).seq fun _ => pure trivial
  · refine .read (fun _ => rfl) fun scope => ?_
    split
    · exact pure trivial
    · exact fail _

theorem variableTypes (vars : List Variable) : C.Follows (variableTypes vars) :=
  forget (mapM fun v _ => variableType v)

theorem getterType (v : Variable) : C.Follows (getterType v) :=
  of_upholds (fun _ _ => .getterType trivial) fun _ _ _ _ _ => trivial

theorem expression (e : Expr) (demand : Demand) : C.Tracks (expression e demand) Ty.WellFormed :=
  of_upholds (fun _ _ => .expression e (fun _ _ => trivial) demand) fun _ _ _ wf typed =>
    typed.2 wf.recorded

end Tracks

/-! ## Variables -/

theorem crossingIssue? (C : Comparison) (scope : Scope) (t : Ty) (isLibrary : Bool)
    (crossing : Crossing) : C.Narrows (crossingIssue? (C.first scope) t isLibrary crossing)
      (crossingIssue? (C.second scope) t isLibrary crossing) := by
  have structs : (C.second scope).structs = (C.first scope).structs := rfl
  unfold Check.crossingIssue?
  rw [structs]
  split
  · exact .inl rfl
  · split
    · exact .inl rfl
    · exact C.legacy scope _ _

namespace Tracks

theorem requireCrossing (t : Ty) (isLibrary : Bool) (crossing : Crossing) (span : Span) :
    C.Follows (requireCrossing t isLibrary crossing span) :=
  reportIf span fun scope => C.crossingIssue? scope t isLibrary crossing

theorem requireParameter (role : VariableRole) (t : Ty) (span : Span) :
    C.Follows (requireParameter role t span) := by
  unfold Check.requireParameter
  split
  · split
    · exact requireCrossing _ _ _ _
    · exact pure trivial
  · exact pure trivial

theorem declare (v : Variable) (role : VariableRole) : C.Tracks (declare v role) Ty.WellFormed := by
  refine .read (fun _ => rfl) fun scope => (ofExcept _).bind fun result resolved => ?_
  refine (orReject ?_ _).bind fun t wf => ?_
  · rintro t rfl
    exact Ty.WellFormed.hereditary.declaredType v resolved
  have rest (_ : Unit) : C.Tracks (do Check.annotateVariable v.id t; return t) Ty.WellFormed :=
    (annotateVariable _ wf).seq fun _ => pure wf
  split
  · exact rest ()
  · split
    · exact (report _ _).seq fun _ => (requireParameter _ _ _).seq rest
    · exact (requireParameter _ _ _).seq rest

end Tracks

end Comparison

end ContractTyping
