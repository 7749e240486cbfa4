import ContractTyping.Proofs.Passing.Basic

/-!
# Traces of a check

What the run of a piece of a check leaves behind when it ends well, whether it finds errors or not.

* `Check.Advances`: the findings after it go on from those before it (`Findings.Precedes`). Types
  that were recorded stay, what is added to the diagnostics is ordinary (`Diagnostic.isOrdinary`),
  no contract is marked, and the mark of emit statements does not come up.
* `Visit.Made`: it has visited an expression in its scope.
* `Variable.TypedIn`: it has typed a variable.
-/

namespace ContractTyping

open Check List

variable {c : Context} {τ : Findings}
variable {visit : Visit} {υ : Findings}

/-- Whether findings go on from others inside a part of a source unit. -/
structure Findings.Precedes (σ τ : Findings) : Prop where
  expression : ∀ id t, σ.expression? id = some t → τ.expression? id = some t
  var : ∀ id t, σ.var? id = some t → τ.var? id = some t
  diagnostics : ∃ new, τ.diagnostics = σ.diagnostics ++ new ∧ ∀ d ∈ new, d.isOrdinary
  cyclic : τ.cyclic = σ.cyclic
  emitPending : σ.emitPending = false → τ.emitPending = false

namespace Findings.Precedes

variable {σ τ υ : Findings}

theorem refl (σ : Findings) : σ.Precedes σ :=
  ⟨fun _ _ known => known, fun _ _ known => known,
    ⟨[], (append_nil _).symm, forall_mem_nil _⟩, rfl, id⟩

theorem trans (first : σ.Precedes τ) (second : τ.Precedes υ) : σ.Precedes υ where
  expression id t known := second.expression id t (first.expression id t known)
  var id t known := second.var id t (first.var id t known)
  diagnostics := by
    obtain ⟨new, equal, ordinary⟩ := first.diagnostics
    obtain ⟨more, equal', ordinary'⟩ := second.diagnostics
    refine ⟨new ++ more, ?_, forall_mem_append.mpr ⟨ordinary, ordinary'⟩⟩
    rw [equal', equal, append_assoc]
  cyclic := second.cyclic.trans first.cyclic
  emitPending calm := second.emitPending (first.emitPending calm)

theorem toExtends (precedes : σ.Precedes τ) : σ.Extends τ where
  expression := precedes.expression
  var := precedes.var
  diagnostics := by
    obtain ⟨new, equal, -⟩ := precedes.diagnostics
    rw [equal]
    exact subset_append_left _ _
  cyclic := by rw [precedes.cyclic]; exact List.Subset.refl _
  reported none := .inl (precedes.cyclic.trans none)

end Findings.Precedes

namespace Check

variable {α β : Type}
variable {m : Check α}
variable {a : α} {xs : List α} {E : Ending}

/-- Whether the findings go on from those before. -/
def Advances (m : Check α) : Prop := ∀ c σ a τ, m c σ = .ok (a, τ) → σ.Precedes τ

/-- A value that a check can end with. -/
def Gives (m : Check α) (a : α) : Prop := ∃ c σ τ, m c σ = .ok (a, τ)

theorem eq_ok_of_ofExcept {result : Except Fault α} (given : Gives (ofExcept result) a) :
    result = .ok a := by
  obtain ⟨c, σ, τ, run⟩ := given
  cases result with
  | error fault => cases run
  | ok a => cases run; rfl

namespace Gives

theorem bind {f : α → Check β} {b : β} (given : Gives (m >>= f) b) :
    ∃ a, Gives m a ∧ Gives (f a) b := by
  obtain ⟨c, σ, τ, run⟩ := given
  obtain ⟨a, υ, one, two⟩ := bind_ok.mp run
  exact ⟨a, ⟨c, σ, υ, one⟩, c, υ, τ, two⟩

theorem pure {b : α} (given : Gives (pure a) b) : b = a := by
  obtain ⟨c, σ, τ, run⟩ := given
  cases run
  rfl

theorem mapM {f : α → Check β} {ys : List β} (given : Gives (xs.mapM f) ys) :
    ∀ y ∈ ys, ∃ x ∈ xs, Gives (f x) y := by
  obtain ⟨c, σ, τ, run⟩ := given
  intro y mem
  obtain ⟨x, inList, υ, φ, one⟩ := mapM_run run y mem
  exact ⟨x, inList, c, υ, φ, one⟩

end Gives

/-! ## Rules for putting checks together -/

namespace Advances

variable {m : Check α} {f : α → Check β}

theorem pure (a : α) : Advances (pure a) := by
  intro c σ a' τ run
  cases run
  exact .refl σ

/-- The second check only has to be looked at for values that the first one gives. -/
theorem bindGiven (first : Advances m) (next : ∀ a, Gives m a → Advances (f a)) :
    Advances (m >>= f) := by
  intro c σ b τ run
  obtain ⟨a, υ, one, two⟩ := bind_ok.mp run
  exact (first c σ a υ one).trans (next a ⟨c, σ, υ, one⟩ c υ b τ two)

theorem bind (first : Advances m) (next : ∀ a, Advances (f a)) : Advances (m >>= f) :=
  first.bindGiven fun a _ => next a

theorem map (advances : Advances m) (f : α → β) : Advances (f <$> m) := by
  exact advances.bind fun a => pure (f a)

theorem read {f : Context → Check β} (next : ∀ c, Advances (f c)) : Advances (read >>= f) :=
  fun c σ b τ run => next c c σ b τ run

/-! ## Rules for the operations -/

theorem fail (fault : Fault) : Advances (fail fault : Check α) := by
  intro c σ a τ run
  cases run

theorem ofExcept (result : Except Fault α) : Advances (ofExcept result) := by
  cases result with
  | error fault => exact fail fault
  | ok a => exact pure a

theorem record {issue : Issue} {span : Span} {severity : Severity}
    (ordinary : (⟨issue, span, severity⟩ : Diagnostic).isOrdinary) :
    Advances (record issue span severity) := by
  intro c σ a τ run
  cases run
  exact ⟨fun _ _ known => known, fun _ _ known => known,
    ⟨_, rfl, forall_mem_singleton.mpr ordinary⟩, rfl, id⟩

theorem report {issue : Issue} (ordinary : issue.isOrdinary) (span : Span) :
    Advances (report issue span) :=
  record ordinary

theorem reject {issue : Issue} (ordinary : issue.isOrdinary) (span : Span) :
    Advances (reject issue span) :=
  (report ordinary span).bind fun _ => pure _

theorem orReject {result : Except Issue Ty}
    (ordinary : ∀ issue, result = .error issue → issue.isOrdinary)
    (span : Span) : Advances (orReject result span) := by
  cases result with
  | ok t => exact pure t
  | error issue => exact reject (ordinary issue rfl) span

theorem get?_insert_fresh {table : TypeTable} {id other : NodeId} {t t' : Ty}
    (fresh : ¬ (table.get? id).isSome)
    (known : table.get? other = some t') : (table.insert id t).get? other = some t' := by
  have differs : other ≠ id := by
    rintro rfl
    exact fresh (Option.isSome_of_mem known)
  exact (TypeTable.get?_insert ..).trans ((if_neg differs).trans known)

theorem annotate (id : NodeId) (t : Ty) : Advances (annotate id t) := by
  intro c σ a τ run
  rw [annotate_run] at run
  split at run
  · cases run
  · next fresh =>
    cases run
    exact ⟨fun _ _ => get?_insert_fresh fresh, fun _ _ known => known,
      ⟨[], (append_nil _).symm, forall_mem_nil _⟩, rfl, fun calm => calm⟩

/-- A type is worked out and recorded. -/
theorem thenAnnotate {m : Check Ty} (advances : Advances m) (id : NodeId) :
    Advances (m >>= Check.annotate id) :=
  advances.bind fun t => annotate id t

theorem annotateVariable (id : NodeId) (t : Ty) : Advances (annotateVariable id t) := by
  intro c σ a τ run
  rw [annotateVariable_run] at run
  split at run
  · cases run
  · next fresh =>
    cases run
    exact ⟨fun _ _ known => known, fun _ _ => get?_insert_fresh fresh,
      ⟨[], (append_nil _).symm, forall_mem_nil _⟩, rfl, fun calm => calm⟩

theorem expression? (id : NodeId) : Advances (expression? id) := by
  intro c σ a τ run
  cases run
  exact .refl σ

theorem takeEmitPending : Advances takeEmitPending := by
  intro c σ a τ run
  cases run
  exact ⟨fun _ _ known => known, fun _ _ known => known,
    ⟨[], (append_nil _).symm, forall_mem_nil _⟩, rfl, fun _ => rfl⟩

theorem variableType (v : Variable) : Advances (variableType v) := by
  intro c σ t τ run
  rw [variableType_run] at run
  split at run
  · cases run
    exact .refl σ
  · cases result : Declarations.orInvalid (c.declarations.declaredType v) with
    | error fault => rw [result] at run; cases run
    | ok declared =>
      rw [result] at run
      cases run
      exact .refl σ

theorem resolve (typeName : TypeName) (place : Place) : Advances (resolve typeName place) :=
  read fun _ => ofExcept _

theorem structMembers (id : NodeId) (location : DataLocation) :
    Advances (structMembers id location) :=
  read fun _ => ofExcept _

end Advances

theorem Advances.grows (advances : Advances m) : E.Grows m :=
  fun _ σ a τ run => (advances _ σ a τ run).toExtends

/-- Remarks record nothing but ordinary diagnostics. -/
theorem Remarks.goes {asks looks : Prop} (remarks : Remarks asks looks m) : Advances m := by
  induction remarks with
  | pure a => exact .pure a
  | bind _ _ first next => exact first.bind next
  | record ordinary => exact .record ordinary
  | ask _ _ _ next => exact .read next
  | structMembers _ id location => exact .structMembers id location
  | look _ _ _ next => exact .read next
  | expression? _ id => exact .expression? id
  | fail _ fault => exact .fail fault

theorem Remarks.advances (remarks : Remarks True True m) : Advances m := remarks.goes

theorem Remarks.grows (remarks : Remarks True True m) : E.Grows m :=
  remarks.advances.grows

end Check

/-! ## Visits -/

/-- An expression that stands by itself in a statement or in a declaration. -/
structure Visit where
  expr : Expr
  scope : Scope
  /-- It is what an emit statement is about. -/
  emitted : Bool := false

def Ty.callKind? : Ty → Option CallKind
  | function traits _ _ => some traits.kind
  | _ => none

/-- How the function is called that an expression calls, by the types that are recorded. -/
def Annotations.calleeKind? (a : Annotations) : Expr → Option CallKind
  | .call _ callee _ _ => (a.expression? callee.withoutOptions.id).bind Ty.callKind?
  | _ => none

theorem Check.calleeKind?_run (e : Expr) (c : Context) (σ : Findings) :
    calleeKind? e c σ = .ok (σ.annotations.calleeKind? e, σ) := by
  cases e with
  | call node callee arguments names =>
    refine bind_ok.mpr ⟨σ.expression? callee.withoutOptions.id, σ, rfl, ?_⟩
    show _ = Except.ok ((σ.expression? callee.withoutOptions.id).bind Ty.callKind?, σ)
    generalize σ.expression? callee.withoutOptions.id = found
    rcases found with _ | t
    · rfl
    · cases t <;> rfl
  | _ => rfl

theorem Findings.Extends.calleeKind? {σ : Findings} (extends_ : σ.Extends τ) {e : Expr}
    {kind : CallKind} (known : σ.annotations.calleeKind? e = some kind) :
    τ.annotations.calleeKind? e = some kind := by
  cases e with
  | call node callee arguments names =>
    obtain ⟨t, recorded, isKind⟩ := Option.bind_eq_some_iff.mp known
    exact Option.bind_eq_some_iff.mpr ⟨t, extends_.expression _ _ recorded, isKind⟩
  | _ => cases known

/-- Whether a check that ends with the given findings has visited an expression. What an emit
statement is about calls an event, or there is an error. -/
structure Visit.Made (visit : Visit) (c : Context) (τ : Findings) : Prop where
  run : ∃ σ t υ, σ.emitPending = visit.emitted ∧
    expression visit.expr {} { c with scope := visit.scope } σ = .ok (t, υ) ∧ υ.Extends τ
  emitted : visit.emitted = true → τ.annotations.calleeKind? visit.expr = some .event ∨
    ∃ d ∈ τ.diagnostics, d.isError

theorem Visit.Made.later (made : visit.Made c τ) (extends_ : τ.Extends υ) : visit.Made c υ := by
  obtain ⟨⟨σ, t, φ, pending, run, before⟩, emitted⟩ := made
  refine ⟨⟨σ, t, φ, pending, run, before.trans extends_⟩, fun isEmitted => ?_⟩
  rcases emitted isEmitted with known | ⟨d, mem, isError⟩
  · exact .inl (extends_.calleeKind? known)
  · exact .inr ⟨d, extends_.diagnostics mem, isError⟩

/-- A visit has its own scope. -/
theorem Visit.Made.rescope {scope : Scope} (made : visit.Made { c with scope } τ) :
    visit.Made c τ :=
  ⟨made.run, made.emitted⟩

/-- Whether a variable is typed. If its type name does not resolve there is an error. -/
def Variable.TypedIn (v : Variable) (c : Context) (τ : Findings) : Prop :=
  ∃ t, τ.var? v.id = some t ∧ (c.declarations.Typed v ∧ t.Clean ∨ ∃ d ∈ τ.diagnostics, d.isError)

theorem Variable.TypedIn.later {v : Variable} (typed : v.TypedIn c τ) (extends_ : τ.Extends υ) :
    v.TypedIn c υ := by
  obtain ⟨t, recorded, sound | ⟨d, mem, isError⟩⟩ := typed
  · exact ⟨t, extends_.var _ _ recorded, .inl sound⟩
  · exact ⟨t, extends_.var _ _ recorded, .inr ⟨d, extends_.diagnostics mem, isError⟩⟩

end ContractTyping
