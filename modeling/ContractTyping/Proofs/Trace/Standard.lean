import ContractTyping.Proofs.Trace.Basic

/-!
# Standards for types

A standard says of types whether they are as they should be, in view of what has been found so far.
Whether a check keeps to a standard is followed through the check once, for all standards:
`Standard.Upholds` says of a piece of a check that its findings go on from those before it, and that
its result is as described. What a standard has to do with the source is collected in `Standard`;
that there is nothing to it is `Standard.any`, which leaves how findings go on
(`Check.Advances.of_upholds`).

A standard may have a `Companion`: a further property of pieces of a check that is kept when they
are put together. It may look at a second check with other settings, which are asked for in few
places.
-/

namespace ContractTyping

open Check List

/-- Where the invalid type is recorded although no error is: parentheses around nothing, and a call
of an overloaded name that was not narrowed to one declaration. -/
def Expr.Silent (annotations : Annotations) : Expr → Prop
  | tuple _ [none] false => True
  | call _ callee _ _ =>
    ∃ candidates, annotations.expression? callee.id = some (.overloaded candidates)
  | _ => False

theorem Expr.silent_tuple {annotations : Annotations} {node : Node} {slots : List (Option Expr)}
    {isInlineArray : Bool} :
    (Expr.tuple node slots isInlineArray).Silent annotations ↔ slots = [none] ∧
    isInlineArray = false := by
  refine ⟨fun silent => ?_, ?_⟩
  · unfold Silent at silent
    split at silent
    · next equal => cases equal; exact ⟨rfl, rfl⟩
    · next equal => cases equal
    · exact silent.elim
  · rintro ⟨rfl, rfl⟩
    trivial

/-- Whether a feature stays once it is there. -/
def EvmVersion.Lasting (available : EvmVersion → Bool) : Prop :=
  ∀ version later, version.rank ≤ later.rank → available version = true → available later = true

theorem EvmVersion.lasting_atLeast (release : EvmVersion) : Lasting (·.atLeast release) := by
  intro version later le available
  have old : release.rank ≤ version.rank := of_decide_eq_true available
  exact decide_eq_true (old.trans le)

/-- The results of a test in two checks: the same, or a failure of the first after which nothing is
asked of the second. -/
def Settles (Fatal : Issue → Prop) {α : Type} (result result' : Except Issue α) : Prop :=
  result' = result ∨ ∃ issue, result = .error issue ∧ Fatal issue

/-- A property of the pieces of a check, beside what they find. -/
structure Companion (c : Context) (Good : Findings → Ty → Prop) where
  /-- The settings of a second check. -/
  settings : Settings
  /-- The issues of the first check after which nothing is asked of the second. -/
  Fatal : Issue → Prop
  feature : ∀ feature (available : EvmVersion → Bool), EvmVersion.Lasting available →
    Settles Fatal (c.requireFeature feature available)
    ({ c with settings }.requireFeature feature available)
  Holds : {α : Type} → Findings → Check α → Prop
  remarks : ∀ {α : Type} {m : Check α} (σ : Findings), Remarks False True m → Holds σ m
  bind : ∀ {α β : Type} {m : Check α} {f : α → Check β} {σ : Findings}, Holds σ m →
    (∀ a υ, m c σ = .ok (a, υ) → Holds υ (f a)) → Holds σ (m >>= f)
  /-- What is asked of the settings is the same in both checks, or the end of the comparison. -/
  gate : ∀ {β : Type} {f : Context → Check β} {σ : Findings},
    (f { c with settings } = f c ∨ ∃ issue span g, Fatal issue ∧ f c = report issue span >>= g ∧
      ∀ υ, σ.Precedes υ → Holds υ (g ())) → Holds σ (f c) → Holds σ (read >>= f)
  variableType : ∀ (σ : Findings) (v : Variable), Holds σ (variableType v)
  takeEmitPending : ∀ σ : Findings, Holds σ takeEmitPending
  encodeCall : ∀ (σ : Findings) (f : FunctionTy) (arguments : Arguments) (span : Span),
    Holds σ (encodeCall f arguments span)
  annotate : ∀ {σ : Findings} {id : NodeId} {t : Ty},
    (∀ τ : Findings, σ.Precedes τ → τ.expression? id = some t → Good τ t) → Holds σ (annotate id t)

/-- No further property. -/
def Companion.none {c : Context} {Good : Findings → Ty → Prop} : Companion c Good where
  settings := c.settings
  Fatal _ := False
  feature _ _ _ := .inl rfl
  Holds _ _ := True
  remarks _ _ := trivial
  bind _ _ := trivial
  gate _ _ := trivial
  variableType _ _ := trivial
  takeEmitPending _ := trivial
  encodeCall _ _ _ _ := trivial
  annotate _ := trivial

/-- The context of the second check. -/
def Companion.there {c : Context} {Good : Findings → Ty → Prop} (K : Companion c Good) : Context :=
  { c with settings := K.settings }

/-- What types are held to in a check. -/
structure Standard where
  context : Context
  /-- Whether a type is as it should be, in view of what has been found. -/
  Good : Findings → Ty → Prop
  /-- The variables that may be asked for. -/
  reads : Variable → Prop
  /-- The expressions that may be visited. -/
  visits : Expr → Prop
  hereditary : ∀ σ, Ty.Hereditary (Good σ)
  later : ∀ {σ τ : Findings} {t : Ty}, σ.Precedes τ → Good σ t → Good τ t
  /-- The invalid type is good enough where there is something invalid already. -/
  invalid : ∀ {σ : Findings} {t : Ty}, Good σ t → t.isInvalid = true → Good σ .invalid
  /-- It is good enough after an error. -/
  rejected : ∀ {σ : Findings} {d : Diagnostic}, d ∈ σ.diagnostics → d.isError = true →
    Good σ .invalid
  silent : ∀ {σ : Findings} {e : Expr}, visits e → e.Silent σ.annotations →
    σ.expression? e.id = some .invalid → Good σ .invalid
  recorded : ∀ {σ : Findings} {id : NodeId} {t : Ty}, σ.var? id = some t → Good σ t
  declared : ∀ (σ : Findings) {v : Variable} {t : Ty}, reads v →
    Declarations.orInvalid (context.declarations.declaredType v) = .ok t → Good σ t
  members : ∀ (σ : Findings) {id : NodeId} {location : DataLocation} {members : List (String × Ty)},
    context.declarations.structMembers id location = .ok members →
    ∀ member ∈ members, Good σ member.2
  /-- A type name that stands for a contract stands for one that is there, or for nothing good. -/
  created : ∀ (σ : Findings) {typeName : TypeName} {place : Place} {c : ContractTy},
    (context.declarations.resolve typeName place).run = .ok (.ok (.contract c)) →
      context.declarations.contract? c.id = none → Good σ .invalid
  items : ∀ {id : NodeId} {declaration : Declaration},
    context.declarations.lookup? id = some declaration → ∀ v ∈ declaration.item.signature, reads v
  contracts : ∀ {id : NodeId} {c : Contract}, context.declarations.contract? id = some c →
    ∀ v ∈ c.signature, reads v
  companion : Companion context Good := .none

namespace Standard

variable {α β : Type} {S : Standard} {σ : Findings}

theorem part {id : NodeId} {c : Contract} {part : ContractPart}
    (found : S.context.declarations.contract? id = some c)
    (mem : part ∈ c.parts) : ∀ v ∈ part.signature, S.reads v :=
  fun v inPart => S.contracts found v (mem_flatMap.mpr ⟨part, mem, inPart⟩)

/-- Whether a piece of a check goes on from what has been found, with a result as described. -/
structure Upholds (S : Standard) (σ : Findings) (m : Check α) (Q : Findings → α → Prop) : Prop where
  result : ∀ a τ, m S.context σ = .ok (a, τ) → σ.Precedes τ ∧ Q τ a
  also : S.companion.Holds σ m

/-- A piece of a check whose result does not matter. -/
def Passes (S : Standard) (m : Check α) : Prop := ∀ σ, S.Upholds σ m fun _ _ => True

/-- Whether the type of an expression is recorded and as it should be. -/
def Typed (S : Standard) (id : NodeId) (τ : Findings) (t : Ty) : Prop :=
  τ.expression? id = some t ∧ S.Good τ t

/-- A standard that asks for nothing. -/
def any (context : Context) : Standard where
  context := context
  Good _ _ := True
  reads _ := True
  visits _ := True
  hereditary _ := .any
  later _ _ := trivial
  invalid _ _ := trivial
  rejected _ _ := trivial
  silent _ _ _ := trivial
  recorded _ := trivial
  declared _ _ _ _ _ := trivial
  members _ _ _ _ _ _ _ := trivial
  created _ _ _ _ _ _ := trivial
  items _ _ _ := trivial
  contracts _ _ _ := trivial

namespace Upholds

variable {m : Check α} {f : α → Check β} {Q Q' : Findings → α → Prop} {R : Findings → β → Prop}

/-! ## Putting pieces together -/

theorem pure {a : α} (holds : Q σ a) : S.Upholds σ (pure a) Q where
  result a' τ run := by
    cases run
    exact ⟨.refl σ, holds⟩
  also := S.companion.remarks σ (.pure a)

theorem mono (upholds : S.Upholds σ m Q) (weaker : ∀ τ a, σ.Precedes τ → Q τ a → Q' τ a) :
    S.Upholds σ m Q' where
  result a τ run := by
    obtain ⟨later, holds⟩ := upholds.result a τ run
    exact ⟨later, weaker τ a later holds⟩
  also := upholds.also

theorem bind (first : S.Upholds σ m Q) (next : ∀ υ a, σ.Precedes υ → Q υ a → S.Upholds υ (f a) R) :
    S.Upholds σ (m >>= f) R where
  result b τ run := by
    obtain ⟨a, υ, one, two⟩ := bind_ok.mp run
    obtain ⟨later, holds⟩ := first.result a υ one
    obtain ⟨later', holds'⟩ := (next υ a later holds).result b τ two
    exact ⟨later.trans later', holds'⟩
  also := by
    refine S.companion.bind first.also fun a υ run => ?_
    obtain ⟨later, holds⟩ := first.result a υ run
    exact (next υ a later holds).also

/-- A piece whose result does not matter may come first. -/
theorem after (first : S.Passes m) (next : ∀ υ a, σ.Precedes υ → S.Upholds υ (f a) R) :
    S.Upholds σ (m >>= f) R :=
  (first σ).bind fun υ a later _ => next υ a later

/-- What was good before is still good after a piece whose result does not matter. -/
theorem afterPure {f : α → Ty} (first : S.Passes m) (good : ∀ a, S.Good σ (f a)) :
    S.Upholds σ (m >>= fun a => Pure.pure (f a)) S.Good :=
  after first fun _ a later => pure (S.later later (good a))

theorem map {g : α → β} (upholds : S.Upholds σ m fun τ a => R τ (g a)) :
    S.Upholds σ (g <$> m) R := by
  exact upholds.bind fun υ a _ holds => pure holds

/-- What is asked of the settings may matter in the second check. -/
theorem gate {f : Context → Check β} (alike : f S.companion.there = f S.context ∨
    ∃ issue span g, S.companion.Fatal issue ∧ f S.context = report issue span >>= g ∧
      ∀ υ, σ.Precedes υ → S.companion.Holds υ (g ())) (next : S.Upholds σ (f S.context) R) :
    S.Upholds σ (read >>= f) R where
  result := next.result
  also := S.companion.gate alike next.also

theorem read {f : Context → Check β} (same : f S.companion.there = f S.context)
    (next : S.Upholds σ (f S.context) R) : S.Upholds σ (read >>= f) R :=
  gate (.inl same) next

theorem mapM {f : α → Check β} {xs : List α}
    (stays : ∀ {υ τ : Findings} {y : β}, υ.Precedes τ → R υ y → R τ y)
    (each : ∀ x ∈ xs, ∀ υ, σ.Precedes υ → S.Upholds υ (f x) R) :
    S.Upholds σ (xs.mapM f) fun τ ys => ∀ y ∈ ys, R τ y := by
  induction xs generalizing σ with
  | nil => exact pure (forall_mem_nil _)
  | cons x rest ih =>
    obtain ⟨one, others⟩ := forall_mem_cons.mp each
    rw [mapM_cons]
    refine (one σ (.refl σ)).bind fun υ y start holds => ?_
    refine (ih fun x mem φ later => others x mem φ (start.trans later)).bind
      fun τ ys later more => ?_
    exact pure (forall_mem_cons.mpr ⟨stays later holds, more⟩)

/-! ## Operations -/

theorem fail (fault : Fault) : S.Upholds σ (fail fault) Q where
  result a τ run := by cases run
  also := S.companion.remarks σ (.fail trivial fault)

theorem ofExcept {result : Except Fault α} (holds : ∀ a, result = .ok a → Q σ a) :
    S.Upholds σ (Check.ofExcept result) Q := by
  cases result with
  | error fault => exact fail fault
  | ok a => exact pure (holds a rfl)

/-- After an error the invalid type is good enough. -/
theorem report {issue : Issue} (ordinary : issue.isOrdinary) (span : Span) :
    S.Upholds σ (report issue span) fun τ _ => S.Good τ .invalid where
  result a τ run := by
    have later := Advances.report ordinary span _ σ a τ run
    cases run
    exact ⟨later, S.rejected (mem_append_right _ mem_cons_self) rfl⟩
  also := S.companion.remarks σ (.report ordinary span)

theorem reject {issue : Issue} (ordinary : issue.isOrdinary) (span : Span) :
    S.Upholds σ (reject issue span) S.Good :=
  (report ordinary span).bind fun _ _ _ => pure

theorem orReject {result : Except Issue Ty} (good : ∀ t, result = .ok t → S.Good σ t)
    (ordinary : ∀ issue, result = .error issue → issue.isOrdinary) (span : Span) :
    S.Upholds σ (orReject result span) S.Good := by
  cases result with
  | ok t => exact pure (good t rfl)
  | error issue => exact reject (ordinary issue rfl) span

theorem annotate {id : NodeId} {t : Ty}
    (good : ∀ τ : Findings, σ.Precedes τ → τ.expression? id = some t → S.Good τ t) :
    S.Upholds σ (annotate id t) (S.Typed id) where
  result a τ run := by
    have later := Advances.annotate id t _ σ a τ run
    have recorded := annotate_recorded run
    cases annotate_value run
    exact ⟨later, recorded, good τ later recorded⟩
  also := S.companion.annotate good

theorem annotateGood {id : NodeId} {t : Ty} (good : S.Good σ t) :
    S.Upholds σ (Check.annotate id t) (S.Typed id) :=
  annotate fun _ later _ => S.later later good

/-- A type is worked out and recorded. -/
theorem thenAnnotate {m : Check Ty} (upholds : S.Upholds σ m S.Good) (id : NodeId) :
    S.Upholds σ (m >>= Check.annotate id) (S.Typed id) :=
  upholds.bind fun _ _ _ => annotateGood

theorem variableType {v : Variable} (reads : S.reads v) : S.Upholds σ (variableType v) S.Good where
  result t τ run := by
    cases Looks.variableType v _ σ t τ run
    refine ⟨.refl σ, ?_⟩
    rw [variableType_run] at run
    split at run
    · next known =>
      cases run
      exact S.recorded known
    · cases given : Declarations.orInvalid (S.context.declarations.declaredType v) with
      | error fault => rw [given] at run; cases run
      | ok declared =>
        rw [given] at run
        cases run
        exact S.declared σ reads given
  also := S.companion.variableType σ v

theorem resolve (typeName : TypeName) (place : Place) :
    S.Upholds σ (Check.resolve typeName place) fun _ result =>
      (S.context.declarations.resolve typeName place).run = .ok result :=
  read rfl (ofExcept fun _ => id)

theorem structMembers (id : NodeId) (location : DataLocation) :
    S.Upholds σ (Check.structMembers id location) fun τ members =>
      ∀ member ∈ members, S.Good τ member.2 :=
  read rfl (ofExcept fun _ => S.members σ)

end Upholds

namespace Passes

theorem remarks {m : Check α} (remarks : Remarks False True m) : S.Passes m :=
  fun σ => ⟨fun a τ run => ⟨remarks.goes _ σ a τ run, trivial⟩, S.companion.remarks σ remarks⟩

theorem report {issue : Issue} (ordinary : issue.isOrdinary) (span : Span) :
    S.Passes (report issue span) :=
  .remarks (.report ordinary span)

theorem takeEmitPending : S.Passes takeEmitPending :=
  fun σ =>
    ⟨fun a τ run => ⟨Advances.takeEmitPending _ σ a τ run, trivial⟩, S.companion.takeEmitPending σ⟩

theorem encodeCall (f : FunctionTy) (arguments : Arguments) (span : Span) :
    S.Passes (encodeCall f arguments span) := by
  refine fun σ => ⟨fun a τ run => ⟨?_, trivial⟩, S.companion.encodeCall σ f arguments span⟩
  exact (Remarks.encodeCall f arguments span).advances _ σ a τ run

end Passes

end Standard

/-- What keeps to a standard that asks for nothing goes on from the findings before it. -/
theorem Check.Advances.of_upholds {α : Type} {m : Check α} {Q : Context → Findings → α → Prop}
    (upholds : ∀ c σ, (Standard.any c).Upholds σ m (Q c)) : Advances m :=
  fun c σ a τ run => ((upholds c σ).result a τ run).1

end ContractTyping
