import ContractTyping.Proofs.Parentheses.Context
import ContractTyping.Proofs.Passing.Unit

/-!
# Two checks, one with parentheses

A source unit that is checked without parentheses and with them. `Enclosure.Mirrors` says that where
a piece of the first check ends well, a piece of the second one ends well with the same result and
the same findings. The second check records a type for the parentheses as well. This happens once,
when the call or the assignment that has them is about to get its own type, which it gets only once
(`Open`, `Closes`).

The parentheses come in with `MirrorsBy.enclose` only.
-/

namespace ContractTyping

open Check List TypeTable Declarations

/-! ## Where parentheses matter -/

/-- The indices on the way from a variable to the data that an expression names. -/
def Expr.pathIndices : Expr → List Expr
  | .member _ base _ => base.pathIndices
  | .index _ base none => base.pathIndices
  | .index _ base (some i) => i :: base.pathIndices
  | .tuple _ [some inner] false => inner.pathIndices
  | _ => []

/-- The part of a call or of an assignment that parentheses can be put around. -/
def Expr.enclosable? : Expr → Option Expr
  | .call _ callee _ _ => some callee
  | .assignment _ _ left _ => some left
  | _ => none

section Reveals

variable (unit : SourceUnit) (settings : Settings) (report : Report)

/-- Whether the type of a callee depends on the arguments of the call. Without them, its name stands
for several functions, or what is pushed to an array is missing. -/
def AsksArguments (arguments : List Expr) : Expr → Prop
  | .identifier node name target overloads =>
    ∃ scope σ τ candidates, (∀ id t, σ.var? id = some t → report.annotations.var? id = some t) ∧
      identifierType node name target overloads {}
        { contextOf unit settings with scope } σ = .ok (.overloaded candidates, τ)
  | .member node base name =>
    (∃ scope σ τ baseType candidates,
      (∀ id t, σ.var? id = some t → report.annotations.var? id = some t) ∧
      report.annotations.expression? base.id = some baseType ∧
        memberType baseType name none node.span
          { contextOf unit settings with scope } σ = .ok (.overloaded candidates, τ)) ∨
      arguments = [] ∧ (report.annotations.expression? node.id).bind Ty.callKind? = some .arrayPush
  | .callOptions _ callee _ _ => AsksArguments arguments callee
  | _ => False

/-- Whether a callee has options although it is an event or sends value, which take none. -/
def RefusesOptions (callee : Expr) : Prop :=
  (∃ node inner names options, callee = .callOptions node inner names options) ∧
    ∃ kind, (kind = .event ∨ kind = .send) ∧
      (report.annotations.expression? callee.withoutOptions.id).bind Ty.callKind? = some kind

/-- Whether an assignment to a tuple is found to overwrite its own parts. -/
def WarnsOfOverlap (span : Span) (left : Expr) : Prop :=
  (∃ node components isInlineArray, left = .tuple node components isInlineArray) ∧
    ⟨.doubleStorageAssignment, span, .warning⟩ ∈ report.diagnostics

/-- Whether several values are assigned to data behind an index that cannot be looked at. -/
def DanglesBelow (left : Expr) : Prop :=
  (∃ types, report.annotations.expression? left.id = some (.tuple types)) ∧
    ∃ index ∈ left.pathIndices, ∃ fault, (ofUnit unit).evaluate index = .error fault

/-- Whether parentheses around the callee or the left side of an assignment can be noticed. -/
def Reveals : Expr → Prop
  | .call _ callee arguments _ =>
    AsksArguments unit settings report arguments callee ∨ RefusesOptions report callee
  | .assignment node _ left _ =>
    WarnsOfOverlap report node.span left ∨ DanglesBelow unit report left
  | _ => False

end Reveals

/-! ## Two checks -/

/-- The end of a check, and parentheses that are new to the source unit and cannot be noticed. -/
structure Enclosure extends Ending where
  wrapping : Wrapping
  unused : found.expression? wrapping.fresh.id = none
  unseen : ∀ e ∈ unit.inventory.nodes, wrapping.selects e = true →
    ¬ Reveals unit settings ⟨found.annotations, found.diagnostics⟩ e

def Wrapping.scope (W : Wrapping) (s : Scope) : Scope :=
  { contract := s.contract.map W.contract, function := s.function.map W.function,
    inModifier := s.inModifier }

namespace Enclosure

variable {α β γ δ : Type} {E : Enclosure}
variable {σ σ' τ υ : Findings}
variable {τ' υ' : Findings} {m m' : Check Ty}

/-- Whether all listed expressions are among those that are visited. -/
def Sees (E : Enclosure) (es : List Expr) : Prop := es ⊆ E.unit.inventory.nodes

namespace Sees

variable {es more : List Expr} {e : Expr}

theorem self (seen : E.Sees e.nodes) : e ∈ E.unit.inventory.nodes := seen e.self_mem_nodes

theorem tail (seen : E.Sees (e :: es)) : E.Sees es := (cons_subset.mp seen).2

theorem left (seen : E.Sees (es ++ more)) : E.Sees es := (append_subset.mp seen).1

theorem right (seen : E.Sees (es ++ more)) : E.Sees more := (append_subset.mp seen).2

theorem piece {inventory : α → Inventory} {pieces : List α}
    (seen : E.Sees (Inventory.all inventory pieces).nodes)
    {x : α} (mem : x ∈ pieces) : E.Sees (inventory x).nodes :=
  fun _ inside => seen (mem_flatMap.mpr ⟨x, mem, inside⟩)

end Sees

/-- Where a piece of the check with parentheses runs. -/
def there (E : Enclosure) (scope : Scope) : Context :=
  { contextOf (E.wrapping.unit E.unit) E.settings with scope := E.wrapping.scope scope }

theorem there_declarations (E : Enclosure) (scope : Scope) :
    (E.there scope).declarations = E.wrapping.declarations (E.context scope).declarations :=
  E.wrapping.ofUnit_unit E.unit

theorem there_structs (E : Enclosure) (scope : Scope) :
    (E.there scope).structs = (E.context scope).structs := by
  show (ofUnit (E.wrapping.unit E.unit)).structTable = (ofUnit E.unit).structTable
  rw [Wrapping.ofUnit_unit, Wrapping.structTable_declarations]

theorem there_contract (E : Enclosure) (scope : Scope) :
    (E.there scope).scope.contract = (E.context scope).scope.contract.map E.wrapping.contract :=
  rfl

theorem there_contractId? (E : Enclosure) (scope : Scope) :
    (E.there scope).contractId? = (E.context scope).contractId? := by
  show (scope.contract.map E.wrapping.contract).map Contract.id = scope.contract.map Contract.id
  rw [Option.map_map]
  rfl

/-- Whether the two checks have found the same so far, but for the type of the parentheses. -/
structure Agree (E : Enclosure) (σ σ' : Findings) : Prop where
  expression : ∀ id, id ≠ E.wrapping.fresh.id → σ'.expression? id = σ.expression? id
  vars : σ'.annotations.vars = σ.annotations.vars
  diagnostics : σ'.diagnostics = σ.diagnostics
  emitPending : σ'.emitPending = σ.emitPending
  cyclic : σ'.cyclic = σ.cyclic

/-- Whether what has the parentheses gets no type on the way, unless before the parentheses do. -/
def Open (E : Enclosure) (σ σ' τ : Findings) : Prop :=
  (σ'.expression? E.wrapping.fresh.id).isSome →
    (σ.expression? E.wrapping.site).isSome ∨ τ.expression? E.wrapping.site = none

/-- Whether a type of the parentheses was there before, or has been recorded along with that of what
has the parentheses. It is the type of what stands in them. -/
def Closes (E : Enclosure) (σ' τ τ' : Findings) : Prop :=
  ∀ t, τ'.expression? E.wrapping.fresh.id = some t → σ'.expression? E.wrapping.fresh.id = some t ∨
    (τ.expression? E.wrapping.site).isSome ∧
    ∃ e ∈ E.unit.inventory.nodes, ∃ part, E.wrapping.selects e = true ∧
      e.enclosable? = some part ∧ τ.expression? part.id = some t

/-- From given findings, the second check does what the first does, with a matching result. -/
def RunsAs (E : Enclosure) (σ σ' : Findings) (g : α → β) (m : Check α) (m' : Check β) : Prop :=
  ∀ scope a τ, m (E.context scope) σ = .ok (a, τ) → τ.Extends E.found → E.Open σ σ' τ →
    ∃ τ', m' (E.there scope) σ' = .ok (g a, τ') ∧ E.Agree τ τ' ∧ E.Closes σ' τ τ'

/-- The second check does what the first one does, with a result that corresponds. -/
structure MirrorsBy (E : Enclosure) (g : α → β) (m : Check α) (m' : Check β) : Prop where
  grows : E.Grows m
  run : ∀ σ σ', E.Agree σ σ' → E.RunsAs σ σ' g m m'

/-- The second check does what the first one does, with the same result. -/
abbrev Mirrors (E : Enclosure) (m m' : Check α) : Prop := E.MirrorsBy (fun a => a) m m'

/-- The two checks do the same with the same piece. -/
def Steady (E : Enclosure) (m : Check α) : Prop := E.Mirrors m m

/-! ## Findings that correspond -/

theorem Agree.var? (agree : E.Agree σ σ') (id : NodeId) : σ'.var? id = σ.var? id :=
  congrArg (get? · id) agree.vars

/-- What has a type in the end is not the parentheses. -/
theorem ne_fresh {id : NodeId} {t : Ty} (recorded : τ.expression? id = some t)
    (later : τ.Extends E.found) : id ≠ E.wrapping.fresh.id := by
  rintro rfl
  cases (later.expression _ _ recorded).symm.trans E.unused

theorem Open.mono (isOpen : E.Open σ σ' τ) (later : υ.Extends τ) : E.Open σ σ' υ := by
  intro known
  refine (isOpen known).imp_right fun none => ?_
  cases before : υ.expression? E.wrapping.site with
  | none => rfl
  | some t => cases (later.expression _ _ before).symm.trans none

theorem Closes.refl (same : τ'.annotations = σ'.annotations) : E.Closes σ' τ τ' := by
  intro t known
  unfold Findings.expression? at known ⊢
  rw [same] at known
  exact .inl known

theorem Closes.trans (first : E.Closes σ' υ υ') (second : E.Closes υ' τ τ') (later : υ.Extends τ) :
    E.Closes σ' τ τ' := by
  intro t known
  rcases second t known with before | closed
  · refine (first t before).imp_right ?_
    rintro ⟨hasType, e, mem, part, selected, inside, typed⟩
    obtain ⟨t', found⟩ := Option.isSome_iff_exists.mp hasType
    exact ⟨Option.isSome_of_mem (later.expression _ _ found), e, mem, part, selected, inside,
      later.expression _ _ typed⟩
  · exact .inr closed

/-- What holds of the parentheses before a piece holds after it. -/
theorem Open.trans (isOpen : E.Open σ σ' τ) (before : σ.Extends υ) (closes : E.Closes σ' υ υ') :
    E.Open υ υ' τ := by
  intro known
  obtain ⟨t, found⟩ := Option.isSome_iff_exists.mp known
  rcases closes t found with old | ⟨hasType, -⟩
  · refine (isOpen (Option.isSome_of_mem old)).imp_left fun hasType => ?_
    obtain ⟨t', found'⟩ := Option.isSome_iff_exists.mp hasType
    exact Option.isSome_of_mem (before.expression _ _ found')
  · exact .inl hasType

/-! ## Putting pieces together -/

section Rules

variable {m : Check α} {m' : Check β} {f : α → Check γ} {f' : β → Check δ} {g : α → β} {h : γ → δ}
  {σ σ' : Findings}
variable {xs : List α}
variable (a : α)

namespace RunsAs

theorem pure (agree : E.Agree σ σ') (a : α) (g : α → β) :
    E.RunsAs σ σ' g (Pure.pure a) (Pure.pure (g a)) := by
  intro scope a' τ run later isOpen
  cases run
  exact ⟨σ', rfl, agree, .refl rfl⟩

theorem bind (firstGrows : E.Grows m) (grows : ∀ a, E.Grows (f a)) (first : E.RunsAs σ σ' g m m')
    (next : ∀ {scope a τ τ'}, m (E.context scope) σ = .ok (a, τ) →
      m' (E.there scope) σ' = .ok (g a, τ') →
      τ.Extends E.found → E.Agree τ τ' → E.RunsAs τ τ' h (f a) (f' (g a))) :
    E.RunsAs σ σ' h (m >>= f) (m' >>= f') := by
  intro scope b υ run later isOpen
  obtain ⟨a, τ, one, two⟩ := bind_ok.mp run
  have between : τ.Extends υ := grows a scope τ b υ two
  obtain ⟨τ', one', agree', closes⟩ :=
    first scope a τ one (between.trans later) (isOpen.mono between)
  have isOpen' : E.Open τ τ' υ := isOpen.trans (firstGrows scope σ a τ one) closes
  obtain ⟨υ', two', agree'', closes'⟩ :=
    next one one' (between.trans later) agree' scope b υ two later isOpen'
  exact ⟨υ', (bind_run one').trans two', agree'', closes.trans closes' between⟩

end RunsAs

namespace MirrorsBy

theorem pure (g : α → β) : E.MirrorsBy g (Pure.pure a) (Pure.pure (g a)) where
  grows := .pure a
  run _ _ agree := .pure agree a g

variable (first : E.MirrorsBy g m m')

include first

/-- The second piece may depend on the findings that the first one leaves. -/
theorem bindRun (grows : ∀ a, E.Grows (f a))
      (next : ∀ {scope σ σ' a τ τ'}, m (E.context scope) σ = .ok (a, τ) →
      m' (E.there scope) σ' = .ok (g a, τ') → τ.Extends E.found → E.Agree τ τ' →
        E.RunsAs τ τ' h (f a) (f' (g a))) : E.MirrorsBy h (m >>= f) (m' >>= f') where
  grows := first.grows.bind grows
  run σ σ' agree := (first.run σ σ' agree).bind first.grows grows next

/-- The second piece only has to be looked at after a run of the first one. -/
theorem bindAfter (grows : ∀ a, E.Grows (f a))
    (next : ∀ {scope σ a τ}, m (E.context scope) σ = .ok (a, τ) → τ.Extends E.found →
      E.MirrorsBy h (f a) (f' (g a))) : E.MirrorsBy h (m >>= f) (m' >>= f') :=
  first.bindRun grows fun one _ later agree => (next one later).run _ _ agree

theorem bind (next : ∀ a, E.MirrorsBy h (f a) (f' (g a))) : E.MirrorsBy h (m >>= f) (m' >>= f') :=
  first.bindAfter (fun a => (next a).grows) fun {_ _ a _} _ _ => next a

omit first

theorem map {k : α → γ} {k' : β → δ} (mirrors : E.MirrorsBy g m m')
    (commutes : ∀ a, k' (g a) = h (k a)) : E.MirrorsBy h (k <$> m) (k' <$> m') := by
  rw [map_eq_pure_bind, map_eq_pure_bind]
  refine mirrors.bind fun a => ?_
  rw [commutes a]
  exact pure (k a) h

theorem read {f : Context → Check γ} {f' : Context → Check δ}
    (next : ∀ scope, E.MirrorsBy h (f (E.context scope)) (f' (E.there scope))) :
    E.MirrorsBy h (MonadReader.read >>= f) (MonadReader.read >>= f') where
  grows := .read fun scope => (next scope).grows
  run σ σ' agree scope := (next scope).run σ σ' agree scope

theorem within {scope scope' : Scope} (same : scope' = E.wrapping.scope scope)
    (mirrors : E.MirrorsBy g m m') : E.MirrorsBy g (within scope m) (within scope' m') where
  grows _ σ a τ run := mirrors.grows scope σ a τ run
  run σ σ' agree _ := by
    subst same
    exact mirrors.run σ σ' agree scope

theorem mapM {k : α → Check γ} {k' : β → Check δ}
    (each : ∀ x ∈ xs, E.MirrorsBy h (k x) (k' (g x))) :
    E.MirrorsBy (List.map h) (xs.mapM k) ((xs.map g).mapM k') := by
  induction xs with
  | nil => exact pure [] _
  | cons x rest ih =>
    obtain ⟨first, others⟩ := forall_mem_cons.mp each
    rw [map_cons, mapM_cons, mapM_cons]
    exact first.bind fun y => (ih others).bind fun ys => pure (y :: ys) _

theorem mapM_types {k : α → Check γ} {k' : β → Check γ}
    (each : ∀ x ∈ xs, E.Mirrors (k x) (k' (g x))) : E.Mirrors (xs.mapM k) ((xs.map g).mapM k') := by
  have mirrors := mapM each
  rwa [map_id_fun'] at mirrors

theorem mapM_same {k : α → Check γ} {k' : α → Check δ}
    (each : ∀ x ∈ xs, E.MirrorsBy h (k x) (k' x)) :
    E.MirrorsBy (List.map h) (xs.mapM k) (xs.mapM k') := by
  have mirrors := mapM (g := fun x => x) each
  rwa [map_id_fun'] at mirrors

theorem forM {k : α → Check PUnit} {k' : β → Check PUnit}
    (each : ∀ x ∈ xs, E.Mirrors (k x) (k' (g x))) : E.Mirrors (xs.forM k) ((xs.map g).forM k') := by
  induction xs with
  | nil => exact pure _ _
  | cons x rest ih =>
    obtain ⟨first, others⟩ := forall_mem_cons.mp each
    exact first.bind fun _ => ih others

end MirrorsBy

namespace Steady

variable {n : Check α} {k : α → Check γ}

theorem pure : E.Steady (Pure.pure a) := MirrorsBy.pure a _

theorem bind (first : E.Steady n) (next : ∀ a, E.Steady (k a)) : E.Steady (n >>= k) :=
  MirrorsBy.bind first next

theorem read {k : Context → Check γ} (same : ∀ scope, k (E.there scope) = k (E.context scope))
    (next : ∀ scope, E.Steady (k (E.context scope))) : E.Steady (MonadReader.read >>= k) :=
  MirrorsBy.read fun scope => same scope ▸ next scope

theorem forM {k : α → Check PUnit} (each : ∀ x ∈ xs, E.Steady (k x)) : E.Steady (xs.forM k) := by
  have mirrors := MirrorsBy.forM each
  rwa [map_id_fun'] at mirrors

end Steady

end Rules

/-! ## Operations -/

/-- The type of anything but the parentheses can be recorded in both checks. -/
theorem Agree.annotate {scope : Scope} {id : NodeId} {t a : Ty} (agree : E.Agree σ σ')
    (run : annotate id t (E.context scope) σ = .ok (a, τ)) (later : τ.Extends E.found) :
    ∃ τ', annotate id t (E.there scope) σ' = .ok (a, τ') ∧ E.Agree τ τ' ∧
      τ'.expression? E.wrapping.fresh.id = σ'.expression? E.wrapping.fresh.id := by
  have other : id ≠ E.wrapping.fresh.id := ne_fresh (Records.annotate id t _ _ _ _ run) later
  rw [annotate_run] at run
  split at run
  · cases run
  · next free =>
    cases run
    have there := annotate_run (c := E.there scope) (σ := σ') id t
    rw [agree.expression id other, if_neg free] at there
    refine ⟨_, there, { agree with expression := fun id' other' => ?_ }, ?_⟩
    · show get? _ _ = get? _ _
      rw [get?_insert, get?_insert]
      split
      · rfl
      · exact agree.expression id' other'
    · exact (get?_insert ..).trans (if_neg other.symm)

/-- The type of the parentheses can be recorded in the second check, if they have none. -/
theorem Agree.annotateFresh (agree : E.Agree σ σ')
    (free : σ'.expression? E.wrapping.fresh.id = none) (t : Ty) (c : Context) :
    ∃ τ', Check.annotate E.wrapping.fresh.id t c σ' = .ok (t, τ') ∧ E.Agree σ τ' := by
  have run := Check.annotate_run (c := c) (σ := σ') E.wrapping.fresh.id t
  rw [free] at run
  refine ⟨_, run, { agree with expression := fun id other => ?_ }⟩
  exact ((get?_insert ..).trans (if_neg other)).trans (agree.expression id other)

theorem MirrorsBy.fail (fault : Fault) (g : α → β) (m' : Check β) :
    E.MirrorsBy g (fail fault) m' where
  grows := .fail fault
  run _ _ _ _ _ _ run := by cases run

theorem MirrorsBy.ofExcept {result : Except Fault α} {result' : Except Fault β} {g : α → β}
    (same : result' = result.map g) :
    E.MirrorsBy g (Check.ofExcept result) (Check.ofExcept result') := by
  subst same
  cases result with
  | error fault => exact fail fault g _
  | ok a => exact pure a g

namespace Steady

variable {m : Check α}
variable (issue : Issue) (span : Span)

theorem fail (fault : Fault) : E.Steady (fail fault : Check α) := MirrorsBy.fail fault _ _

theorem ofExcept (result : Except Fault α) : E.Steady (Check.ofExcept result) :=
  MirrorsBy.ofExcept (by cases result <;> rfl)

/-- An operation on the findings that always succeeds and records no type. -/
theorem update {value : Findings → α} {next : Findings → Findings}
    (result : ∀ c σ, m c σ = .ok (value σ, next σ)) (grows : E.Grows m)
    (same : ∀ σ, (next σ).annotations = σ.annotations)
    (agrees : ∀ σ σ', E.Agree σ σ' → value σ' = value σ ∧ E.Agree (next σ) (next σ')) :
    E.Steady m where
  grows := grows
  run σ σ' agree scope a τ run later isOpen := by
    rw [result] at run
    cases run
    obtain ⟨sameValue, agree'⟩ := agrees σ σ' agree
    exact ⟨next σ', (result _ _).trans (by rw [sameValue]), agree', .refl (same σ')⟩

theorem record (issue : Issue) (span : Span) (severity : Severity) :
    E.Steady (record issue span severity) :=
  update (fun _ _ => rfl) (.record issue span severity) (fun _ => rfl) fun _ _ agree =>
    ⟨rfl, { agree with diagnostics := congrArg (· ++ _) agree.diagnostics }⟩

theorem report : E.Steady (report issue span) :=
  record issue span .error

theorem warn : E.Steady (warn issue span) :=
  record issue span .warning

theorem reject : E.Steady (reject issue span) :=
  (report issue span).bind fun _ => pure _

theorem orReject (result : Except Issue Ty) (span : Span) : E.Steady (orReject result span) := by
  cases result with
  | ok t => exact pure t
  | error issue => exact reject issue span

theorem setEmitPending (pending : Bool) : E.Steady (setEmitPending pending) :=
  update (fun _ _ => rfl) (.setEmitPending pending) (fun _ => rfl) fun _ _ agree =>
    ⟨rfl, { agree with emitPending := rfl }⟩

theorem takeEmitPending : E.Steady takeEmitPending :=
  update (fun _ _ => rfl) Advances.takeEmitPending.grows (fun _ => rfl) fun _ _ agree =>
    ⟨agree.emitPending, { agree with emitPending := rfl }⟩

/-- The type of anything but the parentheses is known in both checks. -/
theorem expression? {id : NodeId} (other : id ≠ E.wrapping.fresh.id) : E.Steady (expression? id) :=
  update (fun _ _ => rfl) (Advances.expression? id).grows (fun _ => rfl) fun _ _ agree =>
    ⟨agree.expression id other, agree⟩

theorem annotate (id : NodeId) (t : Ty) : E.Steady (annotate id t) where
  grows := (Advances.annotate id t).grows
  run σ σ' agree scope a τ run later isOpen := by
    obtain ⟨τ', run', agree', same⟩ := agree.annotate run later
    exact ⟨τ', run', agree', fun t' known => .inl (same ▸ known)⟩

theorem annotateVariable (id : NodeId) (t : Ty) : E.Steady (annotateVariable id t) where
  grows := (Advances.annotateVariable id t).grows
  run σ σ' agree scope a τ run later isOpen := by
    rw [annotateVariable_run] at run
    split at run
    · cases run
    · next free =>
      cases run
      have there := annotateVariable_run (c := E.there scope) (σ := σ') id t
      rw [agree.var? id, if_neg free] at there
      exact ⟨_, there, { agree with vars := congrArg (insert id t) agree.vars },
        fun t' known => .inl known⟩

/-- A type is worked out and recorded. -/
theorem thenAnnotate {m : Check Ty} (steady : E.Steady m) (id : NodeId) :
    E.Steady (m >>= Check.annotate id) :=
  steady.bind fun t => annotate id t

end Steady

/-! ## Parentheses -/

theorem MirrorsBy.thenAnnotate (mirrors : E.Mirrors m m') (id : NodeId) :
    E.Mirrors (m >>= annotate id) (m' >>= annotate id) :=
  mirrors.bind fun t => Steady.annotate id t

/-- What stands in the parentheses is checked, its type is recorded for the parentheses, and what
has them goes on with that. -/
theorem MirrorsBy.enclose {k k' : Ty → Check Ty} {id : NodeId} {e : Expr} (part : Expr)
    (mem : e ∈ E.unit.inventory.nodes) (selected : E.wrapping.selects e = true) (same : e.id = id)
    (inside : e.enclosable? = some part) (first : E.Mirrors m m')
    (records : Check.Records part.id m) (grows : ∀ t, E.Grows (k t))
    (next : ∀ {scope σ t τ τ'}, m (E.context scope) σ = .ok (t, τ) → τ.Extends E.found →
      E.Agree τ τ' →
      τ'.expression? E.wrapping.fresh.id = some t → E.RunsAs τ τ' (fun t => t) (k t) (k' t)) :
    E.Mirrors (m >>= fun t => k t >>= Check.annotate id)
      ((m' >>= Check.annotate E.wrapping.fresh.id) >>= fun t => k' t >>= Check.annotate id) where
  grows := first.grows.bind fun t => (grows t).bind fun u => (Steady.annotate id u).grows
  run σ σ' agree scope a φ run later isOpen := by
    obtain ⟨t, τ, one, rest⟩ := Check.bind_ok.mp run
    obtain ⟨u, υ, two, three⟩ := Check.bind_ok.mp rest
    have site : id = E.wrapping.site := same ▸ E.wrapping.selects_site e selected
    have start : σ.Extends τ := first.grows scope σ t τ one
    have between : τ.Extends υ := grows t scope τ u υ two
    have last : υ.Extends φ := (Steady.annotate (E := E) id u).grows scope υ a φ three
    -- What has the parentheses has no type before, so the parentheses have none.
    have free : υ.expression? E.wrapping.site = none := by
      rw [Check.annotate_run, site] at three
      split at three
      · cases three
      · next none => exact Option.not_isSome_iff_eq_none.mp none
    have typed : φ.expression? E.wrapping.site = some a :=
      site ▸ Check.Records.annotate id u _ _ _ _ three
    have none_of {ψ : Findings} (before : ψ.Extends υ) :
        ¬ (ψ.expression? E.wrapping.site).isSome := by
      intro known
      obtain ⟨t', found⟩ := Option.isSome_iff_exists.mp known
      cases free.symm.trans (before.expression _ _ found)
    obtain ⟨τ', one', agree', closes⟩ := first.run σ σ' agree scope t τ one
      ((between.trans last).trans later) (isOpen.mono (between.trans last))
    have unopened : τ'.expression? E.wrapping.fresh.id = none := by
      refine Option.eq_none_iff_forall_ne_some.mpr fun t' known => ?_
      rcases closes t' known with before | ⟨hasType, -⟩
      · rcases isOpen (Option.isSome_of_mem before) with hasType | none
        · exact none_of (start.trans between) hasType
        · cases none.symm.trans typed
      · exact none_of between hasType
    obtain ⟨ψ, opened, agree''⟩ := agree'.annotateFresh unopened t (E.there scope)
    have recorded : ψ.expression? E.wrapping.fresh.id = some t :=
      Check.Records.annotate _ t _ _ _ _ opened
    obtain ⟨υ', two', agreeLast, closes'⟩ :=
      next one ((between.trans last).trans later) agree'' recorded
      scope u υ two (last.trans later) fun _ => .inr free
    obtain ⟨φ', three', agreeEnd, kept⟩ := agreeLast.annotate three later
    refine ⟨φ', ?_, agreeEnd, fun t' known => .inr ?_⟩
    · rw [Check.bind_run ((Check.bind_run one').trans opened), Check.bind_run two']
      exact three'
    rcases closes' t' (kept ▸ known) with before | ⟨hasType, -⟩
    · cases recorded.symm.trans before
      exact ⟨Option.isSome_of_mem typed, e, mem, part, selected, inside,
        (between.trans last).expression _ _ (records _ _ _ _ one)⟩
    · exact absurd hasType (none_of (.refl υ))

end Enclosure

end ContractTyping
