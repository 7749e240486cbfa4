import ContractTyping.Proofs.Inventory
import ContractTyping.Proofs.Recording

/-!
# Effects of a check

`Site.Acts` bounds what a piece of a check does, from whatever has been found before:

* which expressions and variables it types, each at most as often as it is listed, and which
  expressions have a type for certain when it ends;
* with which faults it can end;
* that nothing else it finds depends on what was found before it, so that a second run in a like
  context adds the same findings.

There is one rule for each operation of a check and one for each way to put checks together. The
proofs about the checks themselves only use these rules.
-/

namespace ContractTyping

open Check List TypeTable Findings Declarations Option

variable (σ : Findings) (δ ε : Growth) {ids ids' : List NodeId}

/-! ## Growth -/

/-- What a run adds to the findings, in the order in which it is found. -/
structure Growth where
  expressions : List (NodeId × Ty) := []
  vars : List (NodeId × Ty) := []
  diagnostics : List Diagnostic := []
  /-- The mark of an emit statement, if it is touched. -/
  emitPending : Option Bool := none
  /-- Contracts that turn out to lead to an inheritance cycle, the latest first. -/
  cyclic : List NodeId := []

namespace Growth

instance : Append Growth where
  append δ ε := {
    expressions := δ.expressions ++ ε.expressions
    vars := δ.vars ++ ε.vars
    diagnostics := δ.diagnostics ++ ε.diagnostics
    emitPending := ε.emitPending.or δ.emitPending
    cyclic := ε.cyclic ++ δ.cyclic }

/-- The expressions that are typed. -/
def typed (δ : Growth) : List NodeId := δ.expressions.map Prod.fst

/-- The variables that are typed. -/
def declared (δ : Growth) : List NodeId := δ.vars.map Prod.fst

theorem typed_append : (δ ++ ε).typed = δ.typed ++ ε.typed :=
  map_append

theorem declared_append : (δ ++ ε).declared = δ.declared ++ ε.declared :=
  map_append

end Growth

namespace TypeTable

/-- Sets the types of several nodes in order. -/
def insertAll (table : TypeTable) (entries : List (NodeId × Ty)) : TypeTable :=
  entries.foldl (fun table entry => table.insert entry.1 entry.2) table

theorem insertAll_append (table : TypeTable) (entries more : List (NodeId × Ty)) :
    table.insertAll (entries ++ more) = (table.insertAll entries).insertAll more :=
  foldl_append

theorem insertAll_cons (table : TypeTable) (entry : NodeId × Ty) (entries : List (NodeId × Ty)) :
    table.insertAll (entry :: entries) = (table.insert entry.1 entry.2).insertAll entries := rfl

theorem isSome_get?_insertAll (entries : List (NodeId × Ty)) (id : NodeId) (table : TypeTable) :
    ((table.insertAll entries).get? id).isSome ↔ id ∈ entries.map Prod.fst ∨
    (table.get? id).isSome := by
  induction entries generalizing table with
  | nil => simp [insertAll]
  | cons entry rest ih =>
    rw [insertAll_cons, ih, get?_insert, map_cons, mem_cons]
    split <;> simp_all

/-- Tables that agree on a node still do so after the same changes. -/
theorem get?_insertAll_congr {table other : TypeTable} {id : NodeId}
    (agree : other.get? id = table.get? id) (entries : List (NodeId × Ty)) :
    (other.insertAll entries).get? id = (table.insertAll entries).get? id := by
  induction entries generalizing table other with
  | nil => exact agree
  | cons entry rest ih =>
    refine ih ?_
    rw [get?_insert, get?_insert, agree]

/-- A type in a changed table was there before or was set. -/
theorem get?_insertAll_cases {entries : List (NodeId × Ty)} {id : NodeId} {t : Ty}
    {table : TypeTable} (found : (table.insertAll entries).get? id = some t) :
    (id, t) ∈ entries ∨ table.get? id = some t := by
  induction entries generalizing table with
  | nil => exact .inr found
  | cons entry rest ih =>
    rcases ih found with later | earlier
    · exact .inl (mem_cons_of_mem _ later)
    · rw [get?_insert] at earlier
      split at earlier
      · next equal =>
        cases earlier
        exact .inl (equal ▸ mem_cons_self)
      · exact .inr earlier

end TypeTable

namespace Findings

def grow (σ : Findings) (δ : Growth) : Findings where
  annotations := ⟨σ.annotations.expressions.insertAll δ.expressions,
    σ.annotations.vars.insertAll δ.vars⟩
  diagnostics := σ.diagnostics ++ δ.diagnostics
  emitPending := δ.emitPending.getD σ.emitPending
  cyclic := δ.cyclic ++ σ.cyclic

theorem grow_nothing : σ.grow {} = σ := by
  simp [grow, insertAll]

theorem grow_append : σ.grow (δ ++ ε) = (σ.grow δ).grow ε := by
  show mk _ _ ((ε.emitPending.or δ.emitPending).getD _)
    (ε.cyclic ++ δ.cyclic ++ σ.cyclic) = mk _ _ _ _
  congr 1
  · exact congr (congrArg Annotations.mk (insertAll_append ..)) (insertAll_append ..)
  · exact (append_assoc ..).symm
  · cases ε.emitPending <;> rfl
  · exact append_assoc ..

theorem isSome_expression?_grow (id : NodeId) :
    ((σ.grow δ).expression? id).isSome ↔ id ∈ δ.typed ∨ (σ.expression? id).isSome :=
  isSome_get?_insertAll ..

theorem isSome_var?_grow (id : NodeId) :
    ((σ.grow δ).var? id).isSome ↔ id ∈ δ.declared ∨ (σ.var? id).isSome :=
  isSome_get?_insertAll ..

end Findings

/-! ## Sites -/

/-- Where a check runs and what it may touch there. -/
structure Site where
  /-- What is checked. -/
  inventory : Inventory
  /-- The variables whose types may be asked for. -/
  reads : Variable → Prop
  /-- The types that variables may get. -/
  settles : NodeId → Ty → Prop
  /-- The faults that are allowed, apart from typing a node twice. -/
  faults : Fault → Prop
  /-- The contracts that may turn out to lead to an inheritance cycle. -/
  loops : NodeId → Prop
  here : Context
  /-- The context of a second run. -/
  there : Context

/-- The result of a run without the findings from before it. -/
abbrev Outcome (α : Type) := Except Fault (α × Growth)

/-- The result of a run that starts from the given findings. -/
def Outcome.after {α : Type} (σ : Findings) (outcome : Outcome α) : Except Fault (α × Findings) :=
  outcome.map fun result => (result.1, σ.grow result.2)

theorem mem_of_count_le {id : NodeId} (le : ids.count id ≤ ids'.count id) (mem : id ∈ ids) :
    id ∈ ids' :=
  count_pos_iff.mp (Nat.lt_of_lt_of_le (count_pos_iff.mpr mem) le)

/-- Whether typing the listed nodes in turn types a node that has a type. -/
def TypedAgain (known : NodeId → Option Ty) (ids : List NodeId) (n : NodeId) : Prop :=
  (known n).isSome ∧ n ∈ ids ∨ 2 ≤ ids.count n

theorem TypedAgain.mono {known : NodeId → Option Ty} {n : NodeId}
    (le : ∀ id, ids.count id ≤ ids'.count id) (again : TypedAgain known ids n) :
    TypedAgain known ids' n := by
  rcases again with ⟨typed, mem⟩ | twice
  · exact .inl ⟨typed, mem_of_count_le (le n) mem⟩
  · exact .inr (Nat.le_trans twice (le n))

/-- A node that is typed again after a first run is typed again in both together. -/
theorem TypedAgain.later {known after : NodeId → Option Ty} {first : List NodeId} {n : NodeId}
    (grown : (after n).isSome ↔ n ∈ first ∨ (known n).isSome) (le : first.count n ≤ ids.count n)
    (again : TypedAgain after ids' n) :
    TypedAgain known (ids ++ ids') n := by
  rw [TypedAgain, count_append]
  rcases again with ⟨typed, mem⟩ | twice
  · have second := count_pos_iff.mpr mem
    rcases grown.mp typed with early | before
    · have := count_pos_iff.mpr early
      exact .inr (by omega)
    · exact .inl ⟨before, mem_append_right _ mem⟩
  · exact .inr (by omega)

namespace Site

variable {α β : Type}
variable {fault : Fault} {m : Check α} {xs : List α} (issue : Issue) (span : Span)

/-- The same site inside another scope. -/
def within (S : Site) (scope : Scope) : Site :=
  { S with here := { S.here with scope }, there := { S.there with scope } }

/-- What a run from `σ` adds when it ends well. -/
structure Fits (S : Site) (σ : Findings) (es vs sure : List NodeId) (δ : Growth) : Prop where
  typed : ∀ id, δ.typed.count id ≤ es.count id
  declared : ∀ id, δ.declared.count id ≤ vs.count id
  untyped : ∀ id ∈ δ.typed, σ.expression? id = none
  undeclared : ∀ id ∈ δ.declared, σ.var? id = none
  settled : ∀ entry ∈ δ.vars, S.settles entry.1 entry.2
  sure : ∀ id ∈ sure, ((σ.grow δ).expression? id).isSome
  emitPending : δ.emitPending ≠ some true
  cyclic : ∀ id ∈ δ.cyclic, S.loops id

/-- Why a run from `σ` may end with a fault. -/
def Explains (S : Site) (σ : Findings) (es vs : List NodeId) (fault : Fault) : Prop :=
  S.faults fault ∨
    ∃ n, fault = .typedTwice n ∧ (TypedAgain σ.expression? es n ∨ TypedAgain σ.var? vs n)

/-- What a run from `σ` may do. -/
def Accounts (S : Site) (σ : Findings) (es vs sure : List NodeId) : Outcome α → Prop
  | .ok (_, δ) => S.Fits σ es vs sure δ
  | .error fault => S.Explains σ es vs fault

/-- Findings from which two runs do the same: what one of them typed and the other did not, they
find to have the same type. -/
structure Related (S : Site) (σ σ' : Findings) : Prop where
  expressions : ∀ id ∈ S.inventory.nodeIds, σ'.expression? id = σ.expression? id
  vars : ∀ id ∈ S.inventory.varIds, σ'.var? id = σ.var? id
  emitPending : σ'.emitPending = σ.emitPending
  cyclic : σ'.cyclic = σ.cyclic
  settled : ∀ id t, σ.var? id = some t → S.settles id t
  settled' : ∀ id t, σ'.var? id = some t → S.settles id t
  declared : ∀ v t, S.reads v → S.settles v.id t →
    orInvalid (S.here.declarations.declaredType v) = .ok t

/-- Bounds what a check does once the expressions in `known` have a type: it types the expressions
in `es` and the variables in `vs`, each at most as often as it is listed, and those in `sure` have a
type when it ends. -/
def Acts (S : Site) (known es vs sure : List NodeId) (m : Check α) : Prop :=
  ∀ σ : Findings, (∀ id ∈ known, (σ.expression? id).isSome) →
    ∃ outcome : Outcome α, m S.here σ = outcome.after σ ∧ S.Accounts σ es vs sure outcome ∧
      ∀ σ', S.Related σ σ' → m S.there σ' = outcome.after σ'

/-- A check that types nothing. -/
def Quiet (S : Site) (m : Check α) : Prop := S.Acts [] [] [] [] m

theorem Related.grow {S : Site} {σ σ' : Findings} (related : S.Related σ σ') {δ : Growth}
    (settled : ∀ entry ∈ δ.vars, S.settles entry.1 entry.2) : S.Related (σ.grow δ) (σ'.grow δ) := by
  refine ⟨fun id mem => ?_, fun id mem => ?_, ?_, ?_, fun id t found => ?_, fun id t found => ?_,
    related.declared⟩
  · exact get?_insertAll_congr (related.expressions id mem) _
  · exact get?_insertAll_congr (related.vars id mem) _
  · show δ.emitPending.getD _ = δ.emitPending.getD _
    rw [related.emitPending]
  · exact congrArg (δ.cyclic ++ ·) related.cyclic
  · rcases get?_insertAll_cases found with new | old
    · exact settled _ new
    · exact related.settled id t old
  · rcases get?_insertAll_cases found with new | old
    · exact settled _ new
    · exact related.settled' id t old

/-! ## Putting runs together -/

variable {S : Site} {σ : Findings} {known es es' vs vs' sure sure' : List NodeId}

theorem Explains.mono (typed : ∀ id, es.count id ≤ es'.count id)
    (declared : ∀ id, vs.count id ≤ vs'.count id) (explains : S.Explains σ es vs fault) :
    S.Explains σ es' vs' fault := by
  refine explains.imp_right ?_
  rintro ⟨n, equal, again⟩
  exact ⟨n, equal, again.imp (.mono typed) (.mono declared)⟩

theorem Explains.later {δ : Growth} (fits : S.Fits σ es vs sure δ)
    (explains : S.Explains (σ.grow δ) es' vs' fault) :
    S.Explains σ (es ++ es') (vs ++ vs') fault := by
  refine explains.imp_right ?_
  rintro ⟨n, equal, again⟩
  exact ⟨n, equal, again.imp (.later (σ.isSome_expression?_grow δ n) (fits.typed n))
    (.later (σ.isSome_var?_grow δ n) (fits.declared n))⟩

theorem Fits.append {δ ε : Growth} (fits : S.Fits σ es vs sure δ)
    (fits' : S.Fits (σ.grow δ) es' vs' sure' ε) :
    S.Fits σ (es ++ es') (vs ++ vs') (sure ++ sure') (δ ++ ε) := by
  refine ⟨fun id => ?_, fun id => ?_, fun id mem => ?_, fun id mem => ?_, fun entry mem => ?_,
    fun id mem => ?_, ?_, fun id mem => ?_⟩
  · rw [Growth.typed_append, count_append, count_append]
    exact Nat.add_le_add (fits.typed id) (fits'.typed id)
  · rw [Growth.declared_append, count_append, count_append]
    exact Nat.add_le_add (fits.declared id) (fits'.declared id)
  · rw [Growth.typed_append, mem_append] at mem
    refine mem.elim (fits.untyped id) fun later => ?_
    -- What the second run types was typed neither by the first one nor before it.
    have none := fits'.untyped id later
    rw [← not_isSome_iff_eq_none, σ.isSome_expression?_grow] at none
    exact not_isSome_iff_eq_none.mp fun old => none (.inr old)
  · rw [Growth.declared_append, mem_append] at mem
    refine mem.elim (fits.undeclared id) fun later => ?_
    have none := fits'.undeclared id later
    rw [← not_isSome_iff_eq_none, σ.isSome_var?_grow] at none
    exact not_isSome_iff_eq_none.mp fun old => none (.inr old)
  · exact (mem_append.mp mem).elim (fits.settled entry) (fits'.settled entry)
  · rw [grow_append]
    refine (mem_append.mp mem).elim (fun early => ?_) (fits'.sure id)
    exact (isSome_expression?_grow ..).mpr (.inr (fits.sure id early))
  · intro pending
    rcases or_eq_some_iff.mp pending with later | ⟨_, early⟩
    · exact fits'.emitPending later
    · exact fits.emitPending early
  · exact (mem_append.mp mem).elim (fits'.cyclic id) (fits.cyclic id)

theorem Accounts.later {δ : Growth} (fits : S.Fits σ es vs sure δ) {outcome : Outcome β}
    (accounts : S.Accounts (σ.grow δ) es' vs' sure' outcome) :
    S.Accounts σ (es ++ es') (vs ++ vs') (sure ++ sure')
      (outcome.map fun result => (result.1, δ ++ result.2)) := by
  cases outcome with
  | ok result => exact fits.append accounts
  | error fault => exact Explains.later fits accounts

theorem Accounts.mono {outcome : Outcome α} (typed : ∀ id, es.count id ≤ es'.count id)
    (declared : ∀ id, vs.count id ≤ vs'.count id) (after : sure' ⊆ sure)
    (accounts : S.Accounts σ es vs sure outcome) : S.Accounts σ es' vs' sure' outcome := by
  cases outcome with
  | ok result =>
    exact { accounts with
      typed := fun id => Nat.le_trans (accounts.typed id) (typed id)
      declared := fun id => Nat.le_trans (accounts.declared id) (declared id)
      sure := fun id mem => accounts.sure id (after mem) }
  | error fault => exact Explains.mono typed declared accounts

theorem after_later (outcome : Outcome β) :
    Outcome.after σ (outcome.map fun result => (result.1, δ ++ result.2)) =
      outcome.after (σ.grow δ) := by
  cases outcome with
  | ok result => exact congrArg (fun τ => Except.ok (result.1, τ)) (σ.grow_append δ result.2)
  | error fault => rfl

theorem after_nothing (a : α) (σ : Findings) : Outcome.after σ (.ok (a, {})) = .ok (a, σ) := by
  rw [Outcome.after, Except.map, grow_nothing]

/-- A run that types nothing. -/
theorem Fits.untyping {δ : Growth} (expressions : δ.expressions = []) (vars : δ.vars = [])
    (emitPending : δ.emitPending ≠ some true) (cyclic : ∀ id ∈ δ.cyclic, S.loops id) :
    S.Fits σ [] [] [] δ := by
  obtain ⟨_, _, _, _, _⟩ := δ
  cases expressions
  cases vars
  refine ⟨fun _ => Nat.le_refl 0, fun _ => Nat.le_refl 0, ?_, ?_, ?_, ?_, emitPending, cyclic⟩
  all_goals exact forall_mem_nil _

theorem Fits.nothing : S.Fits σ [] [] [] {} :=
  .untyping rfl rfl (some_ne_none _).symm (forall_mem_nil _)

/-! ## Rules for putting checks together -/

theorem Acts.pure (a : α) : S.Acts known [] [] [] (pure a : Check α) :=
  fun σ _ =>
    ⟨.ok (a, {}), (after_nothing a σ).symm, Fits.nothing, fun σ' _ => (after_nothing a σ').symm⟩

/-- Bounds may be loosened, and more may be known before. -/
theorem Acts.weaken (acts : S.Acts known es vs sure m) {known' : List NodeId}
    (before : known ⊆ known')
    (typed : ∀ id, es.count id ≤ es'.count id) (declared : ∀ id, vs.count id ≤ vs'.count id)
    (after : sure' ⊆ sure) :
    S.Acts known' es' vs' sure' m := by
  intro σ knows
  obtain ⟨outcome, run, accounts, again⟩ := acts σ fun id mem => knows id (before mem)
  exact ⟨outcome, run, accounts.mono typed declared after, again⟩

/-- The order in which expressions are typed does not matter for the bounds. -/
theorem Acts.reorder (acts : S.Acts known es vs sure m) (typed : ∀ id, es.count id ≤ es'.count id)
    (after : sure' ⊆ sure) :
    S.Acts known es' vs sure' m :=
  acts.weaken (List.Subset.refl _) typed (fun _ => Nat.le_refl _) after

/-- A value that a check can end with. -/
def Gives (S : Site) (m : Check α) (a : α) : Prop := ∃ σ τ, m S.here σ = .ok (a, τ)

/-- The second check only has to be looked at for values that the first one gives. -/
theorem Acts.bindGiven {f : α → Check β} (first : S.Acts known es vs sure m)
    (next : ∀ a, S.Gives m a → S.Acts (sure ++ known) es' vs' sure' (f a)) :
    S.Acts known (es ++ es') (vs ++ vs') (sure ++ sure') (m >>= f) := by
  intro σ knows
  obtain ⟨outcome, run, accounts, again⟩ := first σ knows
  cases outcome with
  | error fault =>
    refine ⟨.error fault, bind_error.mpr (.inl run), ?_, fun σ' related => ?_⟩
    · refine Explains.mono (fun id => ?_) (fun id => ?_) accounts
      · rw [count_append]
        exact Nat.le_add_right ..
      · rw [count_append]
        exact Nat.le_add_right ..
    · exact bind_error.mpr (.inl (again σ' related))
  | ok result =>
    obtain ⟨a, δ⟩ := result
    have fits : S.Fits σ es vs sure δ := accounts
    have knows' : ∀ id ∈ sure ++ known, ((σ.grow δ).expression? id).isSome := fun id mem =>
      (mem_append.mp mem).elim (fits.sure id) fun mem =>
        (σ.isSome_expression?_grow δ id).mpr (.inr (knows id mem))
    -- The same growth comes between the two checks in both runs, so the second starts alike too.
    obtain ⟨outcome', run', accounts', again'⟩ := next a ⟨σ, _, run⟩ (σ.grow δ) knows'
    refine ⟨outcome'.map fun result => (result.1, δ ++ result.2), ?_, accounts'.later fits,
      fun σ' related => ?_⟩
    · rw [bind_run run, run', after_later]
    · rw [bind_run (again σ' related), again' _ (related.grow fits.settled), after_later]

theorem Acts.bind {f : α → Check β} (first : S.Acts known es vs sure m)
    (next : ∀ a, S.Acts (sure ++ known) es' vs' sure' (f a)) :
    S.Acts known (es ++ es') (vs ++ vs') (sure ++ sure') (m >>= f) :=
  first.bindGiven fun a _ => next a

theorem Acts.map (acts : S.Acts known es vs sure m) (f : α → β) :
    S.Acts known es vs sure (f <$> m) := by
  have := acts.bind fun a => Acts.pure (f a)
  rwa [append_nil, append_nil, append_nil, bind_pure_comp] at this

/-- What types nothing may come before. -/
theorem Quiet.bindGiven {f : α → Check β} (quiet : S.Quiet m)
    (next : ∀ a, S.Gives m a → S.Acts known es vs sure (f a)) : S.Acts known es vs sure (m >>= f) :=
  Acts.bindGiven (quiet.weaken (nil_subset _) (fun _ => Nat.le_refl _) (fun _ => Nat.le_refl _)
    (List.Subset.refl _)) next

theorem Quiet.bind {f : α → Check β} (quiet : S.Quiet m)
    (next : ∀ a, S.Acts known es vs sure (f a)) : S.Acts known es vs sure (m >>= f) :=
  quiet.bindGiven fun a _ => next a

/-- What types nothing may come after. -/
theorem Acts.bindQuiet {f : α → Check β} (first : S.Acts known es vs sure m)
    (next : ∀ a, S.Quiet (f a)) : S.Acts known es vs sure (m >>= f) := by
  have := first.bind fun a => (next a).weaken (nil_subset _) (fun _ => Nat.le_refl _)
    (fun _ => Nat.le_refl _) (List.Subset.refl _)
  rwa [append_nil, append_nil, append_nil] at this

theorem Acts.read {f : Context → Check α} (same : f S.there = f S.here)
    (acts : S.Acts known es vs sure (f S.here)) : S.Acts known es vs sure (read >>= f) := by
  intro σ knows
  obtain ⟨outcome, run, accounts, again⟩ := acts σ knows
  exact ⟨outcome, run, accounts, fun σ' related => by
    rw [read_run, same]
    exact again σ' related⟩

theorem Acts.within {scope : Scope} (acts : (S.within scope).Acts known es vs sure m) :
    S.Acts known es vs sure (Check.within scope m) := by
  intro σ knows
  obtain ⟨outcome, run, accounts, again⟩ := acts σ knows
  refine ⟨outcome, run, ?_, fun σ' related => again σ' { related with }⟩
  cases outcome with
  | ok result => exact { accounts with }
  | error fault => exact accounts

theorem Quiet.mapM {f : α → Check β} (each : ∀ x ∈ xs, S.Quiet (f x)) : S.Quiet (xs.mapM f) := by
  induction xs with
  | nil => exact Acts.pure []
  | cons x rest ih =>
    obtain ⟨first, others⟩ := forall_mem_cons.mp each
    rw [mapM_cons]
    exact first.bind fun y => (ih others).bind fun ys => Acts.pure (y :: ys)

/-! ## Rules for the operations -/

theorem Quiet.fail (allowed : S.faults fault) : S.Quiet (fail fault : Check α) :=
  fun _ _ => ⟨.error fault, rfl, .inl allowed, fun _ _ => rfl⟩

theorem Quiet.ofExcept {result : Except Fault α}
    (faults : ∀ fault, result = .error fault → S.faults fault) :
    S.Quiet (Check.ofExcept result) := by
  cases result with
  | ok a => exact Acts.pure a
  | error fault => exact Quiet.fail (faults fault rfl)

theorem Quiet.record (issue : Issue) (span : Span) (severity : Severity) :
    S.Quiet (Check.record issue span severity) := by
  intro σ _
  have run (c : Context) (σ : Findings) : Check.record issue span severity c σ =
      Outcome.after σ (.ok ((), { diagnostics := [⟨issue, span, severity⟩] })) := rfl
  refine ⟨_, run _ σ, ?_, fun σ' _ => run _ σ'⟩
  exact Fits.untyping rfl rfl (some_ne_none _).symm (forall_mem_nil _)

theorem Quiet.report : S.Quiet (report issue span) :=
  Quiet.record issue span .error

theorem Quiet.warn : S.Quiet (warn issue span) :=
  Quiet.record issue span .warning

theorem Quiet.reject : S.Quiet (reject issue span) :=
  (Quiet.report issue span).bind fun _ => Acts.pure _

theorem Quiet.orReject (result : Except Issue Ty) (span : Span) :
    S.Quiet (orReject result span) := by
  cases result with
  | ok t => exact Acts.pure t
  | error issue => exact Quiet.reject issue span

/-- What is typed once only, as both runs can tell. -/
theorem Acts.once {id : NodeId} (a : α) (δ : Growth) (typed? : Findings → Option Ty)
    (run : ∀ c σ, m c σ = if (typed? σ).isSome then .error (.typedTwice id) else .ok (a, σ.grow δ))
    (same : ∀ σ σ', S.Related σ σ' → typed? σ' = typed? σ)
    (again : ∀ σ, (typed? σ).isSome → S.Explains σ es vs (.typedTwice id))
    (fits : ∀ σ, typed? σ = none → S.Fits σ es vs sure δ) : S.Acts known es vs sure m := by
  intro σ _
  by_cases typed : (typed? σ).isSome
  · refine ⟨.error (.typedTwice id), ?_, again σ typed, fun σ' related => ?_⟩
    · rw [run, if_pos typed]
      rfl
    · rw [run, same σ σ' related, if_pos typed]
      rfl
  · refine ⟨.ok (a, δ), ?_, fits σ (not_isSome_iff_eq_none.mp typed), fun σ' related => ?_⟩
    · rw [run, if_neg typed]
      rfl
    · rw [run, same σ σ' related, if_neg typed]
      rfl

theorem Acts.annotate {id : NodeId} (mem : id ∈ S.inventory.nodeIds) (t : Ty) :
    S.Acts known [id] [] [id] (annotate id t) := by
  refine .once t { expressions := [(id, t)] } (·.expression? id) (fun c σ => ?_)
    (fun _ _ related => related.expressions id mem)
    (fun σ typed => .inr ⟨id, rfl, .inl (.inl ⟨typed, mem_singleton_self id⟩)⟩) fun σ untyped => ?_
  · exact (annotate_run id t).trans (by simp [grow, insertAll])
  · refine ⟨fun _ => Nat.le_refl _, fun _ => Nat.le_refl 0, forall_mem_singleton.mpr untyped,
      nofun, nofun, fun other found => ?_, nofun, nofun⟩
    exact (isSome_expression?_grow ..).mpr (.inl found)

theorem Acts.annotateVariable {id : NodeId} {t : Ty} (mem : id ∈ S.inventory.varIds)
    (settles : S.settles id t) : S.Acts known [] [id] [] (annotateVariable id t) := by
  refine .once () { vars := [(id, t)] } (·.var? id) (fun c σ => ?_)
    (fun _ _ related => related.vars id mem)
    (fun σ typed => .inr ⟨id, rfl, .inr (.inl ⟨typed, mem_singleton_self id⟩)⟩) fun σ untyped => ?_
  · exact (annotateVariable_run id t).trans (by simp [grow, insertAll])
  · exact ⟨fun _ => Nat.le_refl 0, fun _ => Nat.le_refl _, nofun, forall_mem_singleton.mpr untyped,
      forall_mem_singleton.mpr settles, nofun, nofun, nofun⟩

/-- A check that looks up the type of an expression. If one is known, only that case counts. -/
theorem Acts.lookup {id : NodeId} {f : Option Ty → Check α} (mem : id ∈ S.inventory.nodeIds)
    (next : ∀ found : Option Ty, (id ∈ known → found.isSome) → S.Acts known es vs sure (f found)) :
    S.Acts known es vs sure (expression? id >>= f) := by
  intro σ knows
  obtain ⟨outcome, run, accounts, again⟩ := next (σ.expression? id) (knows id) σ knows
  refine ⟨outcome, ?_, accounts, fun σ' related => ?_⟩
  · rw [bind_run (expression?_run id), run]
  · rw [bind_run (expression?_run id), related.expressions id mem, again σ' related]

theorem Quiet.variableType {v : Variable} (reads : S.reads v)
    (same : S.there.declarations.declaredType v = S.here.declarations.declaredType v)
    (faults : ∀ fault, orInvalid (S.here.declarations.declaredType v) = .error fault →
      S.faults fault) :
    S.Quiet (Check.variableType v) := by
  have still (σ : Findings) (result : Except Fault Ty) :
      result.map (·, σ) = Outcome.after σ (result.map (·, {})) := by
    cases result with
    | ok t => exact (after_nothing t σ).symm
    | error fault => rfl
  have agree {σ σ' : Findings} (related : S.Related σ σ') : Check.variableType v S.there σ' =
        (orInvalid (S.here.declarations.declaredType v)).map (·, σ') := by
    rw [Check.variableType_run, same]
    cases typed : σ'.var? v.id with
    | none => rfl
    | some t => rw [related.declared v t reads (related.settled' v.id t typed)]; rfl
  intro σ _
  cases typed : σ.var? v.id with
  | none =>
    refine ⟨(orInvalid (S.here.declarations.declaredType v)).map (·, {}), ?_, ?_,
      fun σ' related => ?_⟩
    · rw [Check.variableType_run, typed, ← still]
    · cases result : orInvalid (S.here.declarations.declaredType v) with
      | ok t => exact Fits.nothing
      | error fault => exact .inl (faults fault result)
    · rw [agree related, still]
  | some t =>
    -- The second run may have to work the type out, which settles the variable.
    refine ⟨.ok (t, {}), ?_, Fits.nothing, fun σ' related => ?_⟩
    · rw [Check.variableType_run, typed]
      exact still σ (.ok t)
    · rw [agree related, related.declared v t reads (related.settled v.id t typed)]
      exact still σ' (.ok t)

/-! ## The mark of emit statements -/

theorem Quiet.takeEmitPending : S.Quiet Check.takeEmitPending := by
  intro σ _
  have run (c : Context) (τ : Findings) (same : τ.emitPending = σ.emitPending) :
        Check.takeEmitPending c τ =
        Outcome.after τ (.ok (σ.emitPending, { emitPending := some false })) := by
    rw [takeEmitPending_run, same]
    simp [Outcome.after, Except.map, grow, insertAll]
  refine ⟨_, run _ σ rfl, ?_, fun σ' related => run _ σ' related.emitPending⟩
  exact Fits.untyping rfl rfl (by simp) (forall_mem_nil _)

/-- The mark is set for one check only, and is gone after it. -/
theorem Acts.emitting (acts : S.Acts known es vs sure m) : S.Acts known es vs sure (do
      setEmitPending true
      let a ← m
      setEmitPending false
      return a) := by
  -- The check sees the mark, so its own run starts from findings that have it.
  have run (c : Context) (σ : Findings) (outcome : Outcome α)
      (inner : m c { σ with emitPending := true } = outcome.after { σ with emitPending := true }) :
      (do setEmitPending true; let a ← m; setEmitPending false; return a : Check α) c σ =
        Outcome.after σ (outcome.map fun r => (r.1, { r.2 with emitPending := some false })) := by
    rw [bind_run (setEmitPending_run true)]
    cases outcome with
    | error fault => exact bind_error.mpr (.inl inner)
    | ok result => exact bind_run inner
  intro σ knows
  obtain ⟨outcome, inner, accounts, again⟩ := acts { σ with emitPending := true } knows
  refine ⟨_, run _ σ outcome inner, ?_, fun σ' related => run _ σ' outcome (again _ ?_)⟩
  · cases outcome with
    | error fault => exact accounts
    | ok result => exact { accounts with emitPending := nofun }
  · exact { related with emitPending := rfl }

end Site

end ContractTyping
