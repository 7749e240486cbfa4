import ContractTyping.Proofs.Effect.Expression
import ContractTyping.Proofs.Trace.Declaration
import ContractTyping.Proofs.Walk.Contract

/-!
# Effects of walks

A walk types the expressions and the variables of its inventory, each at most once
(`Site.Legal.covers`).
-/

namespace ContractTyping

open Check List Inventory Declarations

namespace Site

variable {S : Site} {α β : Type} {I J : Inventory}
variable {m : Check α} {e : Expr}

/-- A check that types at most what an inventory lists. -/
def Covers (S : Site) (I : Inventory) (m : Check α) : Prop := S.Acts [] I.nodeIds I.varIds [] m

theorem Covers.bind {f : α → Check β} (first : S.Covers I m) (next : ∀ a, S.Covers J (f a)) :
    S.Covers (I ++ J) (m >>= f) := by
  refine (Acts.bind first next).weaken (List.Subset.refl _) (fun id => ?_) (fun id => ?_)
    (List.Subset.refl _)
  · exact Nat.le_of_eq (by rw [nodeIds_append])
  · exact Nat.le_of_eq (by rw [count_varIds_append, count_append])

theorem Covers.forM {f : α → Check Unit} {inventory : α → Inventory} {xs : List α}
    (each : ∀ x ∈ xs, S.Covers (inventory x) (f x)) :
    S.Covers (.all inventory xs) (xs.forM f) := by
  induction xs with
  | nil => exact Acts.pure _
  | cons x rest ih =>
    exact (each x mem_cons_self).bind fun _ => ih fun x mem => each x (mem_cons_of_mem _ mem)

/-! ## Steps that type something -/

/-- What is recorded for a variable is its declared type. -/
theorem orInvalid_of_gives {resolving : Resolving Ty} {result : Except Issue Ty}
    {span : Span} {t : Ty} (resolved : S.Gives (Check.ofExcept resolving.run) result)
    (recorded : S.Gives (orReject result span) t) :
    orInvalid resolving = .ok t := by
  obtain ⟨σ, τ, run⟩ := resolved
  obtain ⟨σ', τ', run'⟩ := recorded
  unfold orInvalid
  cases equal : resolving.run with
  | error fault => rw [equal] at run; cases run
  | ok found =>
    rw [equal] at run
    cases run
    cases result with
    | ok t' => cases run'; rfl
    | error issue => cases run'; rfl

theorem Legal.declare (legal : S.Legal) {v : Variable} (mem : v ∈ S.inventory.vars)
    (role : VariableRole) : S.Acts [] [] [v.id] [] (declare v role) := by
  have inVars : v.id ∈ S.inventory.varIds := mem_map_of_mem (mem_append_left _ mem)
  refine Acts.read ?_ ?_
  · rw [legal.alike.declaredType]
  refine Quiet.bindGiven (Quiet.ofExcept fun fault failed => ?_) fun result resolved => ?_
  · exact (legal.vars v mem).2 fault (by rw [orInvalid, failed]; rfl)
  refine (Quiet.orReject _ _).bindGiven fun t recorded => ?_
  have settles : S.settles v.id t := legal.settles v mem t (orInvalid_of_gives resolved recorded)
  have rest : ∀ _ : Unit, S.Acts [] [] [v.id] [] (do
      annotateVariable v.id t
      return t) :=
    fun _ => (Acts.annotateVariable inVars settles).bindQuiet fun _ => Acts.pure _
  split
  · exact rest ()
  · split
    · refine (Quiet.report _ _).bind fun _ => ?_
      exact (legal.quiet (.requireParameter _ _ _)).bind rest
    · exact (legal.quiet (.requireParameter _ _ _)).bind rest

theorem Legal.structField (legal : S.Legal) {v : Variable} (mem : v ∈ S.inventory.fields) :
    S.Acts [] [] [v.id] [] (structField v) := by
  have inVars : v.id ∈ S.inventory.varIds := mem_map_of_mem (mem_append_right _ mem)
  have record (t : Ty) : S.Acts [] [] [v.id] [] (annotateVariable v.id t) :=
    Acts.annotateVariable inVars (legal.settlesFields v mem t)
  unfold Check.structField
  cases equal : v.typeName with
  | none => exact (Quiet.reject _ _).bind record
  | some typeName =>
    refine (legal.resolve (legal.fields v mem typeName equal) _).bind fun result => ?_
    exact (Quiet.orReject _ _).bind record

theorem withoutOptions_mem_nodes (e : Expr) : e.withoutOptions ∈ e.nodes := by
  fun_induction Expr.withoutOptions e with
  | case1 node callee names options ih =>
    exact mem_cons_of_mem _ (mem_append_left _ ih)
  | case2 e => exact e.self_mem_nodes

theorem Quiet.calleeKind (nodes : e.nodes ⊆ S.inventory.nodes) : S.Quiet (calleeKind? e) := by
  unfold calleeKind?
  split
  · next callee _ _ =>
    refine Acts.lookup (mem_map_of_mem (nodes ?_)) fun found _ => ?_
    · exact mem_cons_of_mem _ (mem_append_right _ (withoutOptions_mem_nodes callee))
    · split <;> exact Acts.pure _
  · exact Acts.pure _

theorem Legal.emitStatement (legal : S.Legal) (nodes : e.nodes ⊆ S.inventory.nodes) :
    S.Covers { nodes := e.nodes } (emitStatement e) := by
  have rest : S.Quiet (do
      unless (← calleeKind? e) == some .event do
        invalidStatement .notEvent e.span) := by
    refine (Quiet.calleeKind nodes).bind fun kind => ?_
    split
    · exact Acts.pure _
    · exact Quiet.report _ _
  have acts : S.Acts [] (e.nodes.map Expr.id) [] e.skeleton _ :=
    (legal.expression e nodes {}).emitting.bindQuiet fun _ => rest
  simp only [bind_assoc, pure_bind] at acts
  exact acts.reorder (fun _ => Nat.le_refl _) (nil_subset _)

/-! ## Walks -/

theorem within_empty : ({} : Inventory).Within I :=
  ⟨nil_subset _, nil_subset _, nil_subset _, nil_subset _, nil_subset _⟩

theorem covers_of_walks {allowed : Variable → Prop} {c : Context} {visits : List Visit}
    (walks : Walks allowed c visits I m) :
    ∀ {S : Site}, S.here = c → S.Legal → (∀ v, allowed v → S.Readable v) →
      I.Within S.inventory → S.Covers I m := by
  induction walks with
  | remarks remarks => exact fun _ legal _ _ => legal.quiet (remarks True False)
  | bind _ _ first next =>
    rintro S rfl legal readable inside
    obtain ⟨one, two⟩ := within_append.mp inside
    exact (first rfl legal readable one).bind fun a => next a rfl legal readable two
  | read _ alike _ inner =>
    rintro S rfl legal readable inside
    exact Acts.read (alike _ legal.alike) (inner rfl legal readable inside)
  | within returns _ inner =>
    rintro S rfl legal readable inside
    refine Acts.within (inner rfl (legal.within fun f isFunction => ?_) readable inside)
    exact List.Subset.trans (returns f isFunction) inside.vars
  | requireCrossing => exact fun _ legal _ _ => legal.quiet (.requireCrossing _ _ _ _)
  | withFeature feature lasting span _ inner =>
    rintro S rfl legal readable inside
    refine Acts.read (by rw [legal.alike.requireFeature]) ?_
    split
    · exact Quiet.report _ _
    · exact inner rfl legal readable inside
  | expression e =>
    exact fun _ legal _ inside =>
      (legal.expression e inside.nodes {}).reorder (fun _ => Nat.le_refl _) (nil_subset _)
  | calleeKind e _ next =>
    rintro S rfl legal readable inside
    refine Acts.reorder ((legal.expression e inside.nodes {}).bindQuiet fun t => ?_)
      (fun _ => Nat.le_refl _) (nil_subset _)
    exact (Quiet.calleeKind inside.nodes).bind fun kind =>
      next t kind rfl legal readable within_empty
  | emitStatement e => exact fun _ legal _ inside => legal.emitStatement inside.nodes
  | declare v role => exact fun _ legal _ inside => legal.declare (inside.vars mem_cons_self) role
  | structField v => exact fun _ legal _ inside => legal.structField (inside.fields mem_cons_self)
  | @returnTypes _ f isFunction =>
    rintro S rfl legal _ _
    exact legal.variableTypes fun v mem => legal.vars v (legal.returns f isFunction mem)
  | signatureTypes looked noVariable signature =>
    rintro S rfl legal _ _
    exact legal.variableTypes fun v mem => legal.items _ _ looked noVariable v (signature mem)
  | getterType known => exact fun _ legal readable _ => legal.getterType (readable _ known)
  | followPath path _ next =>
    rintro S rfl legal readable inside
    obtain ⟨one, two⟩ := within_append.mp inside
    refine Quiet.bindGiven (legal.followPath (one.paths mem_cons_self)) fun found given => ?_
    obtain ⟨σ, τ, run⟩ := given
    exact next found (followPath_found run) rfl legal readable two
  | resolve typeName place _ next =>
    rintro S rfl legal readable inside
    have resolvable := legal.typeNames typeName (inside.typeNames mem_cons_self)
    refine Quiet.bindGiven (legal.resolve resolvable place) fun result given => ?_
    obtain ⟨σ, τ, run⟩ := given
    exact next result (ordinary_of_resolve ⟨_, σ, τ, run⟩) rfl legal readable within_empty

/-- A walk types at most what its inventory lists. -/
theorem Legal.covers (legal : S.Legal) {visits : List Visit}
    (walks : Walks S.Readable S.here visits I m) (inside : I.Within S.inventory) : S.Covers I m :=
  covers_of_walks walks rfl legal (fun _ readable => readable) inside

end Site

end ContractTyping
