import ContractTyping.Proofs.Parentheses.Operation
import ContractTyping.Proofs.Parentheses.Visit

/-!
# Assignments with parentheses

What is assigned to is looked at again after it has been checked. Its parts have the types that were
recorded for them, with parentheses somewhere in the source unit and without (`requireAssignable`,
`storagePath`).

In parentheses, the left side of an assignment can be assigned to if it can without
(`requireAssignable_enclosed`). The guard of storage looks at the components of a tuple, and a tuple
in parentheses is one component. So the guard finds nothing there, and looks for the place in
storage that this component names (`guardStorage_enclosed`).
-/

namespace ContractTyping

open Check List Wrapping

variable (ordinary : Bool) (node : Node)
variable (base : Expr) (name : String) {span : Span}

/-- What is asked of an expression that can be assigned to as far as its last step allows. -/
def Check.requireStep (ordinary : Bool) (id : NodeId) (span : Span)
    (step : Check (Option AssignmentFault)) : Check Unit := do
  let some t ← expression? id | fail (.untyped id)
  if t.isInvalid then return
  let fault ← step
  reportFault (fault.or (mappingFault? t ordinary)) span

theorem Check.requireAssignable_identifier (target : Option NodeId) (overloads : List NodeId) :
    requireAssignable ordinary (.identifier node name target overloads) =
      requireStep ordinary node.id node.span (do return identifierFault? (← read) target) := rfl

theorem Check.requireAssignable_member : requireAssignable ordinary (.member node base name) =
      requireStep ordinary node.id node.span
        (do return memberFault? (← expression? base.id) name) := rfl

theorem Check.requireAssignable_index (index : Option Expr) :
    requireAssignable ordinary (.index node base index) =
      requireStep ordinary node.id node.span (do return elementFault? (← expression? base.id)) :=
  rfl

namespace Enclosure

variable {E : Enclosure}

theorem identifierFault?_there (E : Enclosure) (scope : Scope) (target : Option NodeId) :
    identifierFault? (E.there scope) target = identifierFault? (E.context scope) target := by
  have inConstructor : (E.there scope).scope.function.any Function.isConstructor =
      (E.context scope).scope.function.any Function.isConstructor := Option.any_map ..
  unfold identifierFault?
  rw [there_declarations, inConstructor]
  cases target with
  | none => rfl
  | some id =>
    rw [Option.bind_some, Option.bind_some, var?_declarations]
    cases (E.context scope).declarations.var? id with
    | none => rfl
    | some v =>
      dsimp only [Option.map_some]
      rw [var_isConstant, var_isImmutable]

namespace MirrorsBy

theorem requireStep {step step' : Check (Option AssignmentFault)} {id : NodeId}
    (other : id ≠ E.wrapping.fresh.id) (span : Span) (mirrors : E.Mirrors step step') :
    E.Mirrors (requireStep ordinary id span step) (requireStep ordinary id span step') := by
  refine bind (Steady.expression? other) fun found => ?_
  cases found with
  | none => exact fail _ _ _
  | some t =>
    exact ite .rfl (Steady.pure _) (mirrors.bind fun fault => (Remarks.reportFault _ _).steady)

theorem requireStep_known {step : Option AssignmentFault} {id : NodeId}
    (other : id ≠ E.wrapping.fresh.id) (span : Span) :
    E.Steady (Check.requireStep ordinary id span (Pure.pure step)) :=
  requireStep ordinary other span (Steady.pure _)

mutual

theorem requireAssignable (ordinary : Bool) (e : Expr) (clear : E.wrapping.fresh.id ∉ e.spine) :
    E.Mirrors (Check.requireAssignable ordinary e)
      (Check.requireAssignable ordinary (E.wrapping.expr e)) := by
  have other : e.id ≠ E.wrapping.fresh.id := Expr.id_ne clear
  match e with
  | .tuple node components false =>
    refine bind (Steady.expression? other) fun found => ?_
    cases found with
    | none => exact fail _ _ _
    | some t =>
      refine ite .rfl (Steady.pure _) (requireComponents ordinary components fun mem => ?_)
      exact clear (mem_cons_of_mem _ mem)
  | .tuple node components true =>
    refine bind (Steady.expression? other) fun found => ?_
    cases found with
    | none => exact fail _ _ _
    | some t => exact ite .rfl (Steady.pure _) (Steady.report _ _)
  | .identifier node name target overloads =>
    rw [Wrapping.expr, Check.requireAssignable_identifier]
    refine requireStep ordinary other node.span (read fun scope => ?_)
    rw [identifierFault?_there]
    exact Steady.pure _
  | .member node base name =>
    have otherBase : base.id ≠ E.wrapping.fresh.id := Expr.id_ne fun mem =>
      clear (mem_cons_of_mem _ mem)
    rw [Wrapping.expr, Check.requireAssignable_member, Check.requireAssignable_member, expr_id]
    refine requireStep ordinary other node.span ?_
    exact bind (Steady.expression? otherBase) fun _ => Steady.pure _
  | .index node base index =>
    have otherBase : base.id ≠ E.wrapping.fresh.id := Expr.id_ne fun mem =>
      clear (mem_cons_of_mem _ mem)
    rw [Wrapping.expr, Check.requireAssignable_index, Check.requireAssignable_index, expr_id]
    refine requireStep ordinary other node.span ?_
    exact bind (Steady.expression? otherBase) fun _ => Steady.pure _
  | .elementaryType .. | .literal .. | .unary .. | .binary .. | .assignment ..
  | .conditional .. | .call ..
  | .callOptions .. | .create .. | .await .. | .slice .. => exact requireStep_known ordinary other _

theorem requireComponents (ordinary : Bool) (components : List (Option Expr))
    (clear : E.wrapping.fresh.id ∉ slotsSpine components) :
    E.Mirrors (requireComponents ordinary components)
      (requireComponents ordinary (E.wrapping.slots components)) := by
  match components with
  | [] => exact Steady.pure _
  | none :: rest => exact requireComponents ordinary rest clear
  | some e :: rest =>
    have both := not_or.mp (mt mem_append.mpr clear)
    exact (requireAssignable ordinary e both.1).bind fun _ => requireComponents ordinary rest both.2

end

theorem storagePath (e : Expr) (clear : E.wrapping.fresh.id ∉ e.spine) (steps : List PathStep) :
    E.Mirrors (storagePath steps e) (storagePath steps (E.wrapping.expr e)) := by
  match e with
  | .member _ base name => exact storagePath base (fun mem => clear (mem_cons_of_mem _ mem)) _
  | .index _ base none =>
    exact bind (Steady.pure _) fun value =>
      storagePath base (fun mem => clear (mem_cons_of_mem _ mem)) _
  | .index _ base (some index) =>
    exact (evaluate index).bind fun value =>
      storagePath base (fun mem => clear (mem_cons_of_mem _ mem)) _
  | .tuple _ [some inner] false =>
    refine storagePath inner (fun mem => clear (mem_cons_of_mem _ ?_)) steps
    exact mem_append_left _ mem
  | .identifier node name (some target) overloads =>
    refine read fun scope => ?_
    rw [there_declarations, var?_declarations]
    cases (E.context scope).declarations.var? target with
    | none => exact Steady.pure _
    | some v =>
      have same (t : Option Ty) : isStorageRoot (E.wrapping.var v) t = isStorageRoot v t := by
        unfold isStorageRoot
        rw [var_traits, var_isConstant, var_isImmutable]
      refine bind (Steady.expression? (Expr.id_ne clear)) fun t => ?_
      rw [same]
      exact ite .rfl (Steady.pure _) (Steady.pure _)
  | .identifier _ _ none _ | .tuple _ [] _ | .tuple _ [none] _ | .tuple _ [some _] true
  | .tuple _ (none :: none :: _) _ | .tuple _ (none :: some _ :: _) _
  | .tuple _ (some _ :: none :: _) _
  | .tuple _ (some _ :: some _ :: _) _ | .elementaryType .. | .literal .. | .unary .. | .binary ..
  | .assignment .. | .conditional .. | .call .. | .callOptions .. | .create .. | .await ..
  | .slice .. =>
    exact Steady.pure _

theorem targetComponent (e : Expr) (clear : E.wrapping.fresh.id ∉ e.spine) (source : Option Ty) :
    E.Mirrors (targetComponent e source) (targetComponent (E.wrapping.expr e) source) := by
  unfold Check.targetComponent
  rw [expr_id]
  refine bind (Steady.expression? (Expr.id_ne clear)) fun found => ?_
  cases found with
  | none => exact fail _ _ _
  | some t => exact (storagePath e clear []).bind fun path => Steady.pure _

theorem targetComponents (components : List (Option Expr))
    (clear : E.wrapping.fresh.id ∉ slotsSpine components) (sources : List (Option Ty)) :
    E.Mirrors (targetComponents components sources)
      (targetComponents (E.wrapping.slots components) sources) := by
  induction components generalizing sources with
  | nil => exact Steady.pure _
  | cons slot rest ih =>
    cases slot with
    | none => exact ih clear _
    | some e =>
      have both := not_or.mp (mt mem_append.mpr clear)
      exact (targetComponent e both.1 _).bind fun component =>
        (ih both.2 _).bind fun others => Steady.pure _

theorem guardStorage {target : Expr} (clear : E.wrapping.fresh.id ∉ target.spine)
    (proper : ∀ node components, target ≠ .tuple node components true) (source : Ty) (span : Span) :
    E.Mirrors (guardStorage target source span)
      (guardStorage (E.wrapping.expr target) source span) := by
  cases target with
  | tuple node components isInline =>
    cases isInline with
    | true => exact absurd rfl (proper node components)
    | false =>
      have inside : E.wrapping.fresh.id ∉ slotsSpine components :=
        fun mem => clear (mem_cons_of_mem _ mem)
      exact (targetComponents components inside _).bind fun found =>
        ite .rfl (Steady.warn _ _) (Steady.pure _)
  | _ => exact Steady.pure _

end MirrorsBy

/-- What is not a tuple is assigned to in the same way, whatever expression it is. -/
theorem Steady.assignmentType {left : Ty} (single : ∀ components, left ≠ .tuple components)
    (op : Option BinaryOp) (target source : Expr) (right : Ty) (span : Span) :
    E.Steady (assignmentType op target source left right span) := by
  unfold Check.assignmentType
  split
  · exact pure _
  · split
    · exact absurd rfl (single _)
    · exact (Remarks.requireConvertible _ _ _).steady.bind fun _ => pure _
    · split
      · exact (report _ _).bind fun _ => pure _
      · exact pure _

namespace RunsAs

variable {σ σ' : Findings} {target target' : Expr} {right : Ty} {span : Span}

theorem assignTuple (agree : E.Agree σ σ')
      (guard : E.RunsAs σ σ' (fun a => a) (guardStorage target right span)
      (guardStorage target' right span))
    (isCompound : Bool) (components : List (Option Ty)) (source : Expr) :
    E.RunsAs σ σ' (fun a => a) (assignTuple isCompound components target source right span)
      (assignTuple isCompound components target' (E.wrapping.expr source) right span) := by
  unfold Check.assignTuple
  rw [expr_span]
  dsimp only
  split
  · exact (Steady.report _ _).run σ σ' agree
  · split
    · exact (Steady.report _ _).run σ σ' agree
    · split
      · exact (Steady.report _ _).run σ σ' agree
      · exact guard

/-- An assignment is checked in the same way if its left side is guarded in the same way. -/
theorem assignmentType (agree : E.Agree σ σ') {left : Ty}
    (guard : ∀ components, left = .tuple components → E.RunsAs σ σ' (fun a => a)
      (guardStorage target right span) (guardStorage target' right span))
    (op : Option BinaryOp) (source : Expr) :
    E.RunsAs σ σ' (fun a => a) (assignmentType op target source left right span)
      (assignmentType op target' (E.wrapping.expr source) left right span) := by
  by_cases isTuple : ∃ components, left = .tuple components
  · obtain ⟨components, rfl⟩ := isTuple
    unfold Check.assignmentType
    split
    · exact .pure agree _ _
    · exact (assignTuple agree (guard components rfl) op.isSome components source).bind
        (Remarks.assignTuple _ _ _ _ _ _).grows (fun _ => .pure _)
        fun _ _ _ agree' => .pure agree' _ _
  · have single (components : List (Option Ty)) : left ≠ .tuple components :=
      fun same => isTuple ⟨components, same⟩
    have same : Check.assignmentType op target' (E.wrapping.expr source) left right span =
        Check.assignmentType op target source left right span := by
      unfold Check.assignmentType
      rw [expr_span]
      cases left with
      | tuple components => exact absurd rfl (single components)
      | _ => cases op <;> rfl
    rw [same]
    exact (Steady.assignmentType single op target source right span).run σ σ' agree

end RunsAs

end Enclosure

/-! ## The left side of an assignment in parentheses -/

theorem interfere_singleton (component : TargetComponent) : interfere [component] = false := by
  obtain ⟨copied, copiedFromStorage, path⟩ := component
  cases copied <;> cases path <;> rfl

namespace Check

variable {α β : Type}
variable {inner : Expr} {c : Context} {σ : Findings}

namespace Looks

theorem evaluate (e : Expr) : Looks (evaluate e) := read fun _ => ofExcept _

theorem storagePath (e : Expr) (steps : List PathStep) : Looks (Check.storagePath steps e) := by
  fun_induction Check.storagePath steps e with
  | case1 _ _ _ _ ih | case4 _ _ _ ih => exact ih
  | case2 _ _ _ _ _ ih => exact (evaluate _).bind ih
  | case3 _ _ _ _ ih => exact (pure _).bind ih
  | case5 =>
    refine read fun c => ?_
    split
    · exact pure _
    · refine (expression? _).bind fun t => ?_
      split <;> exact pure _
  | case6 => exact pure _

theorem targetComponents (components : List (Option Expr)) (sources : List (Option Ty)) :
    Looks (targetComponents components sources) := by
  induction components generalizing sources with
  | nil => exact pure _
  | cons slot rest ih =>
    cases slot with
    | none => exact ih _
    | some e =>
      have one (source : Option Ty) : Looks (targetComponent e source) := by
        refine (expression? _).bind fun found => ?_
        cases found with
        | none => exact fail _
        | some t => exact (storagePath e []).bind fun _ => pure _
      exact (one _).bind fun _ => (ih _).bind fun _ => pure _

end Looks

/-- The place in storage that an expression names is found if all its indices can be looked at. -/
theorem storagePath_ok {c : Context} (e : Expr)
    (sound : ∀ index ∈ e.pathIndices, ∃ value, c.declarations.evaluate index = .ok value)
    (steps : List PathStep) (σ : Findings) : ∃ path, storagePath steps e c σ = .ok (path, σ) := by
  fun_induction storagePath steps e with
  | case1 _ _ _ _ ih | case4 _ _ _ ih => exact ih sound
  | case2 _ _ _ _ index ih =>
    obtain ⟨⟨value, found⟩, others⟩ := forall_mem_cons.mp sound
    obtain ⟨path, run⟩ := ih value others
    refine ⟨path, (bind_run (a := value) ?_).trans run⟩
    rw [evaluate, read_run, found]
    rfl
  | case3 _ _ _ _ ih => exact ih none sound
  | case5 _ _ _ target =>
    rw [read_run]
    cases c.declarations.var? target with
    | none => exact ⟨none, rfl⟩
    | some v =>
      dsimp only
      rw [bind_run (expression?_run _)]
      split <;> exact ⟨_, rfl⟩
  | case6 => exact ⟨none, rfl⟩

section Invalid

variable {c : Context} {σ : Findings} {t : Ty}

theorem requireStep_of_invalid {id : NodeId} (span : Span) (step : Check (Option AssignmentFault))
    (recorded : σ.expression? id = some t) (invalid : t.isInvalid = true) :
    requireStep ordinary id span step c σ = .ok ((), σ) := by
  unfold requireStep
  rw [bind_run (expression?_run _), recorded]
  dsimp only
  rw [if_pos invalid]
  rfl

theorem requireAssignable_of_invalid {e : Expr} (recorded : σ.expression? e.id = some t)
    (invalid : t.isInvalid = true) : requireAssignable ordinary e c σ = .ok ((), σ) := by
  cases e with
  | tuple node components isInline =>
    rw [requireAssignable, bind_run (expression?_run _)]
    have known : σ.expression? node.id = some t := recorded
    rw [known]
    dsimp only
    rw [if_pos invalid]
    rfl
  | identifier node name target overloads =>
    rw [requireAssignable_identifier]
    exact requireStep_of_invalid ordinary _ _ recorded invalid
  | member node base name =>
    rw [requireAssignable_member]
    exact requireStep_of_invalid ordinary _ _ recorded invalid
  | index node base index =>
    rw [requireAssignable_index]
    exact requireStep_of_invalid ordinary _ _ recorded invalid
  | _ => exact requireStep_of_invalid ordinary _ (pure (some .notLvalue)) recorded invalid

/-- What stands in parentheses is assigned to. -/
theorem requireAssignable_parentheses {node : Node} (recorded : σ.expression? node.id = some t)
    (valid : t.isInvalid = false) :
    requireAssignable ordinary (.tuple node [some inner] false)
      c σ = requireAssignable ordinary inner c σ := by
  have single : requireComponents ordinary [some inner] = requireAssignable ordinary inner := by
    exact bind_pure_unit
  rw [requireAssignable, bind_run (expression?_run _), recorded]
  dsimp only
  rw [if_neg (Bool.eq_false_iff.mp valid), if_neg Bool.false_ne_true, single]

end Invalid

/-- Nothing is found by the guard unless it warns. -/
theorem guardStorage_quiet {target : Expr} {source : Ty} {τ : Findings} {u : Unit}
    (run : guardStorage target source span c σ = .ok (u, τ)) :
    τ = σ ∨ (∃ node components isInline, target = .tuple node components isInline) ∧
      ⟨.doubleStorageAssignment, span, .warning⟩ ∈ τ.diagnostics := by
  cases target with
  | tuple node components isInline =>
    obtain ⟨found, υ, one, two⟩ := bind_ok.mp run
    have same := Looks.targetComponents _ _ _ _ _ _ one
    split at two
    · cases two
      exact .inr ⟨⟨node, components, isInline, rfl⟩, mem_append_right _ mem_cons_self⟩
    · cases two
      exact .inl same
  | _ =>
    cases run
    exact .inl rfl

/-- The guard finds nothing about parentheses. -/
theorem guardStorage_parentheses {node : Node} {t : Ty} {path : Option StoragePath}
    (recorded : σ.expression? inner.id = some t) (named : storagePath [] inner c σ = .ok (path, σ))
    (source : Ty) (span : Span) :
    guardStorage (.tuple node [some inner] false) source span c σ = .ok ((), σ) := by
  have one (source : Option Ty) :
      ∃ component, targetComponent inner source c σ = .ok (component, σ) := by
    unfold targetComponent
    rw [bind_run (expression?_run _), recorded]
    dsimp only
    rw [bind_run named]
    exact ⟨_, rfl⟩
  have all (sources : List (Option Ty)) :
      ∃ component, targetComponents [some inner] sources c σ = .ok ([component], σ) := by
    obtain ⟨component, run⟩ := one (sources.head?.bind id)
    refine ⟨component, ?_⟩
    rw [targetComponents, bind_run run]
    rfl
  unfold guardStorage
  extract_lets sources
  obtain ⟨component, run⟩ := all sources
  dsimp only
  rw [bind_run run, interfere_singleton]
  rfl

end Check

namespace Enclosure

variable {E : Enclosure} {σ σ' : Findings} {t : Ty} {left : Expr}

namespace RunsAs

theorem requireAssignable_enclosed (agree : E.Agree σ σ') (clear : E.wrapping.fresh.id ∉ left.spine)
    (recorded : σ.expression? left.id = some t)
    (opened : σ'.expression? E.wrapping.fresh.id = some t) (ordinary : Bool) :
    E.RunsAs σ σ' (fun a => a) (requireAssignable ordinary left)
      (requireAssignable ordinary
        (.tuple E.wrapping.fresh [some (E.wrapping.expr left)] false)) := by
  intro scope a τ run later isOpen
  cases valid : t.isInvalid with
  | true =>
    rw [requireAssignable_of_invalid ordinary recorded valid] at run
    cases run
    exact ⟨σ', requireAssignable_of_invalid ordinary opened valid, agree, .refl rfl⟩
  | false =>
    rw [requireAssignable_parentheses ordinary opened valid]
    exact (MirrorsBy.requireAssignable ordinary left clear).run σ σ' agree scope a τ run
      later isOpen

theorem guardStorage_enclosed (agree : E.Agree σ σ') (clear : E.wrapping.fresh.id ∉ left.spine)
    (recorded : σ.expression? left.id = some t)
    (quiet : ¬ WarnsOfOverlap ⟨E.found.annotations, E.found.diagnostics⟩ span left)
    (sound : ∀ index ∈ left.pathIndices, ∃ value, E.declarations.evaluate index = .ok value)
    (source : Ty) : E.RunsAs σ σ' (fun a => a) (guardStorage left source span)
      (guardStorage (.tuple E.wrapping.fresh [some (E.wrapping.expr left)] false) source span) := by
  intro scope a τ run later isOpen
  rcases guardStorage_quiet run with rfl | ⟨isTuple, warned⟩
  · obtain ⟨path, named⟩ := storagePath_ok (c := E.context scope) left sound [] τ
    obtain ⟨υ, named', -⟩ :=
      (MirrorsBy.storagePath left clear []).run τ σ' agree scope path τ named later isOpen
    cases Looks.storagePath _ _ _ _ _ _ named'
    have known : σ'.expression? (E.wrapping.expr left).id = some t := by
      rw [expr_id, agree.expression left.id (Expr.id_ne clear)]
      exact recorded
    exact ⟨σ', guardStorage_parentheses known named' source span, agree, .refl rfl⟩
  · exact (quiet ⟨isTuple, later.diagnostics warned⟩).elim

end RunsAs

end Enclosure

end ContractTyping
