import ContractTyping.Proofs.Parentheses.Assignment

/-!
# Expressions with parentheses

Every expression gets the type that it has without the parentheses (`MirrorsBy.expression`). The
induction is over the expression. The call or the assignment that has the parentheses is the one
case in which the two checks do not do the same: there, the parentheses get the type of what stands
in them (`callee_enclosed`, `assignment_enclosed`).
-/

namespace ContractTyping

open Check Wrapping

namespace Check

/-- What is checked of a unary operation after its operand. -/
def unaryBody (op : UnaryOp) (operand : Expr) (span : Span) (t : Ty) : Check Ty := do
  if op.isModifying then requireAssignable false operand
  unaryType op t span

/-- What is checked of an assignment after its left side. -/
def assignmentBody (op : Option BinaryOp) (left right : Expr) (span : Span) (leftType : Ty) :
    Check Ty := do
  requireAssignable op.isNone left
  let rightType ← expression right {}
  assignmentType op left right leftType rightType span

theorem expression_unary (node : Node) (op : UnaryOp) ( isPrefix : Bool) (operand : Expr)
    (demand : Demand) : expression (.unary node op isPrefix operand) demand =
      expression operand { isTarget := op.isModifying } >>= fun t =>
        unaryBody op operand node.span t >>= annotate node.id := by
  rw [expression]
  unfold unaryBody
  split
  · simp only [bind_assoc]
  · rfl

theorem expression_assignment (node : Node) (op : Option BinaryOp) (left right : Expr)
    (demand : Demand) :
    expression (.assignment node op left right) demand = expression left
      { isTarget := true } >>= fun leftType =>
        assignmentBody op left right node.span leftType >>= annotate node.id := by
  rw [expression]
  unfold assignmentBody
  simp only [bind_assoc]

/-- Parentheses have the type of what stands in them. -/
theorem expression_parentheses (node : Node) (inner : Expr) (demand : Demand) :
    expression (.tuple node [some inner] false) demand =
      expression inner { isTarget := demand.isTarget } >>= annotate node.id := by
  rw [expression, components, components]
  simp only [bind_assoc, pure_bind]
  rfl

theorem Advances.unaryBody (op : UnaryOp) (operand : Expr) (span : Span) (t : Ty) :
    Advances (unaryBody op operand span t) := by
  unfold Check.unaryBody
  split
  · exact (Remarks.requireAssignable _ _).advances.bind fun _ => (Remarks.unaryType _ _ _).advances
  · exact (Remarks.unaryType _ _ _).advances

theorem Advances.assignmentBody (op : Option BinaryOp) (left right : Expr) (span : Span)
    (leftType : Ty) : Advances (assignmentBody op left right span leftType) :=
  (Remarks.requireAssignable _ _).advances.bind fun _ => (expression _ _).bind fun _ =>
    assignmentType _ _ _ _ _ _

theorem expressions_length {es : List Expr} {c : Context} {σ τ : Findings} {types : List Ty}
    (run : expressions es c σ = .ok (types, τ)) : types.length = es.length := by
  induction es generalizing σ types with
  | nil => cases run; rfl
  | cons e rest ih =>
    obtain ⟨t, υ, -, run⟩ := bind_ok.mp run
    obtain ⟨others, φ, more, run⟩ := bind_ok.mp run
    cases run
    exact congrArg (· + 1) (ih more)

end Check

namespace Enclosure

variable {E : Enclosure}

namespace MirrorsBy

/-! ## Calls and assignments that have the parentheses -/

/-- Another piece of the first check may be taken if it ends in the same way. -/
theorem replace {α β : Type} {g : α → β} {m n : Check α} {m' : Check β}
    (mirrors : E.MirrorsBy g n m') (grows : E.Grows m)
    (same : ∀ {scope σ a τ}, m (E.context scope) σ = .ok (a, τ) → τ.Extends E.found →
      n (E.context scope) σ = .ok (a, τ)) : E.MirrorsBy g m m' where
  grows := grows
  run σ σ' agree scope a τ run later isOpen :=
    mirrors.run σ σ' agree scope a τ (same run later) later isOpen

theorem callee_enclosed {node : Node} {callee : Expr} {arguments : List Expr} {names : List String}
    (mem : .call node callee arguments names ∈ E.unit.inventory.nodes)
    (selected : E.wrapping.selects (.call node callee arguments names) = true)
    (mirrors : E.Mirrors (expression callee {}) (expression (E.wrapping.expr callee) {}))
    {passed : Arguments} (size : passed.types.length = arguments.length) (emitted : Bool) :
    E.Mirrors (expression callee { arguments := some passed } >>= fun t =>
        callType t passed emitted node.span >>= annotate node.id)
      (expression (.tuple E.wrapping.fresh [some (E.wrapping.expr callee)] false)
        { arguments := some passed } >>= fun t =>
          callType t passed emitted node.span >>= annotate node.id) := by
  have indifferent :
    ¬ AsksArguments E.unit E.settings ⟨E.found.annotations, E.found.diagnostics⟩ arguments callee :=
    fun asks => E.unseen _ mem selected (.inl asks)
  rw [expression_parentheses]
  refine enclose callee mem selected rfl rfl ?_ (Records.expression callee _)
    (fun t => (Remarks.callType _ _ _ _).grows)
    fun _ _ agree _ => (Remarks.callType _ _ _ _).steady.run _ _ agree
  -- In parentheses, the callee is checked without the arguments, which gives the same type.
  exact mirrors.replace (Advances.expression _ _).grows fun run later =>
    expression_without_arguments run later size indifferent

theorem assignment_enclosed {node : Node} {op : Option BinaryOp} {left right : Expr}
    (mem : .assignment node op left right ∈ E.unit.inventory.nodes)
    (selected : E.wrapping.selects (.assignment node op left right) = true)
    (mirrors : E.Mirrors (expression left { isTarget := true })
      (expression (E.wrapping.expr left) { isTarget := true }))
    (mirrorsRight : E.Mirrors (expression right {}) (expression (E.wrapping.expr right) {})) :
    E.Mirrors (expression left { isTarget := true } >>= fun leftType =>
        assignmentBody op left right node.span leftType >>= annotate node.id)
      (expression (.tuple E.wrapping.fresh [some (E.wrapping.expr left)] false)
        { isTarget := true } >>= fun leftType => assignmentBody op
          (.tuple E.wrapping.fresh [some (E.wrapping.expr left)] false) (E.wrapping.expr right)
          node.span leftType >>= annotate node.id) := by
  rw [expression_parentheses]
  refine enclose left mem selected rfl rfl mirrors (Records.expression left _)
    (fun t => (Advances.assignmentBody _ _ _ _ _).grows)
    fun {scope σ t τ τ'} run later agree opened => ?_
  have clear := E.fresh_not_mem_spine run later
  have recorded := Records.expression left _ _ _ _ _ run
  -- The left side is looked at again twice: as a target, and by the storage guard.
  refine RunsAs.bind (Remarks.requireAssignable _ _).grows
    (fun _ => Advances.grows ((Advances.expression _ _).bind fun _ => .assignmentType _ _ _ _ _ _))
    (.requireAssignable_enclosed agree clear recorded opened op.isNone)
    fun {_ _ υ υ'} one _ later' agree' => ?_
  have recorded' := ((Remarks.requireAssignable _ _).advances _ _ _ _ one).expression _ _ recorded
  refine RunsAs.bind mirrorsRight.grows (fun _ => (Advances.assignmentType _ _ _ _ _ _).grows)
    (mirrorsRight.run υ υ' agree') fun {_ rightType φ φ'} two _ later'' agree'' => ?_
  have recorded'' := (Advances.expression _ _ _ _ _ _ two).expression _ _ recorded'
  refine .assignmentType agree'' (fun components isTuple => ?_) op right
  have quiet : ¬ WarnsOfOverlap ⟨E.found.annotations, E.found.diagnostics⟩ node.span left :=
    fun warns => E.unseen _ mem selected (.inl warns)
  refine .guardStorage_enclosed agree'' clear recorded'' quiet (fun index onPath => ?_) rightType
  cases found : E.declarations.evaluate index with
  | ok value => exact ⟨value, rfl⟩
  | error fault =>
    have known := later.expression _ _ recorded
    exact (E.unseen _ mem selected
      (.inr ⟨⟨components, isTuple ▸ known⟩, index, onPath, fault, found⟩)).elim

/-! ## All expressions -/

theorem unaryBody {operand : Expr} (clear : E.wrapping.fresh.id ∉ operand.spine) (op : UnaryOp)
    (span : Span) (t : Ty) :
    E.Mirrors (unaryBody op operand span t) (unaryBody op (E.wrapping.expr operand) span t) := by
  refine ite .rfl ?_ (Remarks.unaryType _ _ _).steady
  exact (requireAssignable false operand clear).bind fun _ => (Remarks.unaryType _ _ _).steady

mutual

theorem expression (e : Expr) (seen : E.Sees e.nodes) (demand : Demand) :
    E.Mirrors (expression e demand) (expression (E.wrapping.expr e) demand) := by
  match e with
  | .identifier node name target overloads =>
    exact (Steady.identifierType node name target overloads demand).thenAnnotate _
  | .elementaryType node name payable =>
    rw [expr, Check.expression]
    split
    · exact Steady.annotate _ _
    · exact (Steady.reject _ _).thenAnnotate _
  | .literal node kind text unit =>
    rw [expr, Check.expression]
    split
    · exact Steady.annotate _ _
    · exact (Steady.reject _ _).thenAnnotate _
  | .unary node op _ operand =>
    rw [expr, expression_unary, expression_unary]
    refine (expression operand seen.tail _).bindAfter
      (fun t => Advances.grows ((Advances.unaryBody _ _ _ _).thenAnnotate _)) fun run later => ?_
    exact (unaryBody (E.fresh_not_mem_spine run later) op node.span _).thenAnnotate _
  | .binary node op left right =>
    exact (expression left seen.tail.left _).bind fun _ =>
      (expression right seen.tail.right _).bind fun _ =>
      (Remarks.binaryType _ _ _ _).steady.thenAnnotate _
  | .assignment node op left right =>
    rw [expr, expression_assignment, expression_assignment]
    cases selected : E.wrapping.selects (.assignment node op left right) with
    | true =>
      rw [Wrapping.enclose, if_pos selected]
      exact assignment_enclosed seen.self selected (expression left seen.tail.left _)
        (expression right seen.tail.right _)
    | false =>
      rw [Wrapping.enclose, if_neg (Bool.eq_false_iff.mp selected)]
      refine (expression left seen.tail.left _).bindAfter
        (fun t => Advances.grows ((Advances.assignmentBody _ _ _ _ _).thenAnnotate _))
        fun run later => thenAnnotate ?_ _
      have clear := E.fresh_not_mem_spine run later
      refine (requireAssignable op.isNone left clear).bind fun _ =>
        (expression right seen.tail.right _).bind fun rightType => ?_
      refine ⟨(Advances.assignmentType _ _ _ _ _ _).grows, fun σ σ' agree => ?_⟩
      refine .assignmentType agree (fun components isTuple => ?_) op right
      exact (guardStorage clear (ne_inlineArray (isTuple ▸ run)) rightType node.span).run σ σ' agree
  | .conditional node condition yes no =>
    refine (expression condition seen.tail.left _).bind fun conditionType => ?_
    rw [expr_span]
    exact bind (Remarks.requireConvertible _ _ _).steady fun _ =>
      (expression yes seen.tail.right.left _).bind fun _ =>
      (expression no seen.tail.right.right _).bind fun _ =>
        (Remarks.conditionalType _ _ _).steady.thenAnnotate _
  | .tuple node slots true =>
    refine (elements slots seen.tail none true).bind fun found => ?_
    rw [slots_length]
    exact (Remarks.inlineArrayType _ _ _).steady.thenAnnotate _
  | .tuple node slots false =>
    exact (components demand.isTarget node.span slots seen.tail).bind fun types =>
      Steady.annotate _ _
  | .call node callee arguments names =>
    rw [expr, expression_call, expression_call, exprs_length]
    refine bind (ite .rfl (Steady.pure _) (Steady.requireNames _ _ _)) fun _ => ?_
    refine bind Steady.takeEmitPending fun emitted => ?_
    unfold callBody
    rw [exprs_spans]
    refine (expressions arguments seen.tail.left).bindAfter (fun types => Advances.grows
      ((Advances.expression _ _).bind fun _ => (Remarks.callType _ _ _ _).advances.thenAnnotate _))
      fun run _ => ?_
    cases selected : E.wrapping.selects (.call node callee arguments names) with
    | true =>
      rw [Wrapping.enclose, if_pos selected]
      exact callee_enclosed seen.self selected (expression callee seen.tail.right {})
        (expressions_length run) emitted
    | false =>
      rw [Wrapping.enclose, if_neg (Bool.eq_false_iff.mp selected)]
      exact (expression callee seen.tail.right _).bind fun _ =>
        (Remarks.callType _ _ _ _).steady.thenAnnotate _
  | .callOptions node callee names options =>
    rw [expr, Check.expression, Check.expression, exprs_length, exprs_spans]
    exact bind (Steady.requireNames _ _ _) fun _ =>
      (expression callee seen.tail.left _).bind fun _ =>
      (expressions options seen.tail.right).bind fun _ =>
        (Remarks.callOptionsType _ _ _).steady.thenAnnotate _
  | .create node typeName => exact (creationType typeName node.span).thenAnnotate _
  | .await node handle =>
    exact (expression handle seen.tail _).bind fun _ =>
      (Remarks.awaitType _ _).steady.thenAnnotate _
  | .member node base name =>
    exact (expression base seen.tail _).bind fun _ => (Steady.memberType _ _ _ _).thenAnnotate _
  | .index node base none =>
    refine (expression base seen.tail.left _).bind fun t => ?_
    split
    · exact (Remarks.arrayTypeType _ _ _ _).steady.thenAnnotate _
    · exact ite .rfl ((Steady.reject _ _).thenAnnotate _)
        ((Remarks.elementType _ _ _).steady.thenAnnotate _)
  | .index node base (some index) =>
    refine (expression base seen.tail.left _).bind fun t =>
      (expression index seen.tail.right _).bind fun indexType => ?_
    rw [expr_span]
    split
    · refine (lengthOfIndex index indexType).bind fun length => ?_
      split
      · exact Steady.annotate _ _
      · exact (Remarks.arrayTypeType _ _ _ _).steady.thenAnnotate _
    · exact bind (Remarks.requireConvertible _ _ _).steady fun _ =>
        (Remarks.elementType _ _ _).steady.thenAnnotate _
    · exact (Remarks.elementType _ _ _).steady.thenAnnotate _
  | .slice node base start stop =>
    exact (expression base seen.tail.left _).bind fun _ =>
      (bound start seen.tail.right.left).bind fun _ =>
      (bound stop seen.tail.right.right).bind fun _ => (Remarks.sliceType _ _).steady.thenAnnotate _

theorem expressions (es : List Expr) (seen : E.Sees (listNodes es)) :
    E.Mirrors (expressions es) (expressions (E.wrapping.exprs es)) := by
  match es with
  | [] => exact Steady.pure _
  | e :: rest =>
    exact (expression e seen.left _).bind fun t => (expressions rest seen.right).bind fun types =>
      Steady.pure _

theorem components (isTarget : Bool) (span : Span) (slots : List (Option Expr))
    (seen : E.Sees (slotNodes slots)) :
    E.Mirrors (components isTarget span slots)
      (components isTarget span (E.wrapping.slots slots)) := by
  match slots with
  | [] => exact Steady.pure _
  | some e :: rest =>
    exact (expression e seen.left _).bind fun t => (components isTarget span rest seen.right).bind
      fun types =>
      Steady.pure _
  | none :: rest =>
    have others (t : Option Ty) : E.Mirrors (do return t :: (← Check.components isTarget span rest))
        (do return t :: (← Check.components isTarget span (E.wrapping.slots rest))) :=
      (components isTarget span rest seen).bind fun types => Steady.pure _
    exact ite .rfl (bind (Steady.pure _) others)
      (bind (map (Steady.reject _ _) fun _ => rfl) others)

theorem elements (slots : List (Option Expr)) (seen : E.Sees (slotNodes slots)) (common : Option Ty)
    (valid : Bool) :
    E.Mirrors (elements slots common valid) (elements (E.wrapping.slots slots) common valid) := by
  match slots with
  | [] => exact Steady.pure _
  | none :: rest => exact Steady.pure _
  | some e :: rest =>
    refine (expression e seen.left _).bind fun t =>
      ite .rfl (elements rest seen.right common false) ?_
    split
    · exact Steady.pure _
    · exact elements rest seen.right _ valid

theorem bound (limit : Option Expr) (seen : E.Sees (optionNodes limit)) :
    E.Mirrors (bound limit) (bound (E.wrapping.optional limit)) := by
  match limit with
  | none => exact Steady.pure _
  | some e =>
    refine (expression e seen _).bind fun t => ?_
    rw [expr_span]
    exact (Remarks.requireConvertible _ _ _).steady

end

end MirrorsBy

end Enclosure

end ContractTyping
