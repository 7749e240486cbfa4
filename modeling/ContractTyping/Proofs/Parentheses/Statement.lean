import ContractTyping.Proofs.Parentheses.Expression

/-!
# Statements with parentheses

Variables are recorded with the same types, and statements are checked alike, with parentheses and
without. Some statements ask how the function is called that an expression calls. If its callee
stands in the parentheses, this is asked of the parentheses, which say the same (`sameCall`).
-/

namespace ContractTyping

open Check Option List
variable {demand : Demand}

/-! ## What is called -/

namespace Check

variable {c : Context} {σ τ : Findings} {t : Ty}
variable {node : Node}

/-- The callee is visited in a call. -/
theorem callee_of_call {callee : Expr} {arguments : List Expr} {names : List String}
    (run : expression (.call node callee arguments names) demand c σ = .ok (t, τ)) :
    ∃ passed υ calleeType φ, expression callee { arguments := some passed }
      c υ = .ok (calleeType, φ) ∧ φ.Extends τ := by
  rw [expression_call] at run
  obtain ⟨_, _, -, run⟩ := bind_ok.mp run
  obtain ⟨_, _, -, run⟩ := bind_ok.mp run
  obtain ⟨types, υ, -, run⟩ := bind_ok.mp run
  obtain ⟨calleeType, φ, visited, run⟩ := bind_ok.mp run
  exact ⟨_, υ, calleeType, φ, visited,
    (((Remarks.callType _ _ _ _).advances.thenAnnotate _) _ φ t τ run).toExtends⟩

/-- The type of what stands in parentheses is recorded for both. -/
theorem recorded_of_parentheses {inner : Expr}
    (run : expression (.tuple node [some inner] false) demand c σ = .ok (t, τ)) :
    τ.expression? node.id = some t ∧ τ.expression? inner.id = some t := by
  rw [expression_parentheses] at run
  obtain ⟨t', υ, visited, run⟩ := bind_ok.mp run
  have recorded := Records.expression inner _ _ _ _ _ visited
  rw [annotate_value run] at recorded
  exact ⟨Records.annotate _ _ _ _ _ _ run,
    (Advances.annotate _ _ _ _ _ _ run).expression _ _ recorded⟩

end Check

/-- What a try statement goes on with, by the type of the call and by how it calls a function. -/
def Check.tried (t : Ty) (kind : Option CallKind) (span : Span) : Check (List Ty) := do
  match kind with
  | some .external | some .creation =>
    match t with
    | .tuple components => return components.map fun component => component.getD .invalid
    | single => return [single]
  | _ =>
    invalidStatement .tryCallee span
    return []

theorem Check.tryCall_eq (call : Expr) :
    tryCall call = expression call {} >>= fun t => calleeKind? call >>= fun kind =>
      tried t kind call.span := rfl

/-- Whether two answers to how an expression calls a function mean the same. One of them may know
less about a function that takes no options. -/
def SameCall (kind kind' : Option CallKind) : Prop :=
  kind' = kind ∨ kind' = none ∧ ∃ k, kind = some k ∧ k.takesOptions = false ∧ k ≠ .event ∧ k ≠ .send

namespace SameCall

variable {kind kind' : Option CallKind}

variable (same : SameCall kind kind')

include same

theorem isEvent : (kind' == some .event) = (kind == some .event) := by
  rcases same with rfl | ⟨rfl, k, rfl, -, notEvent, -⟩
  · rfl
  · cases k <;> first | rfl | exact absurd rfl notEvent

theorem unusedResult? : kind'.bind unusedResult? = kind.bind unusedResult? := by
  rcases same with rfl | ⟨rfl, k, rfl, refuses, -, notSend⟩
  · rfl
  · cases k <;> first | rfl | exact absurd rfl notSend | cases refuses

theorem tried (t : Ty) (span : Span) : tried t kind' span = tried t kind span := by
  rcases same with rfl | ⟨rfl, k, rfl, refuses, -, -⟩
  · rfl
  · cases k <;> first | rfl | cases refuses

end SameCall

/-- A declared variable and its type, with parentheses in the variable. -/
def Wrapping.slot (W : Wrapping) : Option (Variable × Ty) → Option (Variable × Ty)
  | none => none
  | some (v, t) => some (W.var v, t)

theorem Wrapping.catchClauses_length (W : Wrapping) (clauses : List CatchClause) :
    (W.catchClauses clauses).length = clauses.length := by
  induction clauses with
  | nil => rfl
  | cons clause rest ih =>
    obtain ⟨node, errorName, parameters, body⟩ := clause
    rw [catchClauses, length_cons, ih, length_cons]

theorem Wrapping.withoutOptions_expr (W : Wrapping) (e : Expr) :
    (W.expr e).withoutOptions = W.expr e.withoutOptions := by
  match e with
  | .callOptions _ callee _ _ => exact withoutOptions_expr W callee
  | .identifier .. | .elementaryType .. | .literal .. | .unary .. | .binary .. | .assignment ..
  | .conditional .. | .tuple .. | .call .. | .create .. | .await .. | .member .. | .index ..
  | .slice .. => rfl

namespace Enclosure

variable {E : Enclosure}
variable {e : Expr}

/-- After the visit of an expression, both checks know how the function is called that it calls. -/
theorem sameCall {scope : Scope} {σ σ' τ τ' : Findings} {t t' : Ty} (seen : E.Sees e.nodes)
    (run : expression e demand (E.context scope) σ = .ok (t, τ))
    (run' : expression (E.wrapping.expr e) demand (E.there scope) σ' = .ok (t', τ'))
    (later : τ.Extends E.found) (agree : E.Agree τ τ') :
    SameCall (τ.annotations.calleeKind? e) (τ'.annotations.calleeKind? (E.wrapping.expr e)) := by
  cases e with
  | call node callee arguments names =>
    have clear := E.fresh_not_mem_spine run later
    have other {id : NodeId} (mem : id ∈ callee.spine) : id ≠ E.wrapping.fresh.id :=
      fun same => clear (mem_cons_of_mem _ (same ▸ mem))
    cases selected : E.wrapping.selects (.call node callee arguments names) with
    | false =>
      rw [Wrapping.expr, Wrapping.enclose, if_neg (Bool.eq_false_iff.mp selected)]
      refine .inl ?_
      show (τ'.expression? (E.wrapping.expr callee).withoutOptions.id).bind Ty.callKind? = _
      rw [Wrapping.withoutOptions_expr, Wrapping.expr_id,
        agree.expression _ (other callee.withoutOptions_mem_spine)]
      rfl
    | true =>
      rw [Wrapping.expr, Wrapping.enclose, if_pos selected] at run' ⊢
      obtain ⟨_, _, inner, _, visited', last'⟩ := callee_of_call run'
      obtain ⟨opened, recorded'⟩ := recorded_of_parentheses visited'
      obtain ⟨_, _, calleeType, _, visited, last⟩ := callee_of_call run
      have recorded := last.expression _ _ (Records.expression callee _ _ _ _ _ visited)
      -- The parentheses and the callee have one type.
      have same : inner = calleeType := by
        have known := last'.expression _ _ recorded'
        rw [Wrapping.expr_id, agree.expression _ (other callee.id_mem_spine), recorded] at known
        exact (some.inj known).symm
      obtain ⟨head, found, kind⟩ := callKind_of_callee visited
      have asked :
          τ.annotations.calleeKind? (.call node callee arguments names) = head.callKind? := by
        show (τ.expression? callee.withoutOptions.id).bind Ty.callKind? = _
        rw [last.expression _ _ found, bind_some]
      have asked' : τ'.annotations.calleeKind? (.call node (.tuple E.wrapping.fresh
          [some (E.wrapping.expr callee)] false) (E.wrapping.exprs arguments)
          names) = calleeType.callKind? := by
        show (τ'.expression? E.wrapping.fresh.id).bind Ty.callKind? = _
        rw [last'.expression _ _ opened, bind_some, same]
      rw [asked, asked']
      rcases kind with alike | ⟨hasOptions, filtered⟩
      · exact .inl alike
      · rw [filtered]
        cases called : head.callKind? with
        | none => exact .inl rfl
        | some k =>
          rw [filter_some]
          cases takes : k.takesOptions with
          | true => exact .inl rfl
          | false =>
            have refused (kind : CallKind) (isKind : kind = .event ∨ kind = .send) : k ≠ kind := by
              rintro rfl
              refine E.unseen _ seen.self selected (.inr ⟨hasOptions, k, isKind, ?_⟩)
              have recorded := later.expression _ _ (last.expression _ _ found)
              exact (congrArg (bind · Ty.callKind?) recorded).trans called
            exact .inr ⟨rfl, k, rfl, takes, refused .event (.inl rfl), refused .send (.inr rfl)⟩
  | _ => exact .inl rfl

namespace RunsAs

variable {α β : Type} {σ σ' : Findings} {g : α → β}

/-- Both checks go on with their own answers. -/
theorem calleeKind {e' : Expr} {k : Option CallKind → Check α} {k' : Option CallKind → Check β}
    (next : E.RunsAs σ σ' g (k (σ.annotations.calleeKind? e))
      (k' (σ'.annotations.calleeKind? e'))) :
    E.RunsAs σ σ' g (calleeKind? e >>= k) (calleeKind? e' >>= k') := by
  intro scope a τ run later isOpen
  rw [bind_run (calleeKind?_run ..)] at run ⊢
  exact next scope a τ run later isOpen

end RunsAs

/-! ## Variables -/

namespace MirrorsBy

variable (parameters : Option (List Variable))

theorem expect {e : Expr} (seen : E.Sees e.nodes) (expected : Ty) :
    E.Mirrors (expect e expected) (expect (E.wrapping.expr e) expected) := by
  refine (expression e seen _).bind fun t => ?_
  rw [Wrapping.expr_span]
  exact (Remarks.requireConvertible _ _ _).steady

theorem positional {arguments : List Expr} (seen : E.Sees (listNodes arguments)) :
    E.Mirrors (positional arguments) (positional (E.wrapping.exprs arguments)) := by
  unfold Check.positional
  rw [Wrapping.exprs_spans]
  exact (expressions arguments seen).bind fun types => Steady.pure _

theorem declare (v : Variable) (role : VariableRole) :
    E.Mirrors (declare v role) (declare (E.wrapping.var v) role) := by
  unfold Check.declare
  rw [Wrapping.var_typeSpan, Wrapping.var_traits, Wrapping.var_span, Wrapping.var_id]
  refine read fun scope => ?_
  rw [there_declarations, Wrapping.declaredType_var]
  refine bind (Steady.ofExcept _) fun result => bind (Steady.orReject _ _) fun t => ?_
  have rest (_ : Unit) : E.Steady (do annotateVariable v.id t; return t) :=
    (Steady.annotateVariable _ _).bind fun _ => Steady.pure _
  refine ite .rfl (rest ()) ?_
  split
  · exact (Steady.report _ _).bind fun _ => (Remarks.requireParameter _ _ _).steady.bind rest
  · exact (Remarks.requireParameter _ _ _).steady.bind rest

theorem declareAll (vars : List Variable) (role : VariableRole) :
    E.Mirrors (declareAll vars role) (declareAll (E.wrapping.vars vars) role) := by
  rw [Wrapping.vars_eq]
  exact mapM_types fun v _ => declare v role

/-! ## Statements -/

theorem returnStatement {value : Expr} (seen : E.Sees value.nodes) (span : Span) :
    E.Mirrors (returnStatement value span) (returnStatement (E.wrapping.expr value) span) := by
  refine read fun scope => ?_
  cases inFunction : scope.function with
  | none =>
    have here : (E.context scope).scope.function = none := inFunction
    have there : (E.there scope).scope.function = none :=
      congrArg (Option.map E.wrapping.function) inFunction
    rw [here, there]
    exact (expression value seen _).bind fun _ => Steady.report _ _
  | some f =>
    have here : (E.context scope).scope.function = some f := inFunction
    have there : (E.there scope).scope.function = some (E.wrapping.function f) :=
      congrArg (Option.map E.wrapping.function) inFunction
    rw [here, there]
    refine (variableTypes f.returns).bind fun expected =>
      (expression value seen _).bind fun actual => ?_
    refine ite .rfl (Steady.pure _) ?_
    unfold matchReturn
    rw [Wrapping.expr_span]
    split
    · exact Steady.report _ _
    · exact (Remarks.requireConvertible _ _ _).steady
    · exact ite .rfl (Steady.report _ _) (Remarks.requireConvertible _ _ _).steady
    · exact Steady.report _ _

theorem emitStatement {event : Expr} (seen : E.Sees event.nodes) :
    E.Mirrors (emitStatement event) (emitStatement (E.wrapping.expr event)) := by
  have rest (kind : Option CallKind) : E.Steady (do
      unless kind == some .event do invalidStatement .notEvent event.span) := by
    split
    · exact .pure _
    · exact .report _ _
  have last (u : Unit) : E.Grows (do
      unless (← calleeKind? event) == some .event do invalidStatement .notEvent event.span) :=
    (Remarks.calleeKind event).grows.bind fun kind => (rest kind).grows
  unfold Check.emitStatement
  rw [Wrapping.expr_span]
  refine bind (Steady.setEmitPending true) fun _ => ?_
  refine (expression event seen _).bindRun (fun t => (Ending.Grows.setEmitPending false).bind last)
    fun run run' later agree => ?_
  have same := sameCall seen run run' later agree
  refine RunsAs.bind (.setEmitPending false) last ((Steady.setEmitPending false).run _ _ agree)
    fun one one' _ agree' => .calleeKind ?_
  cases one
  cases one'
  rw [same.isEvent]
  exact (rest _).run _ _ agree'

theorem expressionStatement {e : Expr} (seen : E.Sees e.nodes) :
    E.Mirrors (expressionStatement e) (expressionStatement (E.wrapping.expr e)) := by
  unfold Check.expressionStatement
  rw [Wrapping.expr_span]
  refine (expression e seen _).bindRun (fun t => (Remarks.calleeKind e).grows.bind fun kind => ?_)
    fun run run' later agree => .calleeKind ?_
  · split
    · exact .record _ _ _
    · exact .pure _
  · rw [(sameCall seen run run' later agree).unusedResult?]
    split
    · exact (Steady.warn _ _).run _ _ agree
    · exact .pure agree _ _

theorem declareSlots (slots : List (Option Variable)) :
    E.MirrorsBy (List.map E.wrapping.slot) (declareSlots slots)
      (declareSlots (slots.map (Option.map E.wrapping.var))) := by
  induction slots with
  | nil => exact pure [] _
  | cons slot rest ih =>
    cases slot with
    | none => exact ih.bind fun others => pure (none :: others) (List.map E.wrapping.slot)
    | some v =>
      exact (declare v _).bind fun t => ih.bind fun others =>
        pure (some (v, t) :: others) (List.map E.wrapping.slot)

theorem requireInitial (declared : List (Option (Variable × Ty))) :
    E.Mirrors (requireInitial declared) (requireInitial (declared.map E.wrapping.slot)) := by
  have present : (declared.map E.wrapping.slot).filterMap id =
      (declared.filterMap id).map fun pair => (E.wrapping.var pair.1, pair.2) :=
    filterMap_map_of_commutes declared fun slot => by cases slot <;> rfl
  unfold Check.requireInitial
  rw [present]
  refine forM fun pair _ => ?_
  obtain ⟨v, t⟩ := pair
  dsimp only
  rw [Wrapping.var_span]
  split
  · exact Steady.report _ _
  · exact ite .rfl (Steady.report _ _) (Steady.pure _)

theorem matchInitial (declared : List (Option (Variable × Ty))) (values : List (Option Ty))
    (initial : Expr) : E.Mirrors (matchInitial declared values initial)
      (matchInitial (declared.map E.wrapping.slot) values (E.wrapping.expr initial)) := by
  have paired : (declared.map E.wrapping.slot).zip values =
      (declared.zip values).map fun pair => (E.wrapping.slot pair.1, pair.2) := zip_map_left ..
  unfold Check.matchInitial
  rw [paired, length_map, Wrapping.expr_span]
  refine forM fun pair _ => ?_
  obtain ⟨slot, value⟩ := pair
  cases slot with
  | none => exact Steady.pure _
  | some declared =>
    cases value with
    | none => exact Steady.pure _
    | some value =>
      obtain ⟨v, t⟩ := declared
      show E.Mirrors _ (requireConvertible value t (if _ then _ else (E.wrapping.var v).span))
      rw [Wrapping.var_span]
      exact (Remarks.requireConvertible _ _ _).steady

theorem declarationStatement (vars : List (Option Variable)) {initial : Option Expr}
    (seen : E.Sees (optionNodes initial)) (span : Span) :
    E.Mirrors (declarationStatement vars initial span)
      (declarationStatement (vars.map (Option.map E.wrapping.var))
        (E.wrapping.optional initial) span) := by
  refine (declareSlots vars).bind fun declared => ?_
  cases initial with
  | none => exact requireInitial _
  | some initial =>
    refine (expression initial seen _).bind fun t => ite .rfl (Steady.pure _) ?_
    rw [List.length_map]
    exact ite .rfl (Steady.report _ _) (matchInitial _ _ _)

theorem tryCall {call : Expr} (seen : E.Sees call.nodes) :
    E.Mirrors (tryCall call) (tryCall (E.wrapping.expr call)) := by
  rw [tryCall_eq, tryCall_eq, Wrapping.expr_span]
  have given (t : Ty) (kind : Option CallKind) : E.Steady (tried t kind call.span) := by
    unfold tried
    split
    · split <;> exact .pure _
    · split <;> exact .pure _
    · exact (Steady.report _ _).bind fun _ => .pure _
  refine (expression call seen _).bindRun
    (fun t => (Remarks.calleeKind call).grows.bind fun kind => (given t kind).grows)
    fun run run' later agree => .calleeKind ?_
  rw [(sameCall seen run run' later agree).tried]
  exact (given _ _).run _ _ agree

theorem clauseParameters : E.Mirrors (Check.declareAll (parameters.getD []) .catchParameter)
      (Check.declareAll ((parameters.map E.wrapping.vars).getD []) .catchParameter) := by
  cases parameters with
  | none => exact declareAll [] _
  | some parameters => exact declareAll parameters _

theorem successParameters (returned : List Ty) (span : Span) :
    E.Mirrors (Check.successParameters parameters returned span)
      (Check.successParameters (parameters.map E.wrapping.vars) returned span) := by
  refine (clauseParameters parameters).bind fun declared => ?_
  rw [isSome_map]
  refine ite .rfl (ite .rfl (Steady.report _ _) (Steady.forM fun pair _ => ?_)) (Steady.pure _)
  obtain ⟨parameter, t⟩ := pair
  dsimp only
  split
  · exact .pure _
  · exact .report _ _

theorem catchParameters (errorName : String) (parameters : Option (List Variable)) (span : Span) :
    E.Mirrors (Check.catchParameters errorName parameters span)
      (Check.catchParameters errorName (parameters.map E.wrapping.vars) span) := by
  refine (clauseParameters parameters).bind fun declared => ?_
  split
  · refine Steady.read (fun scope => rfl) fun scope => ?_
    split
    · exact .report _ _
    · split
      · exact .pure _
      · exact .report _ _
  · exact ite .rfl (ite .rfl (Steady.pure _) (Steady.report _ _)) (Steady.report _ _)

mutual

theorem statement (s : Statement) (seen : E.Sees s.inventory.nodes) :
    E.Mirrors (statement s) (statement (E.wrapping.statement s)) := by
  match s with
  | .block _ body => exact block body seen
  | .placeholder node =>
    refine Steady.read (fun scope => rfl) fun scope => ?_
    split
    · exact .pure _
    · exact .report _ _
  | .ifElse _ condition yes no =>
    exact (expect seen.left .bool).bind fun _ => (statement yes seen.right.left).bind fun _ =>
      optionalStatement no seen.right.right
  | .whileLoop _ condition body _ =>
    exact (expect seen.left .bool).bind fun _ => statement body seen.right
  | .forLoop _ initial none none body =>
    exact (optionalStatement initial seen.left).bind fun _ => statement body seen.right.right.right
  | .forLoop _ initial none (some step) body =>
    exact (optionalStatement initial seen.left).bind fun _ =>
      (expression step seen.right.right.left _).bind fun _ =>
      statement body seen.right.right.right
  | .forLoop _ initial (some condition) none body =>
    exact (optionalStatement initial seen.left).bind fun _ =>
      (expect seen.right.left .bool).bind fun _ =>
      statement body seen.right.right.right
  | .forLoop _ initial (some condition) (some step) body =>
    exact (optionalStatement initial seen.left).bind fun _ =>
      (expect seen.right.left .bool).bind fun _ =>
      (expression step seen.right.right.left _).bind fun _ => statement body seen.right.right.right
  | .continueLoop _ => exact Steady.pure _
  | .breakLoop _ => exact Steady.pure _
  | .returnValue node none => exact Steady.pure _
  | .returnValue node (some value) => exact returnStatement seen node.span
  | .emit _ event => exact emitStatement seen
  | .declare node vars initial => exact declarationStatement vars seen node.span
  | .expression _ e => exact expressionStatement seen
  | .tryCatch node call clauses =>
    refine (tryCall seen.left).bind fun returned =>
      (tryClauses returned clauses seen.right).bind fun _ => ?_
    rw [Wrapping.catchClauses_length]
    exact ite .rfl (Steady.report _ _) (Steady.pure _)

theorem block (b : Block) (seen : E.Sees b.inventory.nodes) :
    E.Mirrors (block b) (block (E.wrapping.block b)) := by
  match b with
  | .mk _ body _ => exact statements body seen

theorem statements (body : List Statement) (seen : E.Sees (statementsInventory body).nodes) :
    E.Mirrors (statements body) (statements (E.wrapping.statements body)) := by
  match body with
  | [] => exact Steady.pure _
  | s :: rest => exact (statement s seen.left).bind fun _ => statements rest seen.right

theorem optionalStatement (s : Option Statement) (seen : E.Sees (optionalInventory s).nodes) :
    E.Mirrors (optionalStatement s) (optionalStatement (E.wrapping.optionalStatement s)) := by
  match s with
  | none => exact Steady.pure _
  | some s => exact statement s seen

theorem tryClauses (returned : List Ty) (clauses : List CatchClause)
    (seen : E.Sees (clausesInventory clauses).nodes) :
    E.Mirrors (tryClauses returned clauses)
      (tryClauses returned (E.wrapping.catchClauses clauses)) := by
  match clauses with
  | [] => exact Steady.pure _
  | .mk node _ parameters body :: rest =>
    exact (successParameters parameters returned node.span).bind fun _ =>
      (block body seen.right.left).bind fun _ =>
      catchClauses rest seen.right.right []

theorem catchClauses (clauses : List CatchClause) (seen : E.Sees (clausesInventory clauses).nodes)
    (before : List String) :
    E.Mirrors (catchClauses clauses before)
      (catchClauses (E.wrapping.catchClauses clauses) before) := by
  match clauses with
  | [] => exact Steady.pure _
  | .mk node errorName parameters body :: rest =>
    have others (u : Unit) : E.Mirrors (do
          Check.catchParameters errorName parameters node.span
          Check.block body
          Check.catchClauses rest (errorName :: before))
        (do
          Check.catchParameters errorName (parameters.map E.wrapping.vars) node.span
          Check.block (E.wrapping.block body)
          Check.catchClauses (E.wrapping.catchClauses rest) (errorName :: before)) :=
      (catchParameters errorName parameters node.span).bind fun _ =>
        (block body seen.right.left).bind fun _ =>
        catchClauses rest seen.right.right _
    exact ite .rfl (bind (Steady.report _ _) others) (others ())

end

end MirrorsBy

end Enclosure

end ContractTyping
