import ContractTyping.Proofs.Passing.Unit

/-!
# Events and emit statements

In a check that passes, events are called by emit statements only, and an emit statement calls an
event (`event_called_iff_emitted`).

The mark of an emit statement goes to the first call that is visited. All that is visited without
the mark is `Annotations.Hushed`, and if what the statement is about is no call itself, there is an
error.
-/

namespace ContractTyping

open Check

/-- How a callee is called that may have options, by the types that are recorded. -/
def Annotations.headKind? (a : Annotations) (callee : Expr) : Option CallKind :=
  (a.expression? callee.withoutOptions.id).bind Ty.callKind?

/-- Whether an expression is no call of an event, with or without options. -/
def Annotations.Hushed (a : Annotations) : Expr → Prop
  | .call _ callee _ _ | .callOptions _ callee _ _ => a.headKind? callee ≠ some .event
  | _ => True

theorem Expr.withoutOptions_cases (e : Expr) :
    (∃ node callee names options, e = .callOptions node callee names options) ∨
      e.withoutOptions = e := by
  cases e with
  | callOptions node callee names options => exact .inl ⟨node, callee, names, options, rfl⟩
  | _ => exact .inr rfl

namespace Ending

variable {E : Ending} {scope : Scope}
variable {t : Ty} {span : Span} {result : Ty}

/-! ## Events as callees -/

theorem Ends.not_callType_event (passes : E.Passes) (isEvent : t.callKind? = some .event)
    {arguments : Arguments} : ¬ E.Ends scope (callType t arguments false span) result := by
  intro ends
  cases t with
  | function traits parameters returns =>
    have kind : traits.kind = .event := Option.some.inj isEvent
    rw [callType, call] at ends
    simp only [kind] at ends
    obtain ⟨_, reported, -⟩ := ends.bind (.report rfl _) fun _ =>
      (Remarks.callFunction _ _ _).advances
    exact Ends.not_report passes reported
  | _ => cases isEvent

theorem Ends.not_callOptionsType_event (passes : E.Passes) (isEvent : t.callKind? = some .event)
    {options : List (String × Ty × Span)} :
    ¬ E.Ends scope (callOptionsType t options span) result := by
  intro ends
  cases t with
  | function traits parameters returns =>
    have kind : traits.kind = .event := Option.some.inj isEvent
    rw [callOptionsType] at ends
    simp only [kind, CallKind.takesOptions] at ends
    exact Ends.not_reject passes ends
  | _ => cases isEvent

/-- A callee that is visited is no event, if an event in its place would be an error. -/
theorem Ends.not_event {callee : Expr} {demand : Demand}
    (ends : E.Ends scope (expression callee demand) t)
    (hushed : E.found.annotations.Hushed callee) (plain : t.callKind? ≠ some .event) :
    E.found.annotations.headKind? callee ≠ some .event := by
  intro isEvent
  rcases callee.withoutOptions_cases with ⟨node, inner, names, options, rfl⟩ | same
  · exact hushed isEvent
  · obtain ⟨t', recorded, isKind⟩ := Option.bind_eq_some_iff.mp isEvent
    rw [same] at recorded
    cases ends.recorded.symm.trans recorded
    exact plain isKind

/-- What is visited without the mark calls no event, neither directly nor behind options. -/
theorem Ran.hushed (passes : E.Passes) {e : Expr} (ran : E.Ran e) :
    E.found.annotations.Hushed e := by
  obtain ⟨scope, demand, t, ends⟩ := ran
  match e with
  | .call node callee arguments names =>
    rw [expression_call] at ends
    obtain ⟨_, -, ends⟩ := ends.bind (.callNames _ _ _) fun _ =>
      Advances.takeEmitPending.bind fun _ => .callBody _ _ _ _ _
    obtain ⟨types, -, ends⟩ := ends.takeEmitPending.bind (.expressions _) fun _ =>
      (Advances.expression _ _).bind fun _ => (Remarks.callType _ _ _ _).advances.thenAnnotate _
    obtain ⟨calleeType, visit, ends⟩ := ends.bind (.expression _ _) fun _ =>
      (Remarks.callType _ _ _ _).advances.thenAnnotate _
    exact visit.not_event (hushed passes ⟨_, _, _, visit⟩) fun isEvent =>
      Ends.not_callType_event passes isEvent ends.thenAnnotate
  | .callOptions node callee names options =>
    obtain ⟨_, -, ends⟩ := ends.bind (Remarks.requireNames _ _ _).advances fun _ =>
      (Advances.expression _ _).bind fun _ => (Advances.expressions _).bind fun _ =>
        (Remarks.callOptionsType _ _ _).advances.thenAnnotate _
    obtain ⟨calleeType, visit, ends⟩ := ends.bind (.expression _ _) fun _ =>
      (Advances.expressions _).bind fun _ => (Remarks.callOptionsType _ _ _).advances.thenAnnotate _
    obtain ⟨types, -, ends⟩ := ends.bind (.expressions _) fun _ =>
      (Remarks.callOptionsType _ _ _).advances.thenAnnotate _
    exact visit.not_event (hushed passes ⟨_, _, _, visit⟩) fun isEvent =>
      Ends.not_callOptionsType_event passes isEvent ends.thenAnnotate
  | .identifier .. | .elementaryType .. | .literal .. | .unary .. | .binary .. | .assignment ..
  | .conditional .. | .tuple .. | .create .. | .await .. | .member .. | .index .. | .slice .. =>
    exact trivial

end Ending

theorem Annotations.Hushed.not_event {a : Annotations} {e : Expr} (hushed : a.Hushed e) :
    a.calleeKind? e ≠ some .event := by
  cases e with
  | call node callee arguments names => exact hushed
  | _ => exact nofun

/-- The visits of a unit are about all of its expressions. In a check that passes, a call that was
visited calls an event exactly if it is what an emit statement is about. -/
theorem event_called_iff_emitted {unit : SourceUnit} {settings : Settings} {report : Report}
    (checked : check unit settings = .ok report) (passed : report.passed = true) :
    visitNodes unit.visits = unit.inventory.nodes ∧
      ∀ visit ∈ unit.visits, ∀ inner ∈ visit.all report.annotations,
        (report.annotations.calleeKind? inner.expr = some .event ↔ inner.emitted = true) := by
  obtain ⟨found, rfl, reached, passes⟩ := exists_reached checked passed
  refine ⟨unit.visitNodes_visits, fun visit mem => ?_⟩
  have made := reached.made passes visit mem
  have outside {e : Expr} (hushed : found.annotations.Hushed e) :
      found.annotations.calleeKind? e = some .event ↔ false = true :=
    iff_of_false hushed.not_event nofun
  cases emitted : visit.emitted with
  | true =>
    obtain ⟨isEvent, inside⟩ := Ending.ran_of_emitted passes made emitted
    refine List.forall_mem_cons.mpr ⟨iff_of_true isEvent emitted, fun inner isInner => ?_⟩
    obtain ⟨e, isInside, rfl⟩ := List.mem_map.mp isInner
    exact outside ((inside e isInside).hushed passes)
  | false =>
    have all := Ending.ran_of_not_emitted made emitted
    refine List.forall_mem_cons.mpr ⟨?_, fun inner isInner => ?_⟩
    · rw [emitted]
      exact outside ((all _ (Expr.self_mem_visited _ _)).hushed passes)
    · obtain ⟨e, isInside, rfl⟩ := List.mem_map.mp isInner
      exact outside ((all e (List.mem_of_mem_tail isInside)).hushed passes)

/-- The call of a function without arguments. -/
def flagCall : Expr :=
  .call ⟨⟨15⟩, .unknown⟩ (.identifier ⟨⟨16⟩, .unknown⟩ "flag" (some ⟨6⟩) []) [] []

/-- The call of an event with the result of a function. -/
def eventCall : Expr :=
  .call ⟨⟨13⟩, .unknown⟩ (.identifier ⟨⟨14⟩, .unknown⟩ "Logged" (some ⟨3⟩) []) [flagCall] []

/-- A contract with an event and a function that emits it. -/
def emitUnit : SourceUnit :=
  let node (id : Int64) : Node := ⟨⟨id⟩, .unknown⟩
  let flag (id type : Int64) : Variable :=
    .mk { node := node id, name := "flag" } (some (.elementary (node type) "bool" false)) none
  { node := node 1
    path := "emit"
    abiCoder := none
    parts := [.contract ⟨node 2, "Log", .contract, false, [], [],
      [.event ⟨node 3, "Logged", [flag 4 5], false⟩,
        .function { (default : Function) with
          node := node 6, name := "flag", returns := [flag 7 8], body :=
            some (.mk (node 9) [] false) },
        .function { (default : Function) with
          node := node 10, name := "run"
          body := some (.mk (node 11) [.emit (node 12) eventCall] false) }]⟩] }

theorem event_called_iff_emitted_nested :
    ∃ report, check emitUnit {} = .ok report ∧ report.passed = true ∧
      report.annotations.calleeKind? eventCall = some .event ∧
      report.annotations.calleeKind? flagCall ≠ some .event := by
  obtain ⟨-, discipline⟩ := @event_called_iff_emitted emitUnit {} _ rfl rfl
  have inside := discipline _ (.head _)
  exact ⟨_, rfl, rfl, (inside _ (.head _)).mpr rfl,
    fun isEvent => absurd ((inside _ (.tail _ (.head _))).mp isEvent) nofun⟩

end ContractTyping
