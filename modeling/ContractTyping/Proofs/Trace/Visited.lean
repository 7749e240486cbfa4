import ContractTyping.Proofs.Trace.Unit

/-!
# What is visited inside expressions

The expressions inside an expression that its check visits (`Expr.visited`), and what is known about
the visit of each of them: it has been run to its end without the mark of an emit statement
(`Ending.Ran`). A statement about all expressions of a unit is proved by taking one such run apart
(`Ending.Ends`).
-/

namespace ContractTyping

open Check List

variable {e : Expr} {visit : Visit}

/-! ## What is visited inside an expression -/

/-- The common type of elements of an inline array after one more, if the check goes on. -/
def commonAfter (common : Option Ty) (t : Ty) : Option (Option Ty) :=
  if t.isInvalid then some common else (Ty.joinElement common t).map some

mutual

/-- An expression and the expressions inside it that are visited. The check of an inline array stops
at an element that is missing or has no type in common with those before. -/
def Expr.visited (a : Annotations) : Expr → List Expr
  | e@(.identifier ..) | e@(.elementaryType ..) | e@(.literal ..) | e@(.create ..) => [e]
  | e@(.unary _ _ _ part) | e@(.await _ part) | e@(.member _ part _) => e :: part.visited a
  | e@(.binary _ _ left right) | e@(.assignment _ _ left right) =>
    e :: (left.visited a ++ right.visited a)
  | e@(.conditional _ condition yes no) =>
    e :: (condition.visited a ++ (yes.visited a ++ no.visited a))
  | e@(.tuple _ components false) => e :: slotsVisited a components
  | e@(.tuple _ components true) => e :: elementsVisited a none components
  | e@(.call _ callee arguments _) => e :: (listVisited a arguments ++ callee.visited a)
  | e@(.callOptions _ callee _ options) => e :: (callee.visited a ++ listVisited a options)
  | e@(.index _ base index) => e :: (base.visited a ++ optionVisited a index)
  | e@(.slice _ base start stop) =>
    e :: (base.visited a ++ (optionVisited a start ++ optionVisited a stop))

def listVisited (a : Annotations) : List Expr → List Expr
  | [] => []
  | e :: rest => e.visited a ++ listVisited a rest

def slotsVisited (a : Annotations) : List (Option Expr) → List Expr
  | [] => []
  | none :: rest => slotsVisited a rest
  | some e :: rest => e.visited a ++ slotsVisited a rest

def elementsVisited (a : Annotations) (common : Option Ty) : List (Option Expr) → List Expr
  | [] | none :: _ => []
  | some e :: rest =>
    e.visited a ++ (a.expression? e.id).elim [] fun t =>
      (commonAfter common t).elim [] fun common => elementsVisited a common rest

def optionVisited (a : Annotations) : Option Expr → List Expr
  | none => []
  | some e => e.visited a

end

theorem Expr.self_mem_visited (a : Annotations) (e : Expr) : e ∈ e.visited a := by
  cases e with
  | tuple node components isInline => cases isInline <;> simp [Expr.visited]
  | _ => simp [Expr.visited]

section Nodes

variable {a : Annotations} {n : Expr}

/-- What stands in one of two lists stands in both together. -/
theorem nodes_append {xs ys us vs : List Expr} (first : n ∈ xs → n.nodes ⊆ us)
    (second : n ∈ ys → n.nodes ⊆ vs) (mem : n ∈ xs ++ ys) : n.nodes ⊆ us ++ vs :=
  (mem_append.mp mem).elim (fun inside => subset_append_of_subset_left _ (first inside))
    fun inside => subset_append_of_subset_right _ (second inside)

theorem nodes_cons {xs us : List Expr} (whole : e.nodes = e :: us) (inner : n ∈ xs → n.nodes ⊆ us)
    (mem : n ∈ e :: xs) : n.nodes ⊆ e.nodes := by
  rcases mem_cons.mp mem with rfl | inside
  · exact List.Subset.refl _
  · exact whole ▸ subset_cons_of_subset e (inner inside)

mutual

/-- What stands in a visited expression stands in the whole. -/
theorem Expr.nodes_of_visited (e : Expr) (mem : n ∈ e.visited a) : n.nodes ⊆ e.nodes := by
  match e with
  | .identifier .. | .elementaryType .. | .literal .. | .create .. =>
    cases mem_singleton.mp mem
    exact List.Subset.refl _
  | .unary _ _ _ part | .await _ part | .member _ part _ =>
    exact nodes_cons rfl part.nodes_of_visited mem
  | .binary _ _ left right | .assignment _ _ left right =>
    exact nodes_cons rfl (nodes_append left.nodes_of_visited right.nodes_of_visited) mem
  | .conditional _ condition yes no =>
    refine nodes_cons rfl (nodes_append condition.nodes_of_visited ?_) mem
    exact nodes_append yes.nodes_of_visited no.nodes_of_visited
  | .tuple _ slots false => exact nodes_cons rfl (nodes_of_slotsVisited slots) mem
  | .tuple _ slots true => exact nodes_cons rfl (nodes_of_elementsVisited slots none) mem
  | .call _ callee arguments _ =>
    exact nodes_cons rfl (nodes_append (nodes_of_listVisited arguments) callee.nodes_of_visited) mem
  | .callOptions _ callee _ options =>
    exact nodes_cons rfl (nodes_append callee.nodes_of_visited (nodes_of_listVisited options)) mem
  | .index _ base index =>
    exact nodes_cons rfl (nodes_append base.nodes_of_visited (nodes_of_optionVisited index)) mem
  | .slice _ base start stop =>
    refine nodes_cons rfl (nodes_append base.nodes_of_visited ?_) mem
    exact nodes_append (nodes_of_optionVisited start) (nodes_of_optionVisited stop)

theorem nodes_of_listVisited (es : List Expr) (mem : n ∈ listVisited a es) :
    n.nodes ⊆ listNodes es := by
  match es with
  | e :: rest => exact nodes_append e.nodes_of_visited (nodes_of_listVisited rest) mem

theorem nodes_of_slotsVisited (slots : List (Option Expr)) (mem : n ∈ slotsVisited a slots) :
    n.nodes ⊆ slotNodes slots := by
  match slots with
  | none :: rest => exact nodes_of_slotsVisited rest mem
  | some e :: rest => exact nodes_append e.nodes_of_visited (nodes_of_slotsVisited rest) mem

theorem nodes_of_elementsVisited (slots : List (Option Expr)) (common : Option Ty)
    (mem : n ∈ elementsVisited a common slots) : n.nodes ⊆ slotNodes slots := by
  match slots with
  | some e :: rest =>
    refine nodes_append e.nodes_of_visited (fun inside => ?_) mem
    cases recorded : a.expression? e.id with
    | none => rw [recorded] at inside; cases inside
    | some t =>
      cases found : commonAfter common t with
      | none => rw [recorded, Option.elim_some, found] at inside; cases inside
      | some next =>
        rw [recorded, Option.elim_some, found] at inside
        exact nodes_of_elementsVisited rest next inside

theorem nodes_of_optionVisited (e : Option Expr) (mem : n ∈ optionVisited a e) :
    n.nodes ⊆ optionNodes e := by
  match e with
  | some e => exact e.nodes_of_visited mem

end

end Nodes

/-- A visit with the visits inside it, which are not what an emit statement is about. -/
def Visit.all (a : Annotations) (visit : Visit) : List Visit :=
  visit :: (visit.expr.visited a).tail.map fun e => { expr := e, scope := visit.scope }

/-! ## Visits inside visits -/

namespace Ending

variable {E : Ending} {α β : Type}

/-- Whether an expression was visited without the mark. -/
def Ran (E : Ending) (e : Expr) : Prop := ∃ scope demand t, E.Ends scope (expression e demand) t

/-- Whether an expression was visited in a scope, without the mark if that is asked for. -/
def Visited (E : Ending) (calm : Prop) (scope : Scope) (e : Expr) : Prop :=
  ∃ demand σ t τ, (calm → σ.emitPending = false) ∧
    expression e demand (E.context scope) σ = .ok (t, τ) ∧ τ.Extends E.found

theorem Visited.ran {scope : Scope} (visited : E.Visited True scope e) : E.Ran e := by
  obtain ⟨demand, σ, t, τ, calm, run, later⟩ := visited
  exact ⟨scope, demand, t, σ, τ, calm trivial, run, later⟩

/-- A member access has the type that is found for the type of what stands in front of the dot. -/
theorem Visited.member {calm : Prop} {scope : Scope} {node : Node} {base : Expr} {name : String}
    (visited : E.Visited calm scope (.member node base name)) :
    ∃ baseType t arguments σ τ, E.found.expression? base.id = some baseType ∧
      E.found.expression? node.id = some t ∧ σ.Extends E.found ∧
      memberType baseType name arguments node.span (E.context scope) σ = .ok (t, τ) := by
  obtain ⟨demand, σ, t, τ, -, run, later⟩ := visited
  have recorded := Records.expression _ demand _ σ t τ run
  obtain ⟨baseType, υ, visit, run⟩ := bind_ok.mp run
  obtain ⟨given, φ, access, run⟩ := bind_ok.mp run
  cases annotate_value run
  have after : υ.Extends E.found :=
    ((Advances.memberType _ _ _ _ _ υ _ φ access).trans
      (Advances.annotate _ _ _ φ _ τ run)).toExtends.trans later
  have front := Records.expression base {} _ σ baseType υ visit
  exact ⟨baseType, t, demand.arguments, υ, φ, after.expression _ _ front,
    later.expression _ _ recorded, after, access⟩

/-- Whether all listed expressions have been visited when a check has come to its end. -/
def Runs (E : Ending) (calm : Prop) (es : List Expr) (m : Check α) : Prop :=
  Advances m ∧ ∀ scope σ a τ, (calm → σ.emitPending = false) → m (E.context scope) σ = .ok (a, τ) →
    τ.Extends E.found → ∀ e ∈ es, E.Visited calm scope e

namespace Runs

variable {calm : Prop} {m : Check α} {f : α → Check β} {es es' : List Expr}

theorem nothing (advances : Advances m) : E.Runs calm [] m :=
  ⟨advances, fun _ _ _ _ _ _ _ => forall_mem_nil _⟩

theorem bind (first : E.Runs calm es m) (next : ∀ a, E.Runs calm es' (f a)) :
    E.Runs calm (es ++ es') (m >>= f) := by
  refine ⟨first.1.bind fun a => (next a).1, fun scope σ b τ silent run later => ?_⟩
  obtain ⟨a, υ, one, two⟩ := bind_ok.mp run
  have still (isCalm : calm) := (first.1 _ _ _ _ one).emitPending (silent isCalm)
  exact forall_mem_append.mpr
    ⟨first.2 scope σ a υ silent one (((next a).1 _ _ _ _ two).toExtends.trans later),
    (next a).2 scope υ b τ still two later⟩

theorem after (first : Advances m) (next : ∀ a, E.Runs calm es (f a)) : E.Runs calm es (m >>= f) :=
  (nothing first).bind next

theorem before (first : E.Runs calm es m) (next : ∀ a, Advances (f a)) :
    E.Runs calm es (m >>= f) := by
  have both := first.bind fun a => nothing (next a)
  rwa [append_nil] at both

/-- The visit of an expression itself. -/
theorem self {demand : Demand} (runs : E.Runs calm es (expression e demand)) :
    E.Runs calm (e :: es) (expression e demand) := by
  refine ⟨runs.1, fun scope σ t τ silent run later => forall_mem_cons.mpr ⟨?_, ?_⟩⟩
  · exact ⟨demand, σ, t, τ, silent, run, later⟩
  · exact runs.2 scope σ t τ silent run later

/-- What comes after an expression may depend on its type, which is recorded. -/
theorem bindType {demand : Demand} {f : Ty → Check β} {rest : Ty → List Expr}
    (first : E.Runs calm es (expression e demand)) (next : ∀ t, E.Runs calm (rest t) (f t)) :
    E.Runs calm (es ++ (E.found.annotations.expression? e.id).elim [] rest)
      (expression e demand >>= f) := by
  refine ⟨first.1.bind fun t => (next t).1, fun scope σ b τ silent run later => ?_⟩
  obtain ⟨t, υ, one, two⟩ := bind_ok.mp run
  have after := ((next t).1 _ _ _ _ two).toExtends.trans later
  have recorded : E.found.annotations.expression? e.id = some t :=
    after.expression _ _ (Records.expression e demand _ σ t υ one)
  have still (isCalm : calm) := (first.1 _ _ _ _ one).emitPending (silent isCalm)
  rw [recorded]
  exact forall_mem_append.mpr
    ⟨first.2 scope σ t υ silent one after, (next t).2 scope υ b τ still two later⟩

end Runs

end Ending

namespace Check

variable (node : Node)

/-- What is checked of a call after it is known whether an emit statement is about it. -/
def callBody (node : Node) (callee : Expr) (arguments : List Expr) (names : List String)
    (emitted : Bool) : Check Ty := do
  let types ← expressions arguments
  let passed : Arguments := { types, names, spans := arguments.map Expr.span }
  let calleeType ← expression callee { arguments := some passed }
  annotate node.id (← callType calleeType passed emitted node.span)

theorem expression_call (callee : Expr) (arguments : List Expr) (names : List String)
    (demand : Demand) : expression (.call node callee arguments names) demand =
      (if names.isEmpty then pure () else requireNames node.id names.length arguments.length) >>=
        fun _ =>
        takeEmitPending >>= callBody node callee arguments names := by
  rw [expression]
  split <;> rfl

theorem Advances.callBody (callee : Expr) (arguments : List Expr) (names : List String)
    (emitted : Bool) : Advances (callBody node callee arguments names emitted) :=
  (expressions _).bind fun _ => (expression _ _).bind fun _ =>
    (Remarks.callType _ _ _ _).advances.thenAnnotate _

theorem Advances.callNames (names : List String) (arguments : List Expr) :
    Advances (if names.isEmpty then Pure.pure ()
      else requireNames node.id names.length arguments.length) := by
  split
  · exact pure _
  · exact (Remarks.requireNames _ _ _).advances

end Check

namespace Ending

variable {E : Ending} {calm : Prop}

open Check (Advances)

mutual

theorem runs_expression (e : Expr) (demand : Demand) :
    E.Runs calm (e.visited E.found.annotations) (expression e demand) := by
  match e with
  | .identifier .. | .elementaryType .. | .literal .. | .create .. =>
    exact .self (.nothing (Advances.expression _ _))
  | .unary node op _ operand =>
    refine .self ?_
    refine (runs_expression operand _).before fun t => ?_
    split
    · exact (Remarks.requireAssignable _ _).advances.bind fun _ =>
        (Remarks.unaryType _ _ _).advances.thenAnnotate _
    · exact (Remarks.unaryType _ _ _).advances.thenAnnotate _
  | .binary node op left right =>
    refine .self ?_
    exact (runs_expression left _).bind fun _ => (runs_expression right _).before fun _ =>
      (Remarks.binaryType _ _ _ _).advances.thenAnnotate _
  | .assignment node op left right =>
    refine .self ?_
    refine (runs_expression left _).bind fun _ =>
      .after (Remarks.requireAssignable _ _).advances fun _ => ?_
    exact (runs_expression right _).before fun _ =>
      (Advances.assignmentType _ _ _ _ _ _).thenAnnotate _
  | .conditional node condition yes no =>
    refine .self ?_
    refine (runs_expression condition _).bind fun _ =>
      .after (Remarks.requireConvertible _ _ _).advances fun _ => ?_
    exact (runs_expression yes _).bind fun _ => (runs_expression no _).before fun _ =>
      (Remarks.conditionalType _ _ _).advances.thenAnnotate _
  | .tuple node parts false =>
    refine .self ?_
    exact (runs_components _ _ parts).before fun _ => .annotate _ _
  | .tuple node parts true =>
    refine .self ?_
    exact (runs_elements parts none true).before fun _ =>
      (Remarks.inlineArrayType _ _ _).advances.thenAnnotate _
  | .call node callee arguments names =>
    refine .self ?_
    rw [expression_call]
    refine .after (Advances.callNames _ _ _) fun _ => .after .takeEmitPending fun emitted => ?_
    exact (runs_expressions arguments).bind fun _ => (runs_expression callee _).before fun _ =>
      (Remarks.callType _ _ _ _).advances.thenAnnotate _
  | .callOptions node callee names options =>
    refine .self ?_
    refine .after (Remarks.requireNames _ _ _).advances fun _ =>
      (runs_expression callee _).bind fun _ => ?_
    exact (runs_expressions options).before fun _ =>
      (Remarks.callOptionsType _ _ _).advances.thenAnnotate _
  | .await node handle =>
    refine .self ?_
    exact (runs_expression handle _).before fun _ => (Remarks.awaitType _ _).advances.thenAnnotate _
  | .member node base name =>
    refine .self ?_
    exact (runs_expression base _).before fun _ => (Advances.memberType _ _ _ _).thenAnnotate _
  | .index node base none =>
    rw [Expr.visited, optionVisited, append_nil]
    refine .self ?_
    refine (runs_expression base _).before fun t => ?_
    split
    · exact (Remarks.arrayTypeType _ _ _ _).advances.thenAnnotate _
    · split
      · exact (Advances.reject rfl _).thenAnnotate _
      · exact (Remarks.elementType _ _ _).advances.thenAnnotate _
  | .index node base (some index) =>
    refine .self ?_
    refine (runs_expression base _).bind fun t => (runs_expression index _).before fun t' => ?_
    split
    · refine (Advances.lengthOfIndex _ _).bind fun length => ?_
      split
      · exact .annotate _ _
      · exact (Remarks.arrayTypeType _ _ _ _).advances.thenAnnotate _
    · exact (Remarks.requireConvertible _ _ _).advances.bind fun _ =>
        (Remarks.elementType _ _ _).advances.thenAnnotate _
    · exact (Remarks.elementType _ _ _).advances.thenAnnotate _
  | .slice node base start stop =>
    refine .self ?_
    refine (runs_expression base _).bind fun _ => (runs_bound start).bind fun _ => ?_
    exact (runs_bound stop).before fun _ => (Remarks.sliceType _ _).advances.thenAnnotate _

theorem runs_expressions (es : List Expr) :
    E.Runs calm (listVisited E.found.annotations es) (expressions es) := by
  match es with
  | [] => exact .nothing (.pure _)
  | e :: rest =>
    exact (runs_expression e _).bind fun _ => (runs_expressions rest).before fun _ => .pure _

theorem runs_components (isTarget : Bool) (span : Span) (slots : List (Option Expr)) :
    E.Runs calm (slotsVisited E.found.annotations slots) (components isTarget span slots) := by
  match slots with
  | [] => exact .nothing (.pure _)
  | some e :: rest =>
    exact (runs_expression e _).bind fun _ => (runs_components isTarget span rest).before
      fun _ => .pure _
  | none :: rest =>
    rw [components, slotsVisited]
    have others (t : Option Ty) := (runs_components isTarget span rest).before fun slots =>
      Advances.pure (t :: slots)
    split
    · exact .after (.pure _) others
    · exact .after ((Advances.reject rfl _).map _) others

theorem runs_elements (slots : List (Option Expr)) (common : Option Ty) (valid : Bool) :
    E.Runs calm (elementsVisited E.found.annotations common slots)
      (elements slots common valid) := by
  match slots with
  | [] => exact .nothing (.pure _)
  | none :: rest =>
    exact .nothing (.pure _)
  | some e :: rest =>
    refine (runs_expression e _).bindType fun t => ?_
    unfold commonAfter
    split
    · exact runs_elements rest common false
    · cases Ty.joinElement common t with
      | none => exact .nothing (.pure _)
      | some joined => exact runs_elements rest (some joined) valid

theorem runs_bound (limit : Option Expr) :
    E.Runs calm (optionVisited E.found.annotations limit) (bound limit) := by
  match limit with
  | none => exact .nothing (.pure _)
  | some e => exact (runs_expression e _).before fun _ =>
    (Remarks.requireConvertible _ _ _).advances

end

/-! ## Visits of a unit -/

/-- What an emit statement is about takes the mark before anything inside it is visited. -/
theorem ran_of_emitted (passes : E.Passes) (made : visit.Made (E.context {}) E.found)
    (emitted : visit.emitted = true) :
    E.found.annotations.calleeKind? visit.expr = some .event ∧
      ∀ e ∈ (visit.expr.visited E.found.annotations).tail, E.Ran e := by
  obtain ⟨⟨σ, t, υ, pending, run, later⟩, announced⟩ := made
  have isEvent : E.found.annotations.calleeKind? visit.expr = some .event := by
    refine (announced emitted).resolve_right ?_
    rintro ⟨d, mem, isError⟩
    rw [passes.errors d mem] at isError
    cases isError
  refine ⟨isEvent, ?_⟩
  obtain ⟨expr, scope, isEmitted⟩ := visit
  cases expr with
  | call node callee arguments names =>
    rw [expression_call] at run
    obtain ⟨_, φ, -, run⟩ := bind_ok.mp run
    obtain ⟨answer, ψ, taken, run⟩ := bind_ok.mp run
    cases taken
    have inside : E.Runs True
        (listVisited E.found.annotations arguments ++ callee.visited E.found.annotations)
        (callBody node callee arguments names φ.emitPending) :=
      (runs_expressions arguments).bind fun _ => (runs_expression callee _).before fun _ =>
        (Remarks.callType _ _ _ _).advances.thenAnnotate _
    exact fun e mem => (inside.2 scope _ t υ (fun _ => rfl) run later e mem).ran
  | _ => cases isEvent

theorem ran_of_not_emitted (made : visit.Made (E.context {}) E.found)
    (calm : visit.emitted = false) : ∀ e ∈ visit.expr.visited E.found.annotations, E.Ran e := by
  obtain ⟨σ, t, υ, pending, run, later⟩ := made.run
  exact fun e mem =>
    ((runs_expression visit.expr {}).2 visit.scope σ t υ (fun _ => pending.trans calm)
      run later e mem).ran

/-- With the mark or without, what is inside a visit is visited in the same scope. -/
theorem visited_of_made (made : visit.Made (E.context {}) E.found) :
    ∀ e ∈ visit.expr.visited E.found.annotations, E.Visited False visit.scope e := by
  obtain ⟨σ, t, υ, -, run, later⟩ := made.run
  exact (runs_expression visit.expr {}).2 visit.scope σ t υ nofun run later

end Ending

/-! ## Nothing is left out without an invalid type -/

/-- Whether the check of an inline array gets to its last element. -/
def Annotations.Uncut (a : Annotations) : Expr → Prop
  | .tuple _ components true => elementsVisited a none components = slotsVisited a components
  | _ => True

section Uncut

variable {a : Annotations}

mutual

theorem Expr.visited_eq_nodes (e : Expr) (uncut : ∀ n ∈ e.visited a, a.Uncut n) :
    e.visited a = e.nodes := by
  match e with
  | .identifier .. | .elementaryType .. | .literal .. | .create .. => rfl
  | .unary _ _ _ part | .await _ part | .member _ part _ =>
    rw [Expr.visited, forall_mem_cons] at uncut
    rw [Expr.visited, Expr.nodes, part.visited_eq_nodes uncut.2]
  | .binary _ _ left right | .assignment _ _ left right =>
    rw [Expr.visited, forall_mem_cons, forall_mem_append] at uncut
    rw [Expr.visited, Expr.nodes, left.visited_eq_nodes uncut.2.1, right.visited_eq_nodes uncut.2.2]
  | .conditional _ condition yes no =>
    rw [Expr.visited, forall_mem_cons, forall_mem_append, forall_mem_append] at uncut
    rw [Expr.visited, Expr.nodes, condition.visited_eq_nodes uncut.2.1,
      yes.visited_eq_nodes uncut.2.2.1, no.visited_eq_nodes uncut.2.2.2]
  | .tuple _ components false =>
    rw [Expr.visited, forall_mem_cons] at uncut
    rw [Expr.visited, Expr.nodes, slotsVisited_eq components uncut.2]
  | .tuple _ components true =>
    rw [Expr.visited, forall_mem_cons] at uncut
    have whole : elementsVisited a none components = slotsVisited a components := uncut.1
    rw [whole] at uncut
    rw [Expr.visited, Expr.nodes, whole, slotsVisited_eq components uncut.2]
  | .call _ callee arguments _ =>
    rw [Expr.visited, forall_mem_cons, forall_mem_append] at uncut
    rw [Expr.visited, Expr.nodes, listVisited_eq arguments uncut.2.1,
      callee.visited_eq_nodes uncut.2.2]
  | .callOptions _ callee _ options =>
    rw [Expr.visited, forall_mem_cons, forall_mem_append] at uncut
    rw [Expr.visited, Expr.nodes, callee.visited_eq_nodes uncut.2.1,
      listVisited_eq options uncut.2.2]
  | .index _ base index =>
    rw [Expr.visited, forall_mem_cons, forall_mem_append] at uncut
    rw [Expr.visited, Expr.nodes, base.visited_eq_nodes uncut.2.1, optionVisited_eq index uncut.2.2]
  | .slice _ base start stop =>
    rw [Expr.visited, forall_mem_cons, forall_mem_append, forall_mem_append] at uncut
    rw [Expr.visited, Expr.nodes, base.visited_eq_nodes uncut.2.1,
      optionVisited_eq start uncut.2.2.1, optionVisited_eq stop uncut.2.2.2]

theorem listVisited_eq (es : List Expr) (uncut : ∀ n ∈ listVisited a es, a.Uncut n) :
    listVisited a es = listNodes es := by
  match es with
  | [] => rfl
  | e :: rest =>
    rw [listVisited, forall_mem_append] at uncut
    rw [listVisited, listNodes, e.visited_eq_nodes uncut.1, listVisited_eq rest uncut.2]

theorem slotsVisited_eq (slots : List (Option Expr))
    (uncut : ∀ n ∈ slotsVisited a slots, a.Uncut n) : slotsVisited a slots = slotNodes slots := by
  match slots with
  | [] => rfl
  | none :: rest => exact slotsVisited_eq rest uncut
  | some e :: rest =>
    rw [slotsVisited, forall_mem_append] at uncut
    rw [slotsVisited, slotNodes, e.visited_eq_nodes uncut.1, slotsVisited_eq rest uncut.2]

theorem optionVisited_eq (e : Option Expr) (uncut : ∀ n ∈ optionVisited a e, a.Uncut n) :
    optionVisited a e = optionNodes e := by
  match e with
  | none => rfl
  | some e => exact e.visited_eq_nodes uncut

end

end Uncut

namespace Ending

variable {E : Ending} {scope : Scope}

/-- Whether no invalid type is recorded for an expression. -/
def Valid (E : Ending) : Prop := ∀ id t, E.found.expression? id = some t → t.isInvalid = false

/-- An inline array whose elements are all valid is visited as a whole. -/
theorem elements_uncut {slots : List (Option Expr)} {common : Option Ty} {isValid : Bool}
    {element : Ty}
    (ends : E.Ends scope (elements slots common isValid) (some (some element, true))) :
    isValid = true ∧
    elementsVisited E.found.annotations common slots = slotsVisited E.found.annotations slots := by
  induction slots generalizing common isValid with
  | nil =>
    cases ends.pure
    exact ⟨rfl, rfl⟩
  | cons slot rest ih =>
    cases slot with
    | none =>
      cases ends.pure
    | some e =>
      obtain ⟨t, visit, ends⟩ := ends.bind (.expression _ _) fun t => by
        split
        · exact .elements _ _ _
        · split
          · exact .pure _
          · exact .elements _ _ _
      have recorded : E.found.annotations.expression? e.id = some t := visit.recorded
      rw [elementsVisited, slotsVisited, recorded, Option.elim_some, commonAfter]
      cases isInvalid : t.isInvalid with
      | true =>
        rw [isInvalid] at ends
        cases (ih ends).1
      | false =>
        rw [isInvalid] at ends
        cases joined : Ty.joinElement common t with
        | none =>
          rw [joined] at ends
          cases ends.pure
        | some next =>
          rw [joined] at ends
          exact (ih ends).imp_right (congrArg _)

/-- An inline array that is visited and is not invalid is visited as a whole. -/
theorem Ran.uncut (passes : E.Passes) (ran : E.Ran e)
    (valid : E.found.expression? e.id ≠ some .invalid) : E.found.annotations.Uncut e := by
  obtain ⟨scope, demand, t, ends⟩ := ran
  unfold Annotations.Uncut
  split
  · next node components =>
    have recorded := ends.recorded
    obtain ⟨found, visited, ends⟩ := ends.bind (.elements _ _ _) fun _ =>
      (Remarks.inlineArrayType _ _ _).advances.thenAnnotate _
    have typed := ends.thenAnnotate
    unfold inlineArrayType at typed
    split at typed
    · exact absurd typed (Ends.not_reject passes)
    · exact (elements_uncut visited).2
    · cases typed.pure
      exact absurd recorded valid
    · exact absurd typed (Ends.not_reject passes)
  · trivial

/-- What is inside a visit has been visited. Only a call may have the mark of an emit statement. -/
theorem ran_or_call (passes : E.Passes) (made : visit.Made (E.context {}) E.found)
    (inside : e ∈ visit.expr.visited E.found.annotations) :
    E.Ran e ∨ ∃ node callee arguments names, e = .call node callee arguments names := by
  cases emitted : visit.emitted with
  | false => exact .inl (ran_of_not_emitted made emitted e inside)
  | true =>
    obtain ⟨isEvent, ran⟩ := ran_of_emitted passes made emitted
    obtain ⟨expr, scope, isEmitted⟩ := visit
    cases expr with
    | call node callee arguments names =>
      rcases mem_cons.mp inside with rfl | isInside
      · exact .inr ⟨node, callee, arguments, names, rfl⟩
      · exact .inl (ran e isInside)
    | _ => cases isEvent

/-- Where nothing that is visited is invalid, everything inside a visit is visited. -/
theorem Reached.visited_eq_nodes (reached : E.Reached) (passes : E.Passes)
    (mem : visit ∈ E.unit.visits) (valid : ∀ e ∈ visit.expr.visited E.found.annotations,
      E.found.expression? e.id ≠ some .invalid) :
    visit.expr.visited E.found.annotations = visit.expr.nodes := by
  refine visit.expr.visited_eq_nodes fun n inside => ?_
  rcases ran_or_call passes (reached.made passes visit mem) inside with ran | ⟨_, _, _, _, rfl⟩
  · exact ran.uncut passes (valid n inside)
  · trivial

/-- In a check that passes without an invalid type every expression has been visited. -/
theorem Reached.ran (reached : E.Reached) (passes : E.Passes) (valid : E.Valid)
    (mem : e ∈ E.unit.inventory.nodes) :
    E.Ran e ∨ ∃ node callee arguments names, e = .call node callee arguments names := by
  rw [← E.unit.visitNodes_visits] at mem
  obtain ⟨visit, inVisits, inside⟩ := mem_flatMap.mp mem
  rw [← reached.visited_eq_nodes passes inVisits fun n _ recorded =>
    nomatch valid _ _ recorded] at inside
  exact ran_or_call passes (reached.made passes visit inVisits) inside

end Ending

end ContractTyping
