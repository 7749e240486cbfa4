import ContractTyping.Proofs.Parentheses.Contract

/-!
# Source units with parentheses

Parentheses around the callee of a call or around the left side of an assignment change nothing
about a check but for the type of the parentheses themselves, unless they can be noticed
(`parentheses_transparent`). They can be noticed around a name that stands for several functions
(`parentheses_may_be_noticed`).
-/

namespace ContractTyping

open List
variable {e : Expr}

/-! ## The expressions of a source unit -/

mutual

/-- An expression and the expressions inside it. -/
def Expr.inside : Expr → List Expr
  | e@(.identifier ..) | e@(.elementaryType ..) | e@(.literal ..) => [e]
  | e@(.unary _ _ _ part) | e@(.await _ part) | e@(.member _ part _) => e :: part.inside
  | e@(.binary _ _ left right) | e@(.assignment _ _ left right) =>
    e :: (left.inside ++ right.inside)
  | e@(.conditional _ condition yes no) => e :: (condition.inside ++ (yes.inside ++ no.inside))
  | e@(.tuple _ components _) => e :: slotsInside components
  | e@(.call _ callee arguments _) => e :: (callee.inside ++ listInside arguments)
  | e@(.callOptions _ callee _ options) => e :: (callee.inside ++ listInside options)
  | e@(.create _ created) => e :: created.inside
  | e@(.index _ base index) => e :: (base.inside ++ optionInside index)
  | e@(.slice _ base start stop) => e :: (base.inside ++ (optionInside start ++ optionInside stop))

def listInside : List Expr → List Expr
  | [] => []
  | e :: rest => e.inside ++ listInside rest

def slotsInside : List (Option Expr) → List Expr
  | [] => []
  | none :: rest => slotsInside rest
  | some e :: rest => e.inside ++ slotsInside rest

def optionInside : Option Expr → List Expr
  | none => []
  | some e => e.inside

/-- The expressions in the lengths of arrays. -/
def TypeName.inside : TypeName → List Expr
  | .elementary .. | .userDefined .. => []
  | .mapping _ key value => key.inside ++ value.inside
  | .array _ base length => base.inside ++ optionInside length
  | .function _ parameters returns _ _ => varsInside parameters ++ varsInside returns

/-- The expressions in the type and in the value of a variable. -/
def Variable.inside : Variable → List Expr
  | .mk _ none value => optionInside value
  | .mk _ (some typeName) value => typeName.inside ++ optionInside value

def varsInside : List Variable → List Expr
  | [] => []
  | v :: rest => v.inside ++ varsInside rest

end

/-- All expressions in what an inventory lists. -/
def Inventory.expressions (I : Inventory) : List Expr :=
  I.nodes.flatMap Expr.inside ++
    ((I.vars ++ I.fields).flatMap Variable.inside ++ I.typeNames.flatMap TypeName.inside)

/-- Every expression in a source unit. -/
def SourceUnit.expressions (unit : SourceUnit) : List Expr := unit.inventory.expressions

theorem Expr.self_mem_inside (e : Expr) : e ∈ e.inside := by
  cases e <;> simp [Expr.inside]

/-- What a check visits is one of them. -/
theorem SourceUnit.mem_expressions {unit : SourceUnit} (mem : e ∈ unit.inventory.nodes) :
    e ∈ unit.expressions :=
  mem_append_left _ (mem_flatMap.mpr ⟨e, mem, e.self_mem_inside⟩)

/-! ## The parentheses in the inventory -/

namespace Wrapping

variable {W : Wrapping}

/-- Whether the parentheses are in one list of expressions, if what gets them is in another one. -/
def Carries (W : Wrapping) (nodes nodes' : List Expr) : Prop :=
  ∀ e ∈ nodes, W.selects e = true → e.enclosable?.isSome → W.fresh.id ∈ nodes'.map Expr.id

namespace Carries

variable {nodes nodes' more more' : List Expr} {e e' part : Expr}

theorem nil : W.Carries [] nodes' := nofun

theorem append (first : W.Carries nodes nodes') (second : W.Carries more more') :
    W.Carries (nodes ++ more) (nodes' ++ more') := by
  intro e mem selected encloses
  rw [map_append]
  rcases mem_append.mp mem with inFirst | inSecond
  · exact mem_append_left _ (first e inFirst selected encloses)
  · exact mem_append_right _ (second e inSecond selected encloses)

theorem cons (first : W.selects e = true → e.enclosable?.isSome → W.fresh.id ∈ nodes'.map Expr.id)
    (rest : W.Carries nodes nodes') : W.Carries (e :: nodes) (e' :: nodes') := by
  intro n mem selected encloses
  rcases mem_cons.mp mem with rfl | inRest
  · exact mem_cons_of_mem _ (first selected encloses)
  · exact mem_cons_of_mem _ (rest n inRest selected encloses)

theorem flatMap {α : Type} {pieces : List α} {f : α → List Expr} {g : α → α}
    (each : ∀ piece ∈ pieces, W.Carries (f piece) (f (g piece))) :
    W.Carries (pieces.flatMap f) ((pieces.map g).flatMap f) := by
  induction pieces with
  | nil => exact nil
  | cons piece rest ih =>
    obtain ⟨first, others⟩ := forall_mem_cons.mp each
    exact first.append (ih others)

theorem enclose (carries : W.Carries nodes part.nodes) :
    W.Carries nodes (W.enclose e part).nodes := by
  unfold Wrapping.enclose
  split
  · intro n mem selected encloses
    exact mem_cons_self
  · exact carries

end Carries

theorem fresh_mem_enclose (selected : W.selects e = true) (part : Expr) :
    W.fresh.id ∈ (W.enclose e part).nodes.map Expr.id := by
  rw [Wrapping.enclose, if_pos selected]
  exact mem_cons_self

mutual

theorem carries_expr (e : Expr) : W.Carries e.nodes (W.expr e).nodes := by
  match e with
  | .identifier .. | .elementaryType .. | .literal .. | .create .. => exact .cons nofun .nil
  | .unary _ _ _ part | .await _ part | .member _ part _ => exact .cons nofun (carries_expr part)
  | .binary _ _ left right => exact .cons nofun ((carries_expr left).append (carries_expr right))
  | .assignment node op left right =>
    refine .cons (fun selected _ => ?_) ((carries_expr left).enclose.append (carries_expr right))
    rw [map_append]
    exact mem_append_left _ (fresh_mem_enclose selected _)
  | .conditional _ condition yes no =>
    exact .cons nofun
      ((carries_expr condition).append ((carries_expr yes).append (carries_expr no)))
  | .tuple _ components _ => exact .cons nofun (carries_slots components)
  | .call node callee arguments names =>
    refine .cons (fun selected _ => ?_)
      ((carries_exprs arguments).append (carries_expr callee).enclose)
    rw [map_append]
    exact mem_append_right _ (fresh_mem_enclose selected _)
  | .callOptions _ callee _ options =>
    exact .cons nofun ((carries_expr callee).append (carries_exprs options))
  | .index _ base index => exact .cons nofun ((carries_expr base).append (carries_optional index))
  | .slice _ base start stop =>
    exact .cons nofun
      ((carries_expr base).append ((carries_optional start).append (carries_optional stop)))

theorem carries_exprs (es : List Expr) : W.Carries (listNodes es) (listNodes (W.exprs es)) := by
  match es with
  | [] => exact .nil
  | e :: rest => exact (carries_expr e).append (carries_exprs rest)

theorem carries_slots (components : List (Option Expr)) :
    W.Carries (slotNodes components) (slotNodes (W.slots components)) := by
  match components with
  | [] => exact .nil
  | none :: rest => exact carries_slots rest
  | some e :: rest => exact (carries_expr e).append (carries_slots rest)

theorem carries_optional (e : Option Expr) :
    W.Carries (optionNodes e) (optionNodes (W.optional e)) := by
  match e with
  | none => exact .nil
  | some e => exact carries_expr e

end

mutual

theorem carries_statement (s : Statement) :
    W.Carries s.inventory.nodes (W.statement s).inventory.nodes := by
  match s with
  | .block _ body => exact carries_block body
  | .placeholder _ | .continueLoop _ | .breakLoop _ => exact .nil
  | .ifElse _ condition yes no =>
    exact (carries_expr condition).append
      ((carries_statement yes).append (carries_optionalStatement no))
  | .whileLoop _ condition body _ => exact (carries_expr condition).append (carries_statement body)
  | .forLoop _ initial condition step body =>
    refine (carries_optionalStatement initial).append ((carries_optional condition).append ?_)
    exact (carries_optional step).append (carries_statement body)
  | .returnValue _ value => exact carries_optional value
  | .emit _ e | .expression _ e => exact carries_expr e
  | .declare _ vars initial => exact Carries.nil.append (carries_optional initial)
  | .tryCatch _ call clauses => exact (carries_expr call).append (carries_clauses clauses)

theorem carries_block (b : Block) : W.Carries b.inventory.nodes (W.block b).inventory.nodes := by
  match b with
  | .mk _ body _ => exact carries_statements body

theorem carries_statements (body : List Statement) :
    W.Carries (statementsInventory body).nodes (statementsInventory (W.statements body)).nodes := by
  match body with
  | [] => exact .nil
  | s :: rest => exact (carries_statement s).append (carries_statements rest)

theorem carries_optionalStatement (s : Option Statement) :
    W.Carries (optionalInventory s).nodes (optionalInventory (W.optionalStatement s)).nodes := by
  match s with
  | none => exact .nil
  | some s => exact carries_statement s

theorem carries_clauses (clauses : List CatchClause) :
    W.Carries (clausesInventory clauses).nodes
      (clausesInventory (W.catchClauses clauses)).nodes := by
  match clauses with
  | [] => exact .nil
  | .mk _ _ parameters body :: rest =>
    exact Carries.nil.append ((carries_block body).append (carries_clauses rest))

end

theorem carries_arguments (arguments : Option (List Expr)) :
    W.Carries (argumentNodes arguments) (argumentNodes (arguments.map W.exprs)) := by
  cases arguments with
  | none => exact .nil
  | some es => exact carries_exprs es

theorem carries_body (body : Option Block) :
    W.Carries (bodyInventory body).nodes (bodyInventory (body.map W.block)).nodes := by
  cases body with
  | none => exact .nil
  | some body => exact carries_block body

theorem carries_function (f : Function) :
    W.Carries f.inventory.nodes (W.function f).inventory.nodes := by
  refine Carries.nil.append
    (Carries.nil.append (.append (.flatMap fun m _ => ?_) (carries_body f.body)))
  exact carries_arguments m.arguments

theorem carries_contractPart (part : ContractPart) :
    W.Carries part.inventory.nodes (W.contractPart part).inventory.nodes := by
  cases part with
  | function f => exact carries_function f
  | stateVariable v =>
    show W.Carries (optionNodes v.value) (optionNodes (W.var v).value)
    rw [var_value, ← optional_eq]
    exact carries_optional v.value
  | modifier m => exact Carries.nil.append (carries_body m.body)
  | event _ | message _ | struct _ | usingFor _ => exact .nil

theorem carries_part (part : UnitPart) :
    W.Carries part.inventory.nodes (W.part part).inventory.nodes := by
  cases part with
  | contract c =>
    refine .append (.flatMap fun specifier _ => carries_arguments specifier.arguments) ?_
    exact Carries.nil.append (.flatMap fun part _ => carries_contractPart part)
  | function f => exact carries_function f
  | struct _ | usingFor _ => exact .nil

theorem carries_unit (unit : SourceUnit) :
    W.Carries unit.inventory.nodes (W.unit unit).inventory.nodes :=
  .flatMap fun part _ => carries_part part

end Wrapping

/-! ## The check of a source unit -/

/-- Whether two reports say the same, apart from the type of one expression. -/
structure Report.SameBut (report : Report) (id : NodeId) (report' : Report) : Prop where
  passed : report'.passed = report.passed
  diagnostics : report'.diagnostics = report.diagnostics
  vars : report'.annotations.vars = report.annotations.vars
  expression : ∀ other, other ≠ id →
    report'.annotations.expression? other = report.annotations.expression? other

/-- The check with parentheses finds what the check without them finds. -/
theorem Enclosure.mirrored (E : Enclosure) (reached : E.Reached) :
    ∃ found', (Ending.mk (E.wrapping.unit E.unit) E.settings found').Reached ∧
      E.Agree E.found found' ∧ E.Closes {} E.found found' := by
  have mirrors : E.Mirrors (E.unit.parts.forM Check.unitPart)
      ((E.unit.parts.map E.wrapping.part).forM Check.unitPart) :=
    .forM fun part mem => .unitPart (Sees.piece (Subset.refl _) mem)
  exact mirrors.run {} {} ⟨fun _ _ => rfl, rfl, rfl, rfl, rfl⟩ {} () E.found reached (.refl _) nofun

/-- No invalid type comes with the parentheses. -/
theorem Enclosure.valid {E : Enclosure} {unit : SourceUnit} {found' : Findings}
    (agree : E.Agree E.found found') (closes : E.Closes {} E.found found') (valid : E.Valid) :
    (Ending.mk unit E.settings found').Valid := by
  intro id t recorded
  by_cases isFresh : id = E.wrapping.fresh.id
  · subst isFresh
    obtain ⟨-, -, -, part, -, -, inside⟩ := (closes t recorded).resolve_left nofun
    exact valid part.id t inside
  · exact valid id t ((agree.expression id isFresh).symm.trans recorded)

/-- In a check that passes without an invalid type, every expression has got a type. -/
theorem Ending.Reached.typed {E : Ending} (reached : E.Reached) (passes : E.Passes)
    (valid : E.Valid) (mem : e ∈ E.unit.inventory.nodes) : (E.found.expression? e.id).isSome := by
  have covers := reached.yields.2 passes
  have settled := covers.settled reached passes fun n _ _ recorded =>
    Bool.noConfusion (valid n.id _ recorded)
  obtain ⟨t, recorded, -⟩ := covers.nodes settled e mem
  exact Option.isSome_of_mem recorded

section Transparent

variable {unit : SourceUnit} {settings : Settings} {report : Report}

/-- Parentheses around the callee of a call or around the left side of an assignment change nothing
in the report, unless they are around one of the few parts where they can be noticed. The
parentheses themselves get the type of what stands in them. They do get one in a check that passes
without an invalid type. -/
theorem parentheses_transparent (W : Wrapping) (checked : check unit settings = .ok report)
    (new : W.fresh.id ∉ unit.inventory.nodeIds)
    (unseen : ∀ e ∈ unit.expressions, W.selects e = true → ¬ Reveals unit settings report e) :
    ∃ report', check (W.unit unit) settings = .ok report' ∧ report.SameBut W.fresh.id report' ∧
      (∀ t, report'.annotations.expression? W.fresh.id = some t →
        ∃ e ∈ unit.expressions, W.selects e = true ∧ ∃ part, e.enclosable? = some part ∧
          report.annotations.expression? part.id = some t) ∧
      (report.passed = true → ¬ report.annotations.Poisoned →
        ∀ e ∈ unit.inventory.nodes, W.selects e = true → e.enclosable?.isSome →
          (report'.annotations.expression? W.fresh.id).isSome) := by
  obtain ⟨found, run, rfl⟩ := check_ok.mp checked
  have reached : (Ending.mk unit settings found).Reached := run
  have unused : found.expression? W.fresh.id = none := by
    cases typed : found.expression? W.fresh.id with
    | none => rfl
    | some t =>
      obtain ⟨e, mem, same⟩ := reached.recorded.1 typed
      exact absurd (List.mem_map.mpr ⟨e, mem, same⟩) new
  let E : Enclosure :=
    { unit, settings, found, unused
      wrapping := W
      unseen := fun e mem => unseen e (SourceUnit.mem_expressions mem) }
  obtain ⟨found', reached', agree, closes⟩ := E.mirrored reached
  have closed (t : Ty) (typed : found'.expression? W.fresh.id = some t) :
      ∃ e ∈ unit.expressions, W.selects e = true ∧ ∃ part, e.enclosable? = some part ∧
        found.expression? part.id = some t := by
    obtain ⟨-, e, mem, part, selected, isPart, recorded⟩ := (closes t typed).resolve_left nofun
    exact ⟨e, SourceUnit.mem_expressions mem, selected, part, isPart, recorded⟩
  refine ⟨_, check_ok.mpr ⟨found', reached', rfl⟩,
    ⟨?_, agree.diagnostics, agree.vars, agree.expression⟩, closed, ?_⟩
  · exact congrArg (fun diagnostics => !diagnostics.any Diagnostic.isError) agree.diagnostics
  intro passed pure e mem selected encloses
  have valid : E.Valid := fun id t recorded => Bool.eq_false_iff.mpr fun isInvalid =>
    pure (.inl ⟨id, t, recorded, isInvalid⟩)
  have passes := reached'.passes (agree.diagnostics ▸ Report.no_errors passed)
  obtain ⟨n, inNodes, isFresh⟩ := List.mem_map.mp (W.carries_unit unit e mem selected encloses)
  exact isFresh ▸ reached'.typed passes (E.valid agree closes valid) inNodes

end Transparent

/-- Parentheses around a part of the expression of a given identity. -/
def parenthesesAt (site : NodeId) (fresh : NodeId) : Wrapping where
  site := site
  fresh := ⟨fresh, .unknown⟩
  selects e := e.id == site
  selects_site _ := eq_of_beq

/-- The call `g()`. -/
def plainCall : Expr :=
  .call ⟨⟨20⟩, .unknown⟩ (.identifier ⟨⟨22⟩, .unknown⟩ "g" (some ⟨11⟩) []) [] []

/-- The call `f(true)`, where `f` stands for two functions. -/
def overloadedCall : Expr :=
  .call ⟨⟨20⟩, .unknown⟩ (.identifier ⟨⟨22⟩, .unknown⟩ "f" none [⟨3⟩, ⟨7⟩])
    [.literal ⟨⟨23⟩, .unknown⟩ .bool "true" none] []

theorem Wrapping.forall_selected {W : Wrapping} {es : List Expr} {P : Expr → Prop}
    (only : es.filter W.selects = [e]) (holds : P e) : ∀ n ∈ es, W.selects n = true → P n := by
  intro n mem selected
  have found : n ∈ es.filter W.selects := mem_filter.mpr ⟨mem, selected⟩
  rw [only] at found
  exact mem_singleton.mp found ▸ holds

theorem parentheses_transparent_name :
    (∃ report report', check (flagUnit ⟨8⟩ ⟨3⟩) {} = .ok report ∧
      check ((parenthesesAt ⟨7⟩ ⟨21⟩).unit (flagUnit ⟨8⟩ ⟨3⟩)) {} = .ok report' ∧
      report.SameBut ⟨21⟩ report' ∧ (report'.annotations.expression? ⟨21⟩).isSome) ∧
    ∃ report report', check (overloadUnit plainCall) {} = .ok report ∧
      check ((parenthesesAt ⟨20⟩ ⟨21⟩).unit (overloadUnit plainCall)) {} = .ok report' ∧
      report.SameBut ⟨21⟩ report' ∧ (report'.annotations.expression? ⟨21⟩).isSome := by
  constructor
  · obtain ⟨report', checked', same, -, typed⟩ :=
      @parentheses_transparent (flagUnit ⟨8⟩ ⟨3⟩) {} _ (parenthesesAt ⟨7⟩ ⟨21⟩) rfl (by decide)
        (Wrapping.forall_selected rfl (by
          rintro (⟨⟨_, _, _, isTuple⟩, -⟩ | ⟨-, _, noIndex, -⟩)
          · cases isTuple
          · cases noIndex))
    exact ⟨_, report', rfl, checked', same,
      typed rfl (Annotations.not_poisoned (by decide) (by decide)) _ (.head _) rfl rfl⟩
  · obtain ⟨report', checked', same, -, typed⟩ :=
      @parentheses_transparent (overloadUnit plainCall) {} _ (parenthesesAt ⟨20⟩ ⟨21⟩)
        rfl (by decide) (Wrapping.forall_selected rfl (by
          rintro (⟨_, _, _, _, -, isFunction⟩ | ⟨⟨_, _, _, _, isOptions⟩, -⟩)
          · cases isFunction
          · cases isOptions))
    exact ⟨_, report', rfl, checked', same,
      typed rfl (Annotations.not_poisoned (by decide) (by decide)) _ (.head _) rfl rfl⟩

/-- Parentheses around an overloaded name can be noticed: the call gets another type. -/
theorem parentheses_may_be_noticed :
    ¬ ∀ (W : Wrapping) (unit : SourceUnit) (settings : Settings) (report : Report),
      check unit settings = .ok report → W.fresh.id ∉ unit.inventory.nodeIds →
        ∃ report', check (W.unit unit) settings = .ok report' ∧
          report.SameBut W.fresh.id report' := by
  intro transparent
  obtain ⟨report', checked', same⟩ :=
    transparent (parenthesesAt ⟨20⟩ ⟨21⟩) (overloadUnit overloadedCall) {} _ rfl (by decide)
  cases checked'
  cases same.expression ⟨20⟩ (by decide)

end ContractTyping
