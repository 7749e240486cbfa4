import ContractTyping.Proofs.Effect.Basic
import ContractTyping.Proofs.Exact.Limit

/-!
# Evaluation and folding agree

An expression of number literals is computed in two places: evaluation gives it a value as a
constant, and checking it folds the value into its type. The two have different bodies, tests and
ways to fail. They find the same number, and where evaluation finds none, checking reports why.

* `Expr.IsNumeric` are the expressions of number literals.
* `Expr.Folds` is what both find about such an expression.
* `evaluate_iff_folded`: an expression evaluates to a number if and only if its type is that number.
-/

namespace ContractTyping

open TypeTable Option

open Check List ContractTyping.Expr Findings
variable {σ : Findings} {op : BinaryOp} {δ : Growth}

/-- Expressions of number literals, parentheses, minus signs and operators on numbers. -/
inductive Expr.IsNumeric : Expr → Prop
  | literal (node : Node) (text : String) (unit : Option Denomination) :
    IsNumeric (.literal node .number text unit)
  | parentheses (node : Node) {inner : Expr} :
      inner.IsNumeric → IsNumeric (.tuple node [some inner] false)
  | negation (node : Node) (isPrefix : Bool) {operand : Expr} :
    operand.IsNumeric → IsNumeric (.unary node .negate isPrefix operand)
  | operation (node : Node) {op : BinaryOp} {left right : Expr} :
    op ∈ [BinaryOp.add, .sub, .mul, .div, .mod, .exp, .shl, .shr] →
    left.IsNumeric → right.IsNumeric → IsNumeric (.binary node op left right)

/-! ## Types of folded numbers -/

/-- The type found for a value, with what is reported: a number is its own type, and nothing is
reported about it; without a number, there is an error. -/
inductive Folded : Option Fraction → Ty → List Diagnostic → Prop
  | number {x : Fraction} (admissible : x.Admissible) (width : Option Nat) :
    Folded (some x) (.number x width) []
  | invalid {reported : List Diagnostic} {d : Diagnostic} (mem : d ∈ reported)
      (error : d.isError = true) :
    Folded none .invalid reported

/-- A literal has a type if and only if it has a value. -/
theorem literalType_number (text : String) (unit : Option Denomination) :
    (∃ x width, literalValue? text unit = some x ∧
      literalType .number text unit = .ok (.number x width)) ∨
      literalValue? text unit = none ∧ ∃ fault, literalType .number text unit = .error fault := by
  unfold literalType numberLiteralType literalValue?
  cases parsed : NumberLiteral.parse text with
  | error refusal => exact .inr ⟨rfl, _, rfl⟩
  | ok x =>
    have admissible := NumberLiteral.admissible_parse parsed
    cases unit with
    | none =>
      refine .inl ⟨x, NumberLiteral.byteWidth? text, rfl, ?_⟩
      simp [bind, Except.bind, Except.mapError, pure, Except.pure, admissible.within]
    | some unit =>
      cases scaled : x.mul (.ofNatural (.ofWord unit.multiplier)) with
      | none =>
        refine .inr ⟨by simp [Except.toOption, scaled], .tooLarge, ?_⟩
        simp [bind, Except.bind, Except.mapError, scaled, throw, throwThe, MonadExceptOf.throw]
      | some y =>
        have within :=
          ((Fraction.mul_exactly admissible.lowest unit.lowestTerms_multiplier).admissible
            scaled).within
        refine .inl ⟨y, none, by simp [Except.toOption, scaled], ?_⟩
        simp [bind, Except.bind, Except.mapError, pure, Except.pure, scaled, within]

variable {c : Context}

namespace Check

variable {t : Ty} {value : Option Fraction} {reported : List Diagnostic}

theorem annotate_grow {id : NodeId} (untyped : σ.expression? id = none) (t : Ty) :
    annotate id t c σ = .ok (t, σ.grow { expressions := [(id, t)] }) := by
  rw [annotate_run, if_neg (by simp [untyped])]
  simp [grow, insertAll]

theorem reject_grow (σ : Findings) (issue : Issue) (span : Span) :
    reject issue span c σ = .ok (.invalid, σ.grow { diagnostics := [⟨issue, span, .error⟩] }) := by
  show Except.ok (Ty.invalid, _) = _
  simp [grow, insertAll]

/-- A minus sign changes the number in a type, and reports nothing of its own. -/
theorem unaryType_folded (folded : Folded value t reported) (span : Span) :
    ∃ result, (∀ σ, unaryType .negate t span c σ = .ok (result, σ)) ∧
      Folded (value.map Fraction.neg) result reported := by
  cases folded with
  | number admissible width => exact ⟨_, fun σ => rfl, .number admissible.neg none⟩
  | invalid mem error => exact ⟨_, fun σ => rfl, .invalid mem error⟩

/-- An operator that has a result is applied to the numbers in the types. -/
theorem binaryResult?_number (constant : op.isConstantOp = true) {x y : Fraction}
    (left : x.Admissible) (right : y.Admissible) (width width' : Option Nat) :
    Ty.binaryResult? op (.number x width) (.number y width') = (op.fold? x y).map
      (.number · none) := by
  have total : op.isComparison = false := by cases op <;> first | rfl | contradiction
  have kept : (op.fold? x y).filter (!·.exceedsLimit) = op.fold? x y := by
    cases folded : op.fold? x y with
    | none => rfl
    | some r =>
      have admissible := BinaryOp.admissible_fold? constant left right folded
      simp [Option.filter, admissible.within]
  rw [Ty.binaryResult?, Ty.foldNumbers, total, kept]
  rfl

/-- An operator is applied to the numbers in the types of its operands. If it has no result, it is
reported; if an operand has no number, that has been reported before. -/
theorem binaryType_folded (constant : op.isConstantOp = true) {value' : Option Fraction} {t' : Ty}
    {reported' : List Diagnostic} (left : Folded value t reported)
    (right : Folded value' t' reported') (span : Span) :
    ∃ result more,
      (∀ σ, binaryType op t t' span c σ = .ok (result, σ.grow { diagnostics := more })) ∧
      Folded (value.bind fun x => value'.bind fun y => op.fold? x y) result
      (reported ++ (reported' ++ more)) := by
  have silent : ∀ σ : Findings, σ.grow { diagnostics := [] } = σ := grow_nothing
  cases left with
  | invalid mem error =>
    refine ⟨.invalid, [], fun σ => ?_, .invalid (mem_append_left _ mem) error⟩
    rw [silent]
    rfl
  | @number x admissible width =>
    cases right with
    | invalid mem error =>
      refine ⟨.invalid, [], fun σ => ?_,
        .invalid (mem_append_right _ (mem_append_left _ mem)) error⟩
      rw [silent]
      rfl
    | @number y admissible' width' =>
      have typed := binaryResult?_number constant admissible admissible' width width'
      have valid : (Ty.number x width).isInvalid = false ∧ (Ty.number y width').isInvalid = false :=
        ⟨rfl, rfl⟩
      cases folded : op.fold? x y with
      | none =>
        rw [folded] at typed
        refine ⟨.invalid,
          [⟨.operatorNotCompatible op false (.number x width) (.number y width'), span,
          .error⟩], fun σ => ?_, ?_⟩
        · unfold binaryType
          simp only [valid, typed]
          exact reject_grow σ _ span
        · rw [bind_some, bind_some, folded]
          exact .invalid mem_cons_self rfl
      | some r =>
        rw [folded] at typed
        refine ⟨.number r none, [], fun σ => ?_, ?_⟩
        · unfold binaryType
          simp only [valid, typed]
          rw [silent]
          rfl
        · rw [bind_some, bind_some, folded]
          exact .number (BinaryOp.admissible_fold? constant admissible admissible' folded) none

end Check

/-! ## Expressions -/

/-- The identities of an expression and the expressions inside it. -/
def Expr.ids (e : Expr) : List NodeId := e.nodes.map id

theorem Expr.ids_parentheses (node : Node) (inner : Expr) :
    (Expr.tuple node [some inner] false).ids = node.id :: inner.ids := by
  simp [ids, nodes, slotNodes, Expr.id, Expr.node]

theorem Expr.ids_operation (node : Node) (op : BinaryOp) (left right : Expr) :
    (Expr.binary node op left right).ids = node.id :: (left.ids ++ right.ids) := by
  simp [ids, nodes, Expr.id, Expr.node]

/-- What is found about an expression: its value by evaluation, and by checking it its type and all
that comes with it. Neither depends on what is known before. -/
structure Expr.Folds (c : Context) (e : Expr) (value : Option Fraction) (t : Ty) (δ : Growth) :
    Prop where
  evaluates : ∀ constant cache, (e.evaluateWith constant).outcome cache = (.ok value, cache)
  checks : ∀ demand σ, (∀ id ∈ e.ids, σ.expression? id = none) →
    expression e demand c σ = .ok (t, σ.grow δ)
  typed : δ.typed ⊆ e.ids
  annotated : ∀ σ : Findings, (σ.grow δ).expression? e.id = some t
  folded : Folded value t δ.diagnostics

/-- Nodes that a run does not type stay without a type. -/
theorem Findings.expression?_grow {ids : List NodeId} {id : NodeId} (typed : δ.typed ⊆ ids)
    (outside : id ∉ ids) (untyped : σ.expression? id = none) :
    (σ.grow δ).expression? id = none := by
  rw [← not_isSome_iff_eq_none, isSome_expression?_grow]
  rintro (later | before)
  · exact outside (typed later)
  · rw [untyped] at before
    cases before

namespace Growth

/-- A growth that ends with the type of a node. -/
def typing (δ : Growth) (id : NodeId) (t : Ty) : Growth := δ ++ { expressions := [(id, t)] }

theorem diagnostics_typing (δ : Growth) (id : NodeId) (t : Ty) :
    (δ.typing id t).diagnostics = δ.diagnostics := append_nil _

theorem typed_typing {ids : List NodeId} (typed : δ.typed ⊆ ids) (id : NodeId) (t : Ty) :
    (δ.typing id t).typed ⊆ id :: ids := by
  rw [typing, typed_append]
  intro other mem
  rcases mem_append.mp mem with early | last
  · exact mem_cons_of_mem _ (typed early)
  · exact mem_singleton.mp last ▸ mem_cons_self

theorem expression?_typing (δ : Growth) (id : NodeId) (t : Ty) (σ : Findings) :
    (σ.grow (δ.typing id t)).expression? id = some t := by
  rw [typing, grow_append]
  show get? (insert id t _) id = _
  rw [get?_insert, if_pos rfl]

/-- The type of an expression is recorded after what was found about its parts. -/
theorem annotate_typing {ids : List NodeId} {id : NodeId} (typed : δ.typed ⊆ ids)
    (outside : id ∉ ids) (untyped : σ.expression? id = none) (t : Ty) :
    annotate id t c (σ.grow δ) = .ok (t, σ.grow (δ.typing id t)) := by
  rw [annotate_grow (expression?_grow typed outside untyped), typing, grow_append]

end Growth

theorem BinaryOp.isConstantOp_of_mem
    (mem : op ∈ [BinaryOp.add, .sub, .mul, .div, .mod, .exp, .shl, .shr]) :
    op.isConstantOp = true := by
  cases op <;> first | rfl | simp at mem

namespace Expr.Folds

variable {value value' : Option Fraction} {t t' : Ty} {δ δ' : Growth}

theorem literal (c : Context) (node : Node) (text : String) (unit : Option Denomination) :
    ∃ value t δ, Folds c (.literal node .number text unit) value t δ := by
  rcases literalType_number text unit with ⟨x, width, value, found⟩ | ⟨value, fault, refused⟩
  · refine ⟨some x, .number x width, Growth.typing {} node.id (.number x width), ?_⟩
    constructor
    case evaluates =>
      intro constant cache
      rw [evaluateWith, value]
      rfl
    case checks =>
      intro demand σ untyped
      rw [expression, found]
      exact annotate_grow (untyped node.id mem_cons_self) _
    case typed => exact Growth.typed_typing (nil_subset _) _ _
    case annotated => exact Growth.expression?_typing _ node.id _
    case folded => exact .number (admissible_literalValue? value) width
  · refine ⟨none, .invalid, Growth.typing
      { diagnostics := [⟨.invalidLiteral text fault, node.span, .error⟩] } node.id .invalid, ?_⟩
    constructor
    case evaluates =>
      intro constant cache
      rw [evaluateWith, value]
      rfl
    case checks =>
      intro demand σ untyped
      rw [expression, refused]
      dsimp only
      rw [bind_run (reject_grow σ _ _)]
      exact Growth.annotate_typing (nil_subset _) not_mem_nil (untyped node.id mem_cons_self) _
    case typed => exact Growth.typed_typing (nil_subset _) _ _
    case annotated => exact Growth.expression?_typing _ node.id _
    case folded => exact .invalid mem_cons_self rfl

theorem parentheses {inner : Expr} (folds : Folds c inner value t δ) (node : Node)
    (outside : node.id ∉ inner.ids) :
    Folds c (.tuple node [some inner] false) value t (δ.typing node.id t) where
  evaluates constant cache := by
    exact folds.evaluates constant cache
  checks demand σ untyped := by
    rw [ids_parentheses, forall_mem_cons] at untyped
    have components :
        components demand.isTarget node.span [some inner] c σ = .ok ([some t], σ.grow δ) := by
      rw [components, bind_run (folds.checks _ σ untyped.2), components]
      rfl
    rw [expression, bind_run components]
    exact Growth.annotate_typing folds.typed outside untyped.1 t
  typed := by
    rw [ids_parentheses]
    exact Growth.typed_typing folds.typed _ _
  annotated := Growth.expression?_typing δ node.id t
  folded := by
    rw [Growth.diagnostics_typing]
    exact folds.folded

theorem negation {operand : Expr} (folds : Folds c operand value t δ) (node : Node)
    (isPrefix : Bool) (outside : node.id ∉ operand.ids) :
    ∃ result, Folds c (.unary node .negate isPrefix operand) (value.map Fraction.neg) result
      (δ.typing node.id result) := by
  obtain ⟨result, typed, folded⟩ := unaryType_folded (c := c) folds.folded node.span
  refine ⟨result, ?_⟩
  constructor
  case evaluates =>
    intro constant cache
    rw [evaluateWith, Evaluation.outcome_bind_ok (folds.evaluates constant cache)]
    rfl
  case checks =>
    intro demand σ untyped
    have inside : ∀ id ∈ operand.ids, σ.expression? id = none := fun id mem =>
      untyped id (mem_cons_of_mem _ mem)
    rw [expression, bind_run (folds.checks _ σ inside)]
    refine (bind_run (typed _)).trans ?_
    exact Growth.annotate_typing folds.typed outside (untyped node.id mem_cons_self) result
  case typed => exact Growth.typed_typing folds.typed _ _
  case annotated => exact Growth.expression?_typing δ node.id result
  case folded =>
    rw [Growth.diagnostics_typing]
    exact folded

theorem operation {left right : Expr} (first : Folds c left value t δ)
    (second : Folds c right value' t' δ')
    (node : Node) (constant : op.isConstantOp = true) (outside : node.id ∉ left.ids ++ right.ids)
    (apart : ∀ id ∈ right.ids, id ∉ left.ids) :
    ∃ result more, Folds c (.binary node op left right)
      (value.bind fun x => value'.bind fun y => op.fold? x y) result
      ((δ ++ (δ' ++ { diagnostics := more })).typing node.id result) := by
  obtain ⟨result, more, found, folded⟩ :=
    binaryType_folded (c := c) constant first.folded second.folded node.span
  have typed : (δ ++ (δ' ++ { diagnostics := more })).typed ⊆ left.ids ++ right.ids := by
    rw [Growth.typed_append, Growth.typed_append]
    refine append_subset.mpr ⟨subset_append_of_subset_left _ first.typed, ?_⟩
    exact append_subset.mpr ⟨subset_append_of_subset_right _ second.typed, nil_subset _⟩
  refine ⟨result, more, ?_⟩
  constructor
  case evaluates =>
    intro known cache
    rw [evaluateWith, Evaluation.outcome_bind_ok (first.evaluates known cache)]
    cases value with
    | none => rfl
    | some x =>
      rw [Evaluation.outcome_bind_ok (second.evaluates known cache)]
      cases value' with
      | none => rfl
      | some y =>
        dsimp only
        rw [if_pos constant]
        rfl
  case checks =>
    intro demand σ untyped
    rw [ids_operation, forall_mem_cons, forall_mem_append] at untyped
    obtain ⟨own, before, before'⟩ := untyped
    -- The operands have no node in common, so checking the first leaves the second without types.
    have between : ∀ id ∈ right.ids, (σ.grow δ).expression? id = none := fun id mem =>
      expression?_grow first.typed (apart id mem) (before' id mem)
    rw [expression, bind_run (first.checks _ σ before),
      bind_run (second.checks _ _ between), bind_run (found _), ← grow_append,
      ← grow_append]
    exact Growth.annotate_typing typed outside own result
  case typed =>
    rw [ids_operation]
    exact Growth.typed_typing typed _ _
  case annotated => exact Growth.expression?_typing _ node.id result
  case folded =>
    rw [Growth.diagnostics_typing]
    exact folded

end Expr.Folds

/-- Both find the same about an expression of number literals with different identities. -/
theorem Expr.IsNumeric.folds {e : Expr} (numeric : e.IsNumeric) (c : Context)
    (distinct : e.ids.Nodup) : ∃ value t δ, e.Folds c value t δ := by
  induction numeric with
  | literal node text unit => exact Folds.literal c node text unit
  | parentheses node numeric ih =>
    rw [ids_parentheses, nodup_cons] at distinct
    obtain ⟨value, t, δ, folds⟩ := ih distinct.2
    exact ⟨_, _, _, folds.parentheses node distinct.1⟩
  | negation node isPrefix numeric ih =>
    obtain ⟨outside, distinct⟩ := nodup_cons.mp distinct
    obtain ⟨value, t, δ, folds⟩ := ih distinct
    obtain ⟨result, folds⟩ := folds.negation node isPrefix outside
    exact ⟨_, _, _, folds⟩
  | operation node mem numeric numeric' ih ih' =>
    rw [ids_operation, nodup_cons, nodup_append] at distinct
    obtain ⟨outside, distinct, distinct', apart⟩ := distinct
    obtain ⟨value, t, δ, first⟩ := ih distinct
    obtain ⟨value', t', δ', second⟩ := ih' distinct'
    obtain ⟨result, more, folds⟩ :=
      first.operation second node (BinaryOp.isConstantOp_of_mem mem) outside
      fun id later earlier => apart id earlier id later rfl
    exact ⟨_, _, _, folds⟩

/-- Evaluation and checking agree on expressions of number literals, wherever they stand and
whatever has been found before. If evaluation gives a number, then checking gives the type of that
number, and conversely. If it gives none, then checking gives the invalid type and adds an error,
and conversely. -/
theorem evaluate_iff_folded (c : Context) (σ : Findings) (demand : Demand) (e : Expr)
    (numeric : e.IsNumeric) (distinct : e.ids.Nodup)
    (untyped : ∀ id ∈ e.ids, σ.expression? id = none) :
    ∃ t τ added, Check.expression e demand c σ = .ok (t, τ) ∧ τ.expression? e.id = some t ∧
      τ.diagnostics = σ.diagnostics ++ added ∧
      (∀ x, c.declarations.evaluate e = .ok (some x) ↔ ∃ width, t = .number x width) ∧
      (c.declarations.evaluate e = .ok none ↔ t = .invalid ∧ ∃ d ∈ added, d.isError = true) := by
  obtain ⟨value, t, δ, folds⟩ := numeric.folds c distinct
  have evaluated : c.declarations.evaluate e = .ok value := by
    rw [Declarations.evaluate, Declarations.evaluateRemembering, folds.evaluates]
  refine ⟨t, σ.grow δ, δ.diagnostics, folds.checks demand σ untyped, folds.annotated σ, rfl, ?_⟩
  rw [evaluated]
  have folded := folds.folded
  generalize δ.diagnostics = added at folded
  cases folded with
  | number admissible width => simp
  | invalid mem error => simpa using ⟨_, mem, error⟩

/-- The remainder of minus a minute and a half by a literal. -/
def minuteRemainder (divisor : String) : Expr :=
  let node (id : Int64) : Node := ⟨⟨id⟩, .unknown⟩
  .binary (node 1) .mod
    (.unary (node 2) .negate true
      (.tuple (node 3) [some (.literal (node 4) .number "1.5" (some .minutes))] false))
    (.literal (node 5) .number divisor none)

theorem minuteRemainder_isNumeric (divisor : String) : (minuteRemainder divisor).IsNumeric :=
  .operation _ (by decide) (.negation _ _ (.parentheses _ (.literal _ _ _))) (.literal _ _ _)

/-- Minus ninety seconds leave minus six on division by seven, and nothing on division by zero. -/
theorem evaluate_iff_folded_minute :
    let c : Context := ⟨⟨default, "", none, []⟩, {}, ⟨[], []⟩, ⟨[]⟩, {}⟩
    (∃ width τ, Check.expression (minuteRemainder "7") {} c {} =
      .ok (.number ⟨⟨true, ⟨[6]⟩⟩, .one⟩ width, τ)) ∧
    ∃ τ, Check.expression (minuteRemainder "0") {} c {} = .ok (.invalid, τ) ∧
      ∃ d ∈ τ.diagnostics, d.isError = true := by
  intro c
  obtain ⟨t, τ, -, checked, -, -, number, -⟩ := evaluate_iff_folded c {} {} (minuteRemainder "7")
    (minuteRemainder_isNumeric _) (by decide) (fun id _ => rfl)
  obtain ⟨t', τ', added, checked', -, reported, -, invalid⟩ :=
    evaluate_iff_folded c {} {} (minuteRemainder "0") (minuteRemainder_isNumeric _) (by decide)
      (fun id _ => rfl)
  have six : c.declarations.evaluate (minuteRemainder "7") = .ok (some ⟨⟨true, ⟨[6]⟩⟩, .one⟩) := rfl
  have nothing : c.declarations.evaluate (minuteRemainder "0") = .ok none := rfl
  obtain ⟨width, rfl⟩ := (number _).mp six
  obtain ⟨rfl, error⟩ := invalid.mp nothing
  refine ⟨⟨width, τ, checked⟩, τ', checked', ?_⟩
  rw [reported]
  exact error

end ContractTyping
