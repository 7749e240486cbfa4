import ContractTyping.Resolution

/-!
# Parentheses in a source unit

A `Wrapping` puts parentheses around the callee of a call or around the left side of an assignment,
wherever in a source unit the call or the assignment stands: in the body of a function, in the
initial value of a variable, in the arguments of a modifier or of a base, or in the length of an
array type. Nothing else changes, so identities, spans and names stay the same.
-/

namespace ContractTyping

open List

/-- Parentheses to be put around the callee of a call or around the left side of an assignment. -/
structure Wrapping where
  /-- The identity of the call or of the assignment. -/
  site : NodeId
  /-- The parentheses. -/
  fresh : Node
  /-- The expressions of this identity that get them. -/
  selects : Expr → Bool
  selects_site : ∀ e, selects e = true → e.id = site

namespace Wrapping

variable (W : Wrapping)
variable (es : List Expr) (e : Expr) (v : Variable)

/-- A part of an expression, with parentheses if the expression gets some. -/
def enclose (e part : Expr) : Expr :=
  if W.selects e then .tuple W.fresh [some part] false else part

mutual

def expr : Expr → Expr
  | .identifier node name target overloads => .identifier node name target overloads
  | .elementaryType node name payable => .elementaryType node name payable
  | .literal node kind text unit => .literal node kind text unit
  | .unary node op isPrefix operand => .unary node op isPrefix (expr operand)
  | .binary node op left right => .binary node op (expr left) (expr right)
  | .assignment node op left right =>
    .assignment node op (W.enclose (.assignment node op left right) (expr left)) (expr right)
  | .conditional node condition yes no => .conditional node (expr condition) (expr yes) (expr no)
  | .tuple node components isInlineArray => .tuple node (slots components) isInlineArray
  | .call node callee arguments names =>
    .call node (W.enclose (.call node callee arguments names) (expr callee)) (exprs arguments) names
  | .callOptions node callee names options => .callOptions node (expr callee) names (exprs options)
  | .create node created => .create node (typeName created)
  | .await node handle => .await node (expr handle)
  | .member node base name => .member node (expr base) name
  | .index node base index => .index node (expr base) (optional index)
  | .slice node base start stop => .slice node (expr base) (optional start) (optional stop)

def exprs : List Expr → List Expr
  | [] => []
  | e :: rest => expr e :: exprs rest

def slots : List (Option Expr) → List (Option Expr)
  | [] => []
  | none :: rest => none :: slots rest
  | some e :: rest => some (expr e) :: slots rest

def optional : Option Expr → Option Expr
  | none => none
  | some e => some (expr e)

def typeName : TypeName → TypeName
  | .elementary node name payable => .elementary node name payable
  | .userDefined node path => .userDefined node path
  | .mapping node key value => .mapping node (typeName key) (typeName value)
  | .array node base length => .array node (typeName base) (optional length)
  | .function node parameters returns visibility mutability =>
    .function node (vars parameters) (vars returns) visibility mutability

def var : Variable → Variable
  | .mk traits none value => .mk traits none (optional value)
  | .mk traits (some declared) value => .mk traits (some (typeName declared)) (optional value)

def vars : List Variable → List Variable
  | [] => []
  | v :: rest => var v :: vars rest

end

mutual

def statement : Statement → Statement
  | .block node body => .block node (block body)
  | .placeholder node => .placeholder node
  | .ifElse node condition yes no =>
    .ifElse node (W.expr condition) (statement yes) (optionalStatement no)
  | .whileLoop node condition body isDoWhile =>
    .whileLoop node (W.expr condition) (statement body) isDoWhile
  | .forLoop node initial condition step body =>
    .forLoop node (optionalStatement initial) (W.optional condition) (W.optional step)
      (statement body)
  | .continueLoop node => .continueLoop node
  | .breakLoop node => .breakLoop node
  | .returnValue node value => .returnValue node (W.optional value)
  | .emit node event => .emit node (W.expr event)
  | .declare node vars initial => .declare node (vars.map (Option.map W.var)) (W.optional initial)
  | .expression node e => .expression node (W.expr e)
  | .tryCatch node call clauses => .tryCatch node (W.expr call) (catchClauses clauses)

def block : Block → Block
  | .mk node body isUnchecked => .mk node (statements body) isUnchecked

def statements : List Statement → List Statement
  | [] => []
  | s :: rest => statement s :: statements rest

def optionalStatement : Option Statement → Option Statement
  | none => none
  | some s => some (statement s)

def catchClauses : List CatchClause → List CatchClause
  | [] => []
  | .mk node errorName parameters body :: rest =>
    .mk node errorName (parameters.map W.vars) (block body) :: catchClauses rest

end

def baseSpecifier (specifier : BaseSpecifier) : BaseSpecifier :=
  { specifier with arguments := specifier.arguments.map W.exprs }

def modifierCall (m : ModifierCall) : ModifierCall :=
  { m with arguments := m.arguments.map W.exprs }

def function (f : Function) : Function :=
  { f with
    parameters := W.vars f.parameters
    returns := W.vars f.returns
    modifiers := f.modifiers.map W.modifierCall
    body := f.body.map W.block }

def modifier (m : Modifier) : Modifier :=
  { m with parameters := W.vars m.parameters, body := m.body.map W.block }

def event (e : Event) : Event := { e with parameters := W.vars e.parameters }

def message (m : Message) : Message :=
  { m with parameters := W.vars m.parameters, returns := W.vars m.returns }

def struct (s : StructDef) : StructDef := { s with members := W.vars s.members }

def usingFor (u : UsingFor) : UsingFor := { u with typeName := u.typeName.map W.typeName }

def contractPart : ContractPart → ContractPart
  | .function f => .function (W.function f)
  | .stateVariable v => .stateVariable (W.var v)
  | .event e => .event (W.event e)
  | .message m => .message (W.message m)
  | .modifier m => .modifier (W.modifier m)
  | .struct s => .struct (W.struct s)
  | .usingFor u => .usingFor (W.usingFor u)

def contract (c : Contract) : Contract :=
  { c with bases := c.bases.map W.baseSpecifier, parts := c.parts.map W.contractPart }

def part : UnitPart → UnitPart
  | .contract c => .contract (W.contract c)
  | .struct s => .struct (W.struct s)
  | .function f => .function (W.function f)
  | .usingFor u => .usingFor (W.usingFor u)

/-- A source unit with the parentheses in it. -/
def unit (u : SourceUnit) : SourceUnit := { u with parts := u.parts.map W.part }

def item : DeclaredItem → DeclaredItem
  | .contract c => .contract (W.contract c)
  | .function f => .function (W.function f)
  | .modifier m => .modifier (W.modifier m)
  | .event e => .event (W.event e)
  | .message m => .message (W.message m)
  | .struct s => .struct (W.struct s)
  | .var v => .var (W.var v)
  | .global g => .global g

def declaration (d : Declaration) : Declaration := { d with item := W.item d.item }

/-! ## Lists and optional parts -/

theorem exprs_eq : W.exprs es = es.map W.expr := by
  induction es with
  | nil => rfl
  | cons e rest ih => rw [exprs, ih, map_cons]

theorem optional_eq (e : Option Expr) : W.optional e = e.map W.expr := by
  cases e <;> rfl

theorem vars_eq (vars : List Variable) : W.vars vars = vars.map W.var := by
  induction vars with
  | nil => rfl
  | cons v rest ih => rw [vars, ih, map_cons]

theorem exprs_length : (W.exprs es).length = es.length := by
  rw [exprs_eq, length_map]

theorem slots_length (components : List (Option Expr)) :
    (W.slots components).length = components.length := by
  induction components with
  | nil => rfl
  | cons slot rest ih => cases slot <;> rw [slots, length_cons, ih, length_cons]

/-! ## What stays the same -/

@[simp] theorem expr_node : (W.expr e).node = e.node := by
  cases e <;> rfl

@[simp] theorem expr_id : (W.expr e).id = e.id := congrArg Node.id (W.expr_node e)

@[simp] theorem expr_span : (W.expr e).span = e.span := congrArg Node.span (W.expr_node e)

@[simp] theorem typeName_span (t : TypeName) : (W.typeName t).span = t.span := by
  cases t <;> rfl

@[simp] theorem var_traits : (W.var v).traits = v.traits := by
  obtain ⟨traits, declared, value⟩ := v
  cases declared <;> rfl

@[simp] theorem var_typeName : (W.var v).typeName = v.typeName.map W.typeName := by
  obtain ⟨traits, declared, value⟩ := v
  cases declared <;> rfl

@[simp] theorem var_value : (W.var v).value = v.value.map W.expr := by
  obtain ⟨traits, declared, value⟩ := v
  cases declared <;> exact W.optional_eq value

@[simp] theorem var_id : (W.var v).id = v.id :=
  congrArg (·.node.id) (W.var_traits v)

@[simp] theorem var_span : (W.var v).span = v.span :=
  congrArg (·.node.span) (W.var_traits v)

@[simp] theorem var_name : (W.var v).name = v.name :=
  congrArg (·.name) (W.var_traits v)

@[simp] theorem var_isConstant : (W.var v).isConstant = v.isConstant := by
  rw [Variable.isConstant, W.var_traits]
  rfl

@[simp] theorem var_isImmutable : (W.var v).isImmutable = v.isImmutable := by
  rw [Variable.isImmutable, W.var_traits]
  rfl

@[simp] theorem var_typeSpan : (W.var v).typeSpan = v.typeSpan := by
  unfold Variable.typeSpan
  rw [W.var_typeName, W.var_span]
  cases v.typeName with
  | none => rfl
  | some declared => exact W.typeName_span declared

theorem vars_names (vars : List Variable) :
    (W.vars vars).map Variable.name = vars.map Variable.name := by
  rw [vars_eq, map_map]
  exact map_congr_left fun v _ => W.var_name v

theorem exprs_spans : (W.exprs es).map Expr.span = es.map Expr.span := by
  rw [exprs_eq, map_map]
  exact map_congr_left fun e _ => W.expr_span e

end Wrapping

end ContractTyping
