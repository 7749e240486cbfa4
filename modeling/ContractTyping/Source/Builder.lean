import ContractTyping.Source.Global
import ContractTyping.Source.Unit

/-!
# Building source units

Nodes are numbered from one in the order they are made, and a node's span is one byte at the offset
of its number. Parts of a node that are nodes themselves are made first.
-/

namespace ContractTyping

/-- The number of the next node, and the file that nodes belong to. -/
structure Builder where
  next : Int64 := 1
  file : String

/-- Computations that make nodes. -/
abbrev Build (α : Type) := StateM Builder α

namespace Build

/-- The span of the node with the given number. -/
def spanOf (file : String) (id : NodeId) : Span :=
  let offset := id.value.toUInt64.toUInt32
  ⟨⟨offset, file⟩, ⟨offset + 1, file⟩⟩

/-- A fresh node. -/
def node : Build Node := do
  let builder ← get
  set { builder with next := builder.next + 1 }
  let id : NodeId := ⟨builder.next⟩
  return ⟨id, spanOf builder.file id⟩

/-- Sets a number aside for a node that is made later. -/
def reserve : Build NodeId := return (← node).id

/-- A dotted name that is linked to a declaration. -/
def path (name : String) (target : NodeId) : Build Path :=
  return ⟨← node, name.splitOn ".", some target⟩

/-! ## Type names -/

def elementary (name : String) : Build TypeName := return .elementary (← node) name false

def addressPayable : Build TypeName := return .elementary (← node) "address" true

def userType (name : String) (target : NodeId) : Build TypeName := do
  let path ← path name target
  return .userDefined (← node) path

def mapping (key value : TypeName) : Build TypeName := return .mapping (← node) key value

def array (base : TypeName) (length : Option Expr) : Build TypeName :=
  return .array (← node) base length

def functionType (parameters returns : List Variable) (visibility : Visibility) : Build TypeName :=
  return .function (← node) parameters returns visibility .nonPayable

/-! ## Expressions -/

def identifier (name : String) (target : NodeId) : Build Expr :=
  return .identifier (← node) name (some target) []

/-- An identifier that is not linked to anything. -/
def unlinked (name : String) : Build Expr := return .identifier (← node) name none []

def overloaded (name : String) (targets : List NodeId) : Build Expr :=
  return .identifier (← node) name none targets

/-- An identifier that is linked to a global. -/
def global (name : String) : Build Expr :=
  match Global.idsOf name with
  | [target] => identifier name target
  | targets => overloaded name targets

def elementaryExpr (name : String) : Build Expr := return .elementaryType (← node) name false

def payableExpr : Build Expr := return .elementaryType (← node) "address" true

def literal (kind : LiteralKind) (text : String) (unit : Option Denomination) : Build Expr :=
  return .literal (← node) kind text unit

def number (text : String) : Build Expr := literal .number text none

def numberOf (text : String) (unit : Denomination) : Build Expr := literal .number text (some unit)

def boolean (value : Bool) : Build Expr := literal .bool (if value then "true" else "false") none

def string (text : String) : Build Expr := literal .string text none

def hexString (digits : String) : Build Expr := literal .hexString digits none

def unary (op : UnaryOp) (operand : Expr) : Build Expr := return .unary (← node) op true operand

def binary (op : BinaryOp) (left right : Expr) : Build Expr := return .binary (← node) op left right

def assign (left right : Expr) : Build Expr := return .assignment (← node) none left right

def compoundAssign (op : BinaryOp) (left right : Expr) : Build Expr :=
  return .assignment (← node) (some op) left right

def conditional (condition yes no : Expr) : Build Expr :=
  return .conditional (← node) condition yes no

def tuple (components : List (Option Expr)) : Build Expr := return .tuple (← node) components false

def inlineArray (elements : List Expr) : Build Expr :=
  return .tuple (← node) (elements.map some) true

def call (callee : Expr) (arguments : List Expr) : Build Expr :=
  return .call (← node) callee arguments []

def namedCall (callee : Expr) (names : List String) (arguments : List Expr) : Build Expr :=
  return .call (← node) callee arguments names

def callOptions (callee : Expr) (names : List String) (options : List Expr) : Build Expr :=
  return .callOptions (← node) callee names options

def create (typeName : TypeName) : Build Expr := return .create (← node) typeName

def await (handle : Expr) : Build Expr := return .await (← node) handle

def member (base : Expr) (name : String) : Build Expr := return .member (← node) base name

def index (base : Expr) (index : Option Expr) : Build Expr := return .index (← node) base index

def slice (base : Expr) (start stop : Option Expr) : Build Expr :=
  return .slice (← node) base start stop

/-! ## Statements -/

def block (statements : List Statement) : Build Block := return .mk (← node) statements false

def blockStatement (statements : List Statement) : Build Statement := do
  let block ← block statements
  return .block (← node) block

def expressionStatement (e : Expr) : Build Statement := return .expression (← node) e

def returnStatement (value : Option Expr) : Build Statement := return .returnValue (← node) value

def emit (event : Expr) : Build Statement := return .emit (← node) event

def declare (v : Variable) (initial : Option Expr) : Build Statement :=
  return .declare (← node) [some v] initial

def declareTuple (vars : List (Option Variable)) (initial : Expr) : Build Statement :=
  return .declare (← node) vars (some initial)

def ifElse (condition : Expr) (yes : Statement) (no : Option Statement) : Build Statement :=
  return .ifElse (← node) condition yes no

def whileLoop (condition : Expr) (body : Statement) : Build Statement :=
  return .whileLoop (← node) condition body false

def forLoop (initial : Option Statement) (condition step : Option Expr) (body : Statement) :
    Build Statement :=
  return .forLoop (← node) initial condition step body

def placeholder : Build Statement := return .placeholder (← node)

def tryCatch (call : Expr) (clauses : List CatchClause) : Build Statement :=
  return .tryCatch (← node) call clauses

def catchClause (errorName : String) (parameters : Option (List Variable)) (body : Block) :
    Build CatchClause :=
  return .mk (← node) errorName parameters body

/-! ## Declarations -/

def variableAt (name : String) (typeName : TypeName) (location : LocationKeyword) :
    Build Variable :=
  return .mk { node := ← node, name, location } (some typeName) none

/-- A local variable or a parameter without a data location. -/
def localVariable (name : String) (typeName : TypeName) : Build Variable :=
  variableAt name typeName .unspecified

def stateVariable (name : String) (typeName : TypeName) (value : Option Expr) : Build Variable :=
  return .mk { node := ← node, name, isState := true } (some typeName) value

/-- A public function. -/
def function (name : String) (parameters returns : List Variable) (body : Option Block) :
    Build Function :=
  return {
    node := ← node
    name
    kind := .function
    visibility := .pub
    mutability := .nonPayable
    parameters
    returns
    body }

/-- A constructor, a fallback function or a receive function, as visible as it has to be. -/
def specialFunction (kind : FunctionKind) (body : Block) : Build Function := do
  let f ← function "" [] [] (some body)
  return { f with
    kind
    visibility := if kind == .fallback || kind == .receive then .external else .pub
    mutability := if kind == .receive then .payable else .nonPayable }

def modifier (name : String) (parameters : List Variable) (body : Block) : Build Modifier :=
  return ⟨← node, name, parameters, some body⟩

def modifierCall (name : String) (target : NodeId) (arguments : Option (List Expr)) :
    Build ModifierCall := do
  let path ← path name target
  return ⟨← node, path, arguments⟩

def event (name : String) (parameters : List Variable) : Build Event :=
  return ⟨← node, name, parameters, false⟩

def message (name : String) (parameters returns : List Variable) : Build Message :=
  return ⟨← node, name, parameters, returns⟩

def struct (name : String) (members : List Variable) : Build StructDef :=
  return ⟨← node, name, members⟩

def usingFor (library : String) (target : NodeId) (typeName : Option TypeName) :
    Build UsingFor := do
  let path ← path library target
  return ⟨← node, path, typeName⟩

def inheritance (base : String) (target : NodeId) (arguments : Option (List Expr)) :
    Build BaseSpecifier := do
  let path ← path base target
  return ⟨← node, path, arguments⟩

/-- A contract with a number that was set aside. -/
def contractWithId (id : NodeId) (name : String) (kind : ContractKind) (bases : List BaseSpecifier)
    (parts : List ContractPart) : Build Contract :=
  return ⟨⟨id, spanOf (← get).file id⟩, name, kind, false, bases, [], parts⟩

def contract (name : String) (bases : List BaseSpecifier) (parts : List ContractPart) :
    Build Contract := do
  contractWithId (← reserve) name .contract bases parts

def unit (parts : List UnitPart) : Build SourceUnit :=
  return ⟨← node, (← get).file, none, parts⟩

end Build

end ContractTyping
