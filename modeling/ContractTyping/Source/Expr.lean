import ContractTyping.Source.Node
import ContractTyping.Source.Word

/-!
# Expressions, type names and variables

The three depend on each other: a creation expression holds a type name, an array's type name holds
the expression of its length, and the type name of a function holds variables.

References are already linked: an identifier carries the declaration that it was resolved to, or all
candidates when the name is overloaded.
-/

namespace ContractTyping

/-- A dotted name and the declaration that it was resolved to. -/
structure Path where
  node : Node
  segments : List String
  target : Option NodeId
deriving DecidableEq, Repr, Inhabited

def Path.name (path : Path) : String := ".".intercalate path.segments

/-- What a variable is declared with, apart from its type and its value. -/
structure VariableTraits where
  node : Node
  name : String
  visibility : Visibility := .internal
  changeability : Changeability := .mutable
  location : LocationKeyword := .unspecified
  isState : Bool := false
  indexed : Bool := false
deriving DecidableEq, Repr, Inhabited

mutual

inductive Expr
  | identifier (node : Node) (name : String) (target : Option NodeId) (overloads : List NodeId)
  | elementaryType (node : Node) (name : String) (payable : Bool)
  | literal (node : Node) (kind : LiteralKind) (value : String) (unit : Option Denomination)
  | unary (node : Node) (op : UnaryOp) (isPrefix : Bool) (operand : Expr)
  | binary (node : Node) (op : BinaryOp) (left right : Expr)
  | assignment (node : Node) (op : Option BinaryOp) (left right : Expr)
  | conditional (node : Node) (condition yes no : Expr)
  | tuple (node : Node) (components : List (Option Expr)) (isInlineArray : Bool)
  | call (node : Node) (callee : Expr) (arguments : List Expr) (names : List String)
  | callOptions (node : Node) (callee : Expr) (names : List String) (options : List Expr)
  | create (node : Node) (typeName : TypeName)
  | await (node : Node) (handle : Expr)
  | member (node : Node) (base : Expr) (name : String)
  | index (node : Node) (base : Expr) (index : Option Expr)
  | slice (node : Node) (base : Expr) (start stop : Option Expr)

inductive TypeName
  | elementary (node : Node) (name : String) (payable : Bool)
  | userDefined (node : Node) (path : Path)
  | mapping (node : Node) (key value : TypeName)
  | array (node : Node) (base : TypeName) (length : Option Expr)
  | function (node : Node) (parameters returns : List Variable) (visibility : Visibility)
      (mutability : Mutability)

/-- A declared variable: a state variable, a local, a parameter or a struct member. -/
inductive Variable
  | mk (traits : VariableTraits) (typeName : Option TypeName) (value : Option Expr)

end

instance : Inhabited Expr := ⟨.tuple default [] false⟩

instance : Inhabited TypeName := ⟨.elementary default "" false⟩

instance : Inhabited Variable := ⟨.mk default none none⟩

namespace Expr

def node : Expr → Node
  | identifier node .. | elementaryType node .. | literal node .. | unary node .. | binary node ..
  | assignment node .. | conditional node .. | tuple node .. | call node .. | callOptions node ..
  | create node .. | await node .. | member node .. | index node .. | slice node .. => node

def id (e : Expr) : NodeId := e.node.id

def span (e : Expr) : Span := e.node.span

end Expr

namespace TypeName

def node : TypeName → Node
  | elementary node .. | userDefined node .. | mapping node .. | array node .. | function node .. =>
    node

def span (t : TypeName) : Span := t.node.span

end TypeName

namespace Variable

def traits : Variable → VariableTraits
  | mk traits _ _ => traits

def typeName : Variable → Option TypeName
  | mk _ typeName _ => typeName

def value : Variable → Option Expr
  | mk _ _ value => value

def id (v : Variable) : NodeId := v.traits.node.id

def span (v : Variable) : Span := v.traits.node.span

def name (v : Variable) : String := v.traits.name

def isConstant (v : Variable) : Bool := v.traits.changeability == .constant

def isImmutable (v : Variable) : Bool := v.traits.changeability == .immutable

/-- Where a complaint about the variable's type belongs: at its type name if it has one. -/
def typeSpan (v : Variable) : Span :=
  match v.typeName with
  | some typeName => typeName.span
  | none => v.span

end Variable

end ContractTyping
