import ContractTyping.Source.Expr

/-!
# Statements

A block has a node of its own. The first clause of a try statement is for success, the others catch
errors by name: none for low-level data, `Error` or `Panic`.
-/

namespace ContractTyping

mutual

inductive Statement
  | block (node : Node) (block : Block)
  | placeholder (node : Node)
  | ifElse (node : Node) (condition : Expr) (yes : Statement) (no : Option Statement)
  | whileLoop (node : Node) (condition : Expr) (body : Statement) (isDoWhile : Bool)
  | forLoop (node : Node) (initial : Option Statement) (condition step : Option Expr)
      (body : Statement)
  | continueLoop (node : Node)
  | breakLoop (node : Node)
  | returnValue (node : Node) (value : Option Expr)
  | emit (node : Node) (event : Expr)
  | declare (node : Node) (vars : List (Option Variable)) (initial : Option Expr)
  | expression (node : Node) (expression : Expr)
  | tryCatch (node : Node) (call : Expr) (clauses : List CatchClause)

inductive Block
  | mk (node : Node) (statements : List Statement) (unchecked : Bool)

inductive CatchClause
  | mk (node : Node) (errorName : String) (parameters : Option (List Variable)) (body : Block)

end

instance : Inhabited Block := ⟨.mk default [] false⟩

instance : Inhabited Statement := ⟨.placeholder default⟩

namespace Statement

def node : Statement → Node
  | block node .. | placeholder node | ifElse node .. | whileLoop node .. | forLoop node ..
  | continueLoop node | breakLoop node | returnValue node .. | emit node .. | declare node ..
  | expression node .. | tryCatch node .. => node

def id (s : Statement) : NodeId := s.node.id

end Statement

namespace Block

def node : Block → Node
  | mk node _ _ => node

def statements : Block → List Statement
  | mk _ statements _ => statements

end Block

namespace CatchClause

def node : CatchClause → Node
  | mk node _ _ _ => node

end CatchClause

end ContractTyping
