import ContractTyping.Fault
import ContractTyping.Ty.Display

/-!
# Annotations

The types found for expressions and variables, by node. A node is meant to be annotated once: doing
it again is a fault, and the new type takes the place of the old one.
-/

namespace ContractTyping

/-- Types by node, in ascending order of the nodes. -/
abbrev TypeTable := List (NodeId × Ty)

namespace TypeTable

/-- Sets the type of a node. -/
def insert (id : NodeId) (t : Ty) : TypeTable → TypeTable
  | [] => [(id, t)]
  | (other, old) :: rest =>
    if id.value < other.value then (id, t) :: (other, old) :: rest
    else if id = other then (id, t) :: rest
    else (other, old) :: insert id t rest

def get? (table : TypeTable) (id : NodeId) : Option Ty := table.lookup id

end TypeTable

structure Annotations where
  expressions : TypeTable := []
  vars : TypeTable := []
deriving Repr, Inhabited

namespace Annotations

/-- The fault of annotating a node that has a type. -/
def annotatedTwice? (table : TypeTable) (id : NodeId) : Option Fault :=
  if (table.get? id).isSome then some (.typedTwice id) else none

/-- Annotates an expression, with the fault if it was annotated before. -/
def annotateExpression (a : Annotations) (id : NodeId) (t : Ty) : Annotations × Option Fault :=
  ({ a with expressions := a.expressions.insert id t }, annotatedTwice? a.expressions id)

/-- Annotates a variable, with the fault if it was annotated before. -/
def annotateVariable (a : Annotations) (id : NodeId) (t : Ty) : Annotations × Option Fault :=
  ({ a with vars := a.vars.insert id t }, annotatedTwice? a.vars id)

def expression? (a : Annotations) (id : NodeId) : Option Ty := a.expressions.get? id

def var? (a : Annotations) (id : NodeId) : Option Ty := a.vars.get? id

/-- The type of an expression that is expected to have one. -/
def expression (a : Annotations) (id : NodeId) : Except Fault Ty :=
  match a.expression? id with
  | some t => .ok t
  | none => .error (.untyped id)

/-- The type of a variable that is expected to have one. -/
def var (a : Annotations) (id : NodeId) : Except Fault Ty :=
  match a.var? id with
  | some t => .ok t
  | none => .error (.untyped id)

/-- The number of annotated nodes. -/
def size (a : Annotations) : Nat := a.expressions.length + a.vars.length

end Annotations

end ContractTyping
