import ContractTyping.Source.Reader
import ContractTyping.Source.Writer

/-!
# Fragments

A fragment is one node of a source unit, of any kind, or a number set aside for one. A fragment can
be edited through its JSON form: fields are replaced, and the result is read as a node of the same
kind.
-/

namespace ContractTyping

inductive Fragment
  | path (p : Path)
  | typeName (t : TypeName)
  | expr (e : Expr)
  | statement (s : Statement)
  | block (b : Block)
  | clause (c : CatchClause)
  | var (v : Variable)
  | function (f : Function)
  | modifier (m : Modifier)
  | modifierCall (m : ModifierCall)
  | event (e : Event)
  | message (m : Message)
  | struct (s : StructDef)
  | usingFor (u : UsingFor)
  | base (b : BaseSpecifier)
  | contract (c : Contract)
  | unit (u : SourceUnit)
  | reserved (id : NodeId)

namespace Fragment

def id : Fragment → NodeId
  | path p => p.node.id
  | typeName t => t.node.id
  | expr e => e.id
  | statement s => s.id
  | block b => b.node.id
  | clause c => c.node.id
  | var v => v.id
  | function f => f.id
  | modifier m => m.node.id
  | modifierCall m => m.node.id
  | event e => e.node.id
  | message m => m.node.id
  | struct s => s.node.id
  | usingFor u => u.node.id
  | base b => b.node.id
  | contract c => c.id
  | unit u => u.node.id
  | reserved id => id

def toJson : Fragment → Json
  | path p => p.toJson
  | typeName t => t.toJson
  | expr e => e.toJson
  | statement s => s.toJson
  | block b => b.toJson
  | clause c => c.toJson
  | var v => v.toJson
  | function f => f.node.toJson f.jsonFields
  | modifier m => m.node.toJson m.jsonFields
  | modifierCall m => m.toJson
  | event e => e.node.toJson e.jsonFields
  | message m => m.node.toJson m.jsonFields
  | struct s => s.node.toJson s.jsonFields
  | usingFor u => u.node.toJson u.jsonFields
  | base b => b.toJson
  | contract c => c.node.toJson c.jsonFields
  | unit u => u.toJson
  | reserved id => id.toJson

/-- Reads a fragment of the same kind as the given one. -/
def readLike? (fragment : Fragment) (json : Json) : Option Fragment :=
  match fragment with
  | path _ => (Path.ofJson? json).map path
  | typeName _ => (TypeName.ofJson? json).map typeName
  | expr _ => (Expr.ofJson? json).map expr
  | statement _ => (Statement.ofJson? json).map statement
  | block _ => (Block.ofJson? json).map block
  | clause _ => (CatchClause.ofJson? json).map clause
  | var _ => (Variable.ofJson? json).map var
  | function _ => ((json.record? functionFields).bind Function.ofRecord?).map function
  | modifier _ => ((json.record? modifierFields).bind Modifier.ofRecord?).map modifier
  | modifierCall _ => (ModifierCall.ofJson? json).map modifierCall
  | event _ => ((json.record? eventFields).bind Event.ofRecord?).map event
  | message _ => ((json.record? messageFields).bind Message.ofRecord?).map message
  | struct _ => ((json.record? structFields).bind StructDef.ofRecord?).map struct
  | usingFor _ => ((json.record? usingForFields).bind UsingFor.ofRecord?).map usingFor
  | base _ => (BaseSpecifier.ofJson? json).map base
  | contract _ => ((json.record? contractFields).bind Contract.ofRecord?).map contract
  | unit _ => (SourceUnit.ofJson? json).map unit
  | reserved _ => (NodeId.ofJson? json).map reserved

/-- Replaces fields of the JSON form. -/
def edit? (fragment : Fragment) (fields : List (String × Json)) : Option Fragment :=
  match fragment.toJson with
  | .object old =>
    let kept := old.filter fun field => (fields.lookup field.1).isNone
    fragment.readLike? (.object (kept ++ fields))
  | _ => none

def typeName? : Fragment → Option TypeName
  | typeName t => some t
  | _ => none

def expr? : Fragment → Option Expr
  | expr e => some e
  | _ => none

def statement? : Fragment → Option Statement
  | statement s => some s
  | _ => none

def block? : Fragment → Option Block
  | block b => some b
  | _ => none

def clause? : Fragment → Option CatchClause
  | clause c => some c
  | _ => none

def var? : Fragment → Option Variable
  | var v => some v
  | _ => none

def modifierCall? : Fragment → Option ModifierCall
  | modifierCall m => some m
  | _ => none

def base? : Fragment → Option BaseSpecifier
  | base b => some b
  | _ => none

/-- The fragment as a part of a contract; a variable is then a state variable. -/
def contractPart? : Fragment → Option ContractPart
  | function f => some (.function f)
  | var v => some (.stateVariable v)
  | event e => some (.event e)
  | message m => some (.message m)
  | modifier m => some (.modifier m)
  | struct s => some (.struct s)
  | usingFor u => some (.usingFor u)
  | _ => none

def unitPart? : Fragment → Option UnitPart
  | contract c => some (.contract c)
  | struct s => some (.struct s)
  | function f => some (.function f)
  | usingFor u => some (.usingFor u)
  | _ => none

end Fragment

end ContractTyping
