import ContractTyping.Source.Node

/-!
# Faults

A source unit that breaks what the check relies on: nodes are numbered apart, references lead
somewhere, and names come with values. A fault ends the check without a result.
-/

namespace ContractTyping

inductive Fault
  /-- A node was given a type twice. -/
  | typedTwice (node : NodeId)
  /-- A reference to a declaration that does not exist. -/
  | danglingReference (node declaration : NodeId)
  /-- A node was expected to have a type. -/
  | untyped (node : NodeId)
  /-- Names and values of a call differ in number. -/
  | argumentNamesMismatch (node : NodeId) (names values : Nat)
deriving DecidableEq, Repr

namespace Fault

def name : Fault → String
  | typedTwice _ => "AnnotationRewritten"
  | danglingReference .. => "DanglingReference"
  | untyped _ => "MissingAnnotation"
  | argumentNamesMismatch .. => "ArgumentNamesMismatch"

def message : Fault → String
  | typedTwice node => "type annotation of node " ++ node.label ++ " written twice"
  | danglingReference node declaration =>
    "node " ++ node.label ++ " references declaration " ++ declaration.label ++
      ", which does not exist"
  | untyped node => "node " ++ node.label ++ " was never type checked"
  | argumentNamesMismatch node names values =>
    "node " ++ node.label ++ " carries " ++ Nat.repr names ++ " argument names for " ++
      Nat.repr values ++ " arguments"

end Fault

end ContractTyping
