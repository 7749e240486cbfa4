/-!
# Nodes of a source unit

Every node of a source unit has an identity and a span. Identities are 64-bit; the negative ones are
reserved for the language's globals.
-/

namespace ContractTyping

/-- The identity of a node. -/
structure NodeId where
  value : Int64
deriving DecidableEq, Repr, Inhabited, Hashable

namespace NodeId

/-- Negative identities belong to the language's globals. -/
def isGlobal (id : NodeId) : Bool := id.value < 0

def decimal (id : NodeId) : String :=
  match id.value.toInt with
  | .ofNat n => Nat.repr n
  | .negSucc n => "-" ++ Nat.repr (n + 1)

/-- The text of an identity in messages. -/
def label (id : NodeId) : String := "#" ++ id.decimal

/-- The identity with the given number, if it fits. -/
def ofInt? (n : Int) : Option NodeId :=
  if Int64.minValue.toInt ≤ n ∧ n ≤ Int64.maxValue.toInt then some ⟨Int64.ofInt n⟩ else none

end NodeId

/-- A byte offset into a named file. -/
structure Position where
  offset : UInt32
  file : String
deriving DecidableEq, Repr, Inhabited

/-- A half-open range of a file. -/
structure Span where
  start : Position
  stop : Position
deriving DecidableEq, Repr, Inhabited

/-- The position of a node that was not read from a file. -/
def Position.unknown : Position := ⟨0, "<null>"⟩

def Span.unknown : Span := ⟨.unknown, .unknown⟩

/-- What all nodes have in common. -/
structure Node where
  id : NodeId
  span : Span
deriving DecidableEq, Repr, Inhabited

end ContractTyping
