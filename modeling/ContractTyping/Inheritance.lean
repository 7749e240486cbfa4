import ContractTyping.Declarations
import ContractTyping.Graph.Search

/-!
# Inheritance

The graph of contracts and their direct bases. It may have cycles, which are then reported; every
question is answered for such graphs as well.
-/

namespace ContractTyping

namespace Declarations

/-- The bases that a contract lists, as far as they are contracts. -/
def directBases (d : Declarations) (c : Contract) : List NodeId :=
  (c.bases.filterMap fun specifier => specifier.base.target).filter fun id =>
    (d.contract? id).isSome

/-- The direct bases of the contract with the given identity. -/
def basesOf (d : Declarations) (id : NodeId) : List NodeId :=
  match d.contract? id with
  | some c => d.directBases c
  | none => []

/-- The same, the last one first. -/
def basesOfBackwards (d : Declarations) (id : NodeId) : List NodeId := (d.basesOf id).reverse

def contractIds (d : Declarations) : List NodeId := d.contracts.map Contract.id

/-- The contract and its bases, most derived first. Unless the source unit supplies an order, it is
depth first, later bases before earlier ones. -/
def linearized (d : Declarations) (c : Contract) : List NodeId :=
  if c.linearization.isEmpty then
    let start := (d.directBases c).reverse
    Graph.preorder d.basesOfBackwards
      (start.length + Graph.edgeCount d.basesOfBackwards d.contractIds) start [c.id]
  else c.linearization

/-- Whether a contract accepts plain value transfers. -/
def canReceive (d : Declarations) (c : Contract) : Bool :=
  ((d.linearized c).filterMap d.contract?).any fun base =>
    base.functions.any fun f =>
      f.kind == .receive || f.kind == .fallback && f.mutability == .payable

/-- A cycle that can be reached from a contract: each on it has the next one as a direct base, and
the last one the first. -/
def cycle? (d : Declarations) (c : Contract) : Option (List NodeId) :=
  match (d.directBases c).foldlM (Graph.cycleFrom d.basesOf (d.contracts.length + 1) [c.id]) [] with
  | .error cycle => some cycle
  | .ok _ => none

end Declarations

end ContractTyping
