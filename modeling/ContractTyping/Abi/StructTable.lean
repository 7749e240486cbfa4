import ContractTyping.Graph.Search
import ContractTyping.Ty.Basic

/-!
# Structs and what they contain

Types refer to structs by identity. A table holds the types of their members; a struct that is not
in the table has none. The questions here look through arrays and structs, and structs may contain
each other.
-/

namespace ContractTyping

namespace Ty

/-- The structs met in a type through arrays. -/
def structs : Ty → List NodeId
  | struct id _ _ => [id]
  | array element _ _ => element.structs
  | _ => []

/-- The structs that a type contains without a dynamic array in between. -/
def inlineStructs : Ty → List NodeId
  | struct id _ _ => [id]
  | array element (some _) _ => element.inlineStructs
  | _ => []

/-- What is met in a type through arrays. -/
def leaf : Ty → Ty
  | array element _ _ => element.leaf
  | t => t

end Ty

/-- The member types of structs. The first entry of a struct counts. -/
structure StructTable where
  entries : List (NodeId × List Ty)
deriving Repr, Inhabited

namespace StructTable

/-- The table of a list of structs, where later ones replace earlier ones. -/
def ofList (structs : List (NodeId × List Ty)) : StructTable := ⟨structs.reverse⟩

def members (table : StructTable) (id : NodeId) : List Ty := (table.entries.lookup id).getD []

def ids (table : StructTable) : List NodeId := table.entries.map Prod.fst

/-- The structs in the members of a struct. -/
def successors (table : StructTable) (id : NodeId) : List NodeId :=
  (table.members id).flatMap Ty.structs

/-- The structs that make up the size of a struct. -/
def inlineSuccessors (table : StructTable) (id : NodeId) : List NodeId :=
  (table.members id).flatMap Ty.inlineStructs

/-- The structs reached from the given ones, themselves included. -/
def reachable (table : StructTable) (next : NodeId → List NodeId) (start : List NodeId) :
    List NodeId :=
  Graph.preorder next (start.length + Graph.edgeCount next table.ids) start []

/-- Whether a struct contains itself. -/
def isRecursive (table : StructTable) (id : NodeId) : Bool :=
  (table.reachable table.successors (table.successors id)).contains id

/-- Whether a struct contains itself without a dynamic array in between. -/
def hasInfiniteSize (table : StructTable) (id : NodeId) : Bool :=
  (table.reachable table.inlineSuccessors (table.inlineSuccessors id)).contains id

/-- A type and the types of all members inside it. -/
def parts (table : StructTable) (next : NodeId → List NodeId) (start : List NodeId) (t : Ty) :
    List Ty :=
  t :: (table.reachable next start).flatMap table.members

/-- A type and the types of all struct members inside it. -/
def allParts (table : StructTable) (t : Ty) : List Ty := table.parts table.successors t.structs t

/-- A type and the types of struct members in it without a dynamic array in between. -/
def inlineParts (table : StructTable) (t : Ty) : List Ty :=
  table.parts table.inlineSuccessors t.inlineStructs t

/-- Whether there is a mapping anywhere inside a type. -/
def containsMapping (table : StructTable) (t : Ty) : Bool :=
  (table.allParts t).any fun part =>
    match part.leaf with
    | .mapping .. => true
    | _ => false

end StructTable

end ContractTyping
