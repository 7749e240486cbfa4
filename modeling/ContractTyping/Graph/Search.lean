/-!
# Search in finite graphs

A graph is given by the successors of each vertex. `preorder` walks depth first from pending
vertices and lists what it meets in the order of first visits; `cycleFrom` looks for a cycle that
can be reached.

Both take a bound on their steps. It is enough for `preorder` to have one step for each pending
vertex and each edge, and for `cycleFrom` to have one more than the number of vertices with
successors.
-/

namespace ContractTyping.Graph

variable {α : Type} [DecidableEq α]

/-- The vertex at the end of one or more edges. -/
inductive Reaches (successors : α → List α) : α → α → Prop
  | edge {v w : α} (next : w ∈ successors v) : Reaches successors v w
  | step {v w u : α} (next : w ∈ successors v) (rest : Reaches successors w u) :
      Reaches successors v u

/-- Visits the pending vertices depth first, and adds those not seen before in that order. -/
def preorder (successors : α → List α) : Nat → List α → List α → List α
  | 0, _, seen => seen
  | _ + 1, [], seen => seen
  | steps + 1, v :: pending, seen =>
    if v ∈ seen then preorder successors steps pending seen
    else preorder successors steps (successors v ++ pending) (seen ++ [v])

/-- Looks for a cycle from a vertex below a path, depth first. Ends with the cycle, from the vertex
of the path that was met again, or with the finished vertices that lead to none. -/
def cycleFrom (successors : α → List α) : Nat → List α → List α → α → Except (List α) (List α)
  | 0, _, finished, _ => .ok finished
  | depth + 1, path, finished, v =>
    if v ∈ path then .error (path.dropWhile (· ≠ v))
    else if v ∈ finished then .ok finished
    else do
      let finished ← (successors v).foldlM (cycleFrom successors depth (path ++ [v])) finished
      .ok (v :: finished)

/-- The number of edges that leave the given vertices. -/
def edgeCount (successors : α → List α) (vertices : List α) : Nat :=
  (vertices.flatMap successors).length

end ContractTyping.Graph
