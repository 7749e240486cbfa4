import ContractTyping.Check.Basic

/-!
# Overlapping writes to storage

In `(s.a, s) = (1, t)` the second component overwrites the first. An assignment to a tuple is
suspicious when two components may be the same storage or parts of one another, and when data is
copied to storage in several components while some of it is copied from there.
-/

namespace ContractTyping

/-- A step from a variable into its data. -/
inductive PathStep
  | member (name : String)
  /-- An index, with its value if that is constant. -/
  | index (value : Option Fraction)
deriving DecidableEq, Repr

/-- Whether two steps may lead to the same place. -/
def PathStep.mayAlias : PathStep → PathStep → Bool
  | member name, member name' => name == name'
  | index (some value), index (some value') => value == value'
  | index _, index _ => true
  | _, _ => false

/-- A place in storage: a variable, and the steps into its data. -/
structure StoragePath where
  root : NodeId
  steps : List PathStep
deriving DecidableEq, Repr

/-- Whether one path may lead to another, or to data around it. -/
def StoragePath.mayContain (outer inner : StoragePath) : Bool :=
  outer.root == inner.root && outer.steps.length ≤ inner.steps.length &&
    (outer.steps.zip inner.steps).all fun (step, step') => step.mayAlias step'

/-- Whether one of the paths may contain another one. -/
def anyOverlap : List StoragePath → Bool
  | [] => false
  | path :: rest =>
    rest.any (fun other => path.mayContain other || other.mayContain path) || anyOverlap rest

/-- One component of the target of an assignment. -/
structure TargetComponent where
  /-- It is copied to storage. -/
  copied : Bool
  /-- It is copied to storage from storage. -/
  copiedFromStorage : Bool
  path : Option StoragePath

/-- Whether the components of a target may interfere. -/
def interfere (components : List TargetComponent) : Bool :=
  anyOverlap (components.filterMap TargetComponent.path) ||
    (components.filter TargetComponent.copied).length ≥ 2 &&
      components.any TargetComponent.copiedFromStorage

namespace Check

/-- Whether the data of a variable that an expression names is in storage. -/
def isStorageRoot (v : Variable) (t : Option Ty) : Bool :=
  v.traits.isState && !v.isConstant && !v.isImmutable || t.any Ty.isStoragePointer

/-- The place in storage that an expression names. The steps behind it are known already. -/
def storagePath (steps : List PathStep) : Expr → Check (Option StoragePath)
  | .member _ base name => storagePath (.member name :: steps) base
  | .index _ base index => do
    let value ← match index with
      | some index => evaluate index
      | none => pure none
    storagePath (.index value :: steps) base
  | .tuple _ [some inner] false => storagePath steps inner
  | .identifier node _ (some target) _ => do
    match (← read).declarations.var? target with
    | none => return none
    | some v =>
      if isStorageRoot v (← expression? node.id) then return some ⟨target, steps⟩ else return none
  | _ => return none

/-- What assigning a value to a component of the target does. -/
def targetComponent (e : Expr) (source : Option Ty) : Check TargetComponent := do
  let some t ← expression? e.id | fail (.untyped e.id)
  let copied := t.isStorageReference
  return {
    copied
    copiedFromStorage := copied && source.any fun t => t.location? == some .storage
    path := ← storagePath [] e }

/-- What assigning to a tuple does, component by component. -/
def targetComponents : List (Option Expr) → List (Option Ty) → Check (List TargetComponent)
  | [], _ => return []
  | none :: rest, sources => targetComponents rest sources.tail
  | some e :: rest, sources => do
    let component ← targetComponent e (sources.head?.bind id)
    return component :: (← targetComponents rest sources.tail)

/-- Warns of an assignment whose components may interfere. -/
def guardStorage (target : Expr) (source : Ty) (span : Span) : Check Unit := do
  match target with
  | .tuple _ components _ =>
    let sources := match source with
      | .tuple sources => sources
      | t => [some t]
    if interfere (← targetComponents components sources) then warn .doubleStorageAssignment span
  | _ => return

end Check

end ContractTyping
