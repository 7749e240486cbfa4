import ContractTyping.Check.DeclarationType

/-!
# Identifiers and overloads

A name can stand for several functions. Candidates that cannot be meant are dropped, and where the
arguments of the call are known they decide among the rest.
-/

namespace ContractTyping

/-- A declaration that a name may stand for, with its type. -/
structure Candidate where
  declaration : Declaration
  type : Ty

namespace Candidate

/-- Whether a candidate is a private function of another contract than the given one. -/
def isHidden (contract : Option NodeId) (c : Candidate) : Bool :=
  match c.declaration.item with
  | .function f => f.visibility == .priv && c.declaration.scope != contract
  | _ => false

/-- Whether a call could not tell two candidates apart. -/
def overlaps (c c' : Candidate) : Bool :=
  match c.type.function?, c'.type.function? with
  | some f, some g => f.equalParameters g && f.kind == g.kind
  | _, _ => c.type.sameSignature c'.type

/-- Keeps the first of the candidates that a call could not tell apart. -/
def distinct (candidates : List Candidate) : List Candidate :=
  candidates.foldl
    (fun kept c => if kept.any fun c' => c'.overlaps c then kept else kept ++ [c]) []

/-- Whether a candidate is a function that can take the arguments. -/
def accepts (arguments : Arguments) (c : Candidate) : Bool :=
  match c.type.function? with
  | some f => arguments.passableTo f
  | none => false

/-- The candidate that is meant, or all of them while the arguments are not known. -/
def select (name : String) (contract : Option NodeId) (candidates : List Candidate)
    (arguments : Option Arguments) : Except Issue Ty :=
  match distinct (candidates.filter fun c => !c.isHidden contract), arguments with
  | [c], _ => .ok c.type
  | [], _ => .error (.noMatchingOverload name)
  | several, none => .ok (.overloaded (several.map Candidate.type))
  | several, some arguments =>
    match several.filter (accepts arguments) with
    | [] => .error (.noMatchingOverload name)
    | [c] => .ok c.type
    | _ => .error (.ambiguousReference name)

end Candidate

/-- Whether a declaration is an external function, which needs a contract in front of its name. -/
def Declaration.isExternalMember (declaration : Declaration) : Bool :=
  match declaration.item with
  | .function f => f.visibility == .external && declaration.scope.isSome
  | _ => false

namespace Check

/-- Selects among candidates inside the current contract. -/
def selectCandidate (name : String) (candidates : List Candidate) (arguments : Option Arguments)
    (span : Span) : Check Ty := do
  orReject (Candidate.select name (← read).contractId? candidates arguments) span

/-- The declarations that a node refers to. -/
def followAll (node : NodeId) (targets : List NodeId) : Check (List Declaration) := do
  let declarations := (← read).declarations
  targets.mapM fun target =>
    match declarations.lookup? target with
    | some declaration => pure declaration
    | none => fail (.danglingReference node target)

/-- The types of several declarations of one name, without those that are invalid. -/
def candidates (declarations : List Declaration) (name : String) (span : Span) :
    Check (List Candidate) := do
  let all ← declarations.mapM fun declaration =>
    return ⟨declaration, ← declarationType declaration name span⟩
  return all.filter fun (c : Candidate) => !c.type.isInvalid

/-- The type of an identifier. Overloads count before a single declaration. -/
def identifierType (node : Node) (name : String) (target : Option NodeId) (overloads : List NodeId)
    (demand : Demand) : Check Ty := do
  let targets := if overloads.isEmpty then target.toList else overloads
  if targets.isEmpty then return ← reject (.unresolvedReference name) node.span
  let declarations ← followAll node.id targets
  match declarations.filter fun declaration => !declaration.isExternalMember with
  | [] => reject (.externalOnlyReference name) node.span
  | [declaration] => declarationType declaration name node.span
  | several => selectCandidate name (← candidates several name node.span) demand.arguments node.span

end Check

end ContractTyping
