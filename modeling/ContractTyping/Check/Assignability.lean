import ContractTyping.Check.Basic

/-!
# What can be assigned to

Variables that may change, and the parts of data that can be reached from them. The expression has
been typed already, so its parts have recorded types.
-/

namespace ContractTyping

namespace Check

/-- Why an identifier cannot be assigned to. Only its single declaration counts. -/
def identifierFault? (context : Context) (target : Option NodeId) : Option AssignmentFault :=
  match target.bind context.declarations.var? with
  | none => some .notLvalue
  | some v =>
    if v.isConstant then some .constant
    else if v.isImmutable && !context.scope.function.any Function.isConstructor then some .immutable
    else none

/-- Why a member cannot be assigned to, by the type in front of the dot. -/
def memberFault? (base : Option Ty) (name : String) : Option AssignmentFault :=
  match base with
  | some (.struct _ _ place) => if place.location == .calldata then some .calldataStruct else none
  | some (.byteArray ..) | some (.array ..) =>
    if name == "length" then some .arrayLength else some .notLvalue
  | _ => some .notLvalue

/-- Why an element cannot be assigned to, by the type that is indexed. -/
def elementFault? (base : Option Ty) : Option AssignmentFault :=
  match base with
  | some (.byteArray _ place) | some (.array _ _ place) =>
    if place.location == .calldata then some .calldataArray else none
  | some (.mapping ..) => none
  | some (.fixedBytes _) => some .fixedByte
  | _ => some .notLvalue

/-- Why data of a type cannot be assigned to. -/
def mappingFault? (t : Ty) (ordinary : Bool) : Option AssignmentFault :=
  match t with
  | .mapping .. => some (if ordinary then .mapping else .containsMapping)
  | _ => none

def reportFault (fault : Option AssignmentFault) (span : Span) : Check Unit := do
  if let some fault := fault then report (.notAssignable fault) span

mutual

/-- Reports what cannot be assigned to. An ordinary assignment replaces the whole value. -/
def requireAssignable (ordinary : Bool) : Expr → Check Unit
  | .tuple node components isInlineArray => do
    let some t ← expression? node.id | fail (.untyped node.id)
    if t.isInvalid then return
    if isInlineArray then report (.notAssignable .inlineArray) node.span
    else requireComponents ordinary components
  | e => do
    let some t ← expression? e.id | fail (.untyped e.id)
    if t.isInvalid then return
    let fault ← match e with
      | .identifier _ _ target _ => pure (identifierFault? (← read) target)
      | .member _ base name => pure (memberFault? (← expression? base.id) name)
      | .index _ base _ => pure (elementFault? (← expression? base.id))
      | _ => pure (some .notLvalue)
    reportFault (fault.or (mappingFault? t ordinary)) e.span

/-- Every component that is there has to be assignable. -/
def requireComponents (ordinary : Bool) : List (Option Expr) → Check Unit
  | [] => return
  | none :: rest => requireComponents ordinary rest
  | some e :: rest => do
    requireAssignable ordinary e
    requireComponents ordinary rest

end

end Check

end ContractTyping
