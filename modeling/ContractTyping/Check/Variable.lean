import ContractTyping.Check.Expression

/-!
# Checking variables

The type of a declared variable, whether its data location fits, and its initial value.
-/

namespace ContractTyping

namespace Check

/-- Why a variable cannot have the data location it is declared with. -/
def locationFault? (role : VariableRole) (t : Ty) (given : LocationKeyword) :
    Option LocationFault :=
  let allowed := role.allowedLocations
  if !t.isReferenceType then
    if given == .unspecified then none else some (.notReference given)
  else if allowed.isEmpty then
    if given == .unspecified then none else some (.notSelectable role)
  else
    match t with
    | .mapping .. => if given == .storage && allowed.contains .storage then none else some .mapping
    | _ => if allowed.contains given then none else some (.notAllowed role given)

/-- Why a type cannot cross the interface of a contract. Libraries get references to storage. -/
def crossingIssue? (context : Context) (t : Ty) (isLibrary : Bool) (crossing : Crossing) :
    Option Issue :=
  if isLibrary && t.location? == some .storage then none
  else if !context.structs.isEncodable t then some (.notEncodable t (.crossing crossing))
  else if context.abiCoder == .v1 && !context.structs.isLegacyEncodable t isLibrary then
    some (.notEncodable t .needsCoderV2)
  else none

/-- Reports a type that cannot cross the interface of a contract. -/
def requireCrossing (t : Ty) (isLibrary : Bool) (crossing : Crossing) (span : Span) :
    Check Unit := do
  if let some issue := crossingIssue? (← read) t isLibrary crossing then report issue span

/-- The types of parameters of visible functions have to cross the interface. -/
def requireParameter (role : VariableRole) (t : Ty) (span : Span) : Check Unit := do
  match role with
  | .parameter visibility isLibrary _ =>
    if visibility.isExternallyVisible then requireCrossing t isLibrary .function span
  | _ => return

/-- Finds and records the type of a variable. Its initial value is left alone. -/
def declare (v : Variable) (role : VariableRole) : Check Ty := do
  let t ← orReject (← ofExcept ((← read).declarations.declaredType v).run) v.typeSpan
  unless t.isInvalid do
    if let some fault := locationFault? role t v.traits.location then
      report (.invalidDataLocation fault) v.span
    requireParameter role t v.span
  annotateVariable v.id t
  return t

/-- Checks variables of one role in order. -/
def declareAll (vars : List Variable) (role : VariableRole) : Check (List Ty) :=
  vars.mapM fun v => declare v role

/-- Checks a state variable after its type is known: constants need a value, and neither constants
nor immutables can be of every type. -/
def stateVariableValue (v : Variable) (t : Ty) : Check Unit := do
  let invalid (fault : DeclarationFault) (span : Span) := report (.invalidDeclaration fault) span
  if v.isConstant then
    unless t.isValueType || t.isByteArray || t.isInvalid do invalid .constantType v.span
    if v.value.isNone then invalid .constantUninitialized v.span
  if v.isImmutable && !t.isValueType && !t.isInvalid then invalid .immutableType v.span
  if let some value := v.value then
    match t with
    | .mapping .. => if v.traits.isState then invalid .mappingInitialized value.span
    | _ => pure ()
    expect value t

end Check

end ContractTyping
