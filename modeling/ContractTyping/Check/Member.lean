import ContractTyping.Check.Overload

/-!
# Members

What can stand behind a dot: members that the language gives to a type, members of structs and
contracts, and library functions that are attached to a type.
-/

namespace ContractTyping

/-- A member, with its declaration unless the language supplies it. -/
structure Member where
  declaration : Option Declaration
  type : Ty

namespace Member

def declared (item : DeclaredItem) (scope : NodeId) (type : Ty) : Member :=
  ⟨some ⟨item, some scope⟩, type⟩

/-- The member as one of several candidates. -/
def candidate? (m : Member) : Option Candidate :=
  m.declaration.map fun declaration => ⟨declaration, m.type⟩

end Member

/-! ## Members supplied by the language -/

/-- What the language says about a member: it has a type, or it is there but cannot be used. -/
abbrev BuiltinMember := Option (Except Issue Ty)

namespace BuiltinMember

def found (t : Ty) : BuiltinMember := some (.ok t)

def function (kind : CallKind) (parameters returns : List Ty) (mutability : Mutability) :
    BuiltinMember :=
  found (FunctionTy.of kind parameters returns mutability).toTy

/-- A member that only some target machines have. -/
def gated (context : Context) (feature : Feature) (available : EvmVersion → Bool) (t : Ty) :
    BuiltinMember :=
  some ((context.requireFeature feature available).map fun _ => t)

def ofAddress (context : Context) (payable : Bool) (name : String) : BuiltinMember :=
  match name with
  | "balance" => found .uint256
  | "code" => found .bytesMemory
  | "codehash" => gated context .codeHash EvmVersion.hasExtCodeHash (.fixedBytes 32)
  | "transfer" =>
    if payable then function .transfer [.uint256] [] .nonPayable
    else some (.error (.memberNotFound name (.address payable)))
  | "send" =>
    if payable then function .send [.uint256] [.bool] .nonPayable
    else some (.error (.memberNotFound name (.address payable)))
  | "call" => function .bareCall [.bytesMemory] [.bool, .bytesMemory] .payable
  | "delegatecall" => function .bareDelegateCall [.bytesMemory] [.bool, .bytesMemory] .nonPayable
  | "staticcall" =>
    gated context .staticCall EvmVersion.hasStaticCall
      (FunctionTy.of .bareStaticCall [.bytesMemory] [.bool, .bytesMemory] .view).toTy
  | _ => none

/-- Arrays have a length. Dynamic ones in storage can also grow and shrink, but for strings. -/
def ofArray (arguments : Option Arguments) (array : Ty) (name : String) : BuiltinMember :=
  let growing : Option Ty :=
    match array with
    | .byteArray false ⟨.storage, _⟩ => some (.fixedBytes 1)
    | .array element none ⟨.storage, _⟩ => some (element.moveTo ⟨.storage, false⟩)
    | _ => none
  match name, growing with
  | "length", _ => found .uint256
  | "pop", some _ => function .arrayPop [] [] .nonPayable
  | "push", some element =>
    if arguments.any Arguments.isEmpty then function .arrayPush [] [element] .nonPayable
    else function .arrayPush [element] [] .nonPayable
  | _, _ => none

def ofFunction (kind : CallKind) (name : String) : BuiltinMember :=
  match name with
  | "selector" => if kind == .external then found (.fixedBytes 4) else none
  | "address" => if kind == .external then found (.address false) else none
  | "value" | "gas" =>
    if kind.isExternalCall || kind == .creation then
      some (.error (.invalidOperation (.memberOption name)))
    else none
  | _ => none

def ofMagic (context : Context) (kind : MagicKind) (name : String) : BuiltinMember :=
  let coding (kind : CallKind) (parameters returns : List Ty) : BuiltinMember :=
    found (FunctionTy.of kind parameters returns .pure).withArbitraryParameters.toTy
  match kind, name with
  | .message, "data" => found (.byteArray false ⟨.calldata, false⟩)
  | .message, "sender" => found (.address false)
  | .message, "sig" => found (.fixedBytes 4)
  | .message, "value" => found .uint256
  | .block, "coinbase" => found (.address true)
  | .block, "timestamp" | .block, "number" | .block, "difficulty" | .block, "gaslimit" =>
    found .uint256
  | .block, "chainid" => gated context .chainId EvmVersion.hasChainId .uint256
  | .block, "basefee" => gated context .baseFee EvmVersion.hasBaseFee .uint256
  | .transaction, "origin" => found (.address false)
  | .transaction, "gasprice" => found .uint256
  | .abi, "encode" => coding .abiEncode [] [.bytesMemory]
  | .abi, "encodePacked" => coding .abiEncodePacked [] [.bytesMemory]
  | .abi, "encodeWithSelector" => coding .abiEncodeWithSelector [.fixedBytes 4] [.bytesMemory]
  | .abi, "encodeWithSignature" => coding .abiEncodeWithSignature [.stringMemory] [.bytesMemory]
  | .abi, "decode" => coding .abiDecode [] []
  | _, _ => none

/-- What is known about a type. The code of a contract cannot be part of itself. -/
def ofMetaType (context : Context) (actual : Ty) (name : String) : BuiltinMember :=
  match actual, name with
  | .integer .., "min" | .integer .., "max" => found actual
  | .contract _, "name" => found .stringMemory
  | .contract c, "interfaceId" =>
    if (context.declarations.contract? c.id).any Contract.isInterface then found (.fixedBytes 4)
    else none
  | .contract c, "creationCode" | .contract c, "runtimeCode" =>
    if context.contractId?.any c.bases.contains then some (.error (.invalidCreation .circular))
    else found .bytesMemory
  | _, _ => none

/-- A member that the language gives to values of a type. -/
def of (context : Context) (arguments : Option Arguments) (base : Ty) (name : String) :
    BuiltinMember :=
  match base with
  | .address payable => ofAddress context payable name
  | .byteArray .. | .array .. => ofArray arguments base name
  | .fixedBytes _ => if name == "length" then found (.integer 8 false) else none
  | .function traits _ _ => ofFunction traits.kind name
  | .magic kind => ofMagic context kind name
  | .metaType actual => ofMetaType context actual name
  | _ => none

end BuiltinMember

/-! ## Declared members -/

namespace Check

/-- The field of a struct. Mappings are only there in storage. -/
def structMember (base : Ty) (id : NodeId) (location : DataLocation) (name : String) (span : Span) :
    Check (List Member) := do
  match (← structMembers id location).lookup name with
  | none => return []
  | some (.mapping key value) =>
    if location == .storage then return [⟨none, .mapping key value⟩]
    else return [⟨none, ← reject (.invalidOperation (.memberOutsideStorage name base)) span⟩]
  | some t => return [⟨none, t⟩]

/-- What a part of a contract gives to those who hold an instance. -/
def instanceMember (scope : NodeId) (name : String) (part : ContractPart) :
    Check (List Member) := do
  match part with
  | .function f =>
    if f.name == name && f.kind == .function && f.visibility.isExternallyVisible then
      return [.declared (.function f) scope (← functionType f .external).toTy]
    else return []
  | .stateVariable v =>
    if v.name == name && v.traits.visibility == .pub then
      return [.declared (.var v) scope (← getterType v).toTy]
    else return []
  | .message m =>
    if m.name == name then return [.declared (.message m) scope (← messageType m)] else return []
  | _ => return []

/-- The contracts that a contract type is made of. -/
def linearized (c : ContractTy) : Check (List Contract) :=
  return c.bases.filterMap (← read).declarations.contract?

/-- Members of an instance: visible functions, getters and messages, also of the bases. -/
def instanceMembers (c : ContractTy) (name : String) : Check (List Member) := do
  let members ← (← linearized c).mapM fun definition =>
    definition.parts.mapM (instanceMember definition.id name)
  return members.flatten.flatten

/-- What a function is through `super`: the bases' own implementations can be called. -/
def superMember (scope : NodeId) (name : String) (f : Function) : Check (List Member) := do
  if f.name == name && f.kind == .function && f.visibility != .priv && f.visibility != .external &&
      f.isImplemented then
    return [.declared (.function f) scope (← functionType f .internal).toTy]
  else return []

/-- Members of `super`: functions of the contracts after the current one. -/
def superMembers (c : ContractTy) (name : String) : Check (List Member) := do
  let members ← ((← linearized c).drop 1).mapM fun definition =>
    definition.functions.mapM (superMember definition.id name)
  return members.flatten.flatten

/-- How a function is called through the name of its contract. -/
def kindThroughName? (definition : Contract) (isBase : Bool) (visibility : Visibility) :
    Option CallKind :=
  if definition.isLibrary then
    if visibility == .priv && !isBase then none
    else if visibility.isExternallyVisible then some .delegateCall
    else some .internal
  else if isBase && visibility != .external then some .internal
  else if visibility.isExternallyVisible then some .external
  else none

/-- What a part of a contract is through the contract's name. -/
def typeMember (definition : Contract) (isBase : Bool) (name : String) (part : ContractPart) :
    Check (List Member) := do
  match part with
  | .function f =>
    if f.name == name && f.kind == .function then
      match kindThroughName? definition isBase f.visibility with
      | some kind => return [.declared (.function f) definition.id (← functionType f kind).toTy]
      | none => return []
    else return []
  | .struct s =>
    if s.name == name then
      let t := (← read).declarations.structTy s (some definition.id) ⟨.storage, true⟩
      return [⟨none, .typeType t⟩]
    else return []
  | .event e =>
    if e.name == name then return [.declared (.event e) definition.id (← eventType e)]
      else return []
  | _ => return []

/-- Members of a contract's name: functions, structs and events. -/
def typeMembers (c : ContractTy) (name : String) : Check (List Member) := do
  let context ← read
  match context.declarations.contract? c.id with
  | none => return []
  | some definition =>
    let isBase := context.scope.contract.any fun current =>
      (context.declarations.linearized current).contains definition.id
    return (← definition.parts.mapM (typeMember definition isBase name)).flatten

/-- Members that a declaration gives to a type. -/
def declaredMembers (base : Ty) (name : String) (span : Span) : Check (List Member) :=
  match base with
  | .struct id _ place => structMember base id place.location name span
  | .contract c => if c.isSuper then superMembers c name else instanceMembers c name
  | .typeType (.contract c) => typeMembers c name
  | _ => return []

/-! ## Attached library functions -/

/-- The directives in force: those of the file, then those of the contract and its bases. -/
def directives : Check (List UsingFor) := do
  let context ← read
  let inherited := match context.scope.contract with
    | some c =>
      ((context.declarations.linearized c).filterMap context.declarations.contract?).flatMap
        Contract.usingForDirectives
    | none => []
  return context.unit.usingForDirectives ++ inherited

/-- Whether a directive is about a type, wherever its data lives. -/
def directiveApplies (directive : UsingFor) (base : Ty) : Check Bool := do
  match directive.typeName with
  | none => return true
  | some typeName =>
    match ← resolve typeName ⟨.storage, true⟩ with
    | .ok target => return target.moveTo .memory == base.moveTo .memory
    | .error _ => return false

/-- A library function with its first parameter taken from the value in front of the dot. -/
def attachedFunction (base : Ty) (library : Contract) (name : String) (f : Function) :
    Check (List Member) := do
  if f.name != name || f.parameters.isEmpty || f.visibility == .priv then return []
  let kind := if f.visibility.isExternallyVisible then CallKind.delegateCall else .internal
  let type ← functionType f kind
  match type.parameters with
  | self :: parameters =>
    if base.implicitlyConvertible self then
      let type := { type with
        parameters
        parameterNames := type.parameterNames.drop 1
        bound := true }
      return [.declared (.function f) library.id type.toTy]
    else return []
  | [] => return []

/-- The library that a directive names. -/
def directiveLibrary (directive : UsingFor) : Check (Option Contract) := do
  let declarations := (← read).declarations
  return (directive.library.target.bind declarations.contract?).filter Contract.isLibrary

/-- The functions that directives attach to a type. No library is attached twice. -/
def attachedFunctions (base : Ty) (name : String) : List UsingFor → (attached : List NodeId) →
    Check (List Member)
  | [], _ => return []
  | directive :: rest, attached => do
    match ← directiveLibrary directive with
    | none => attachedFunctions base name rest attached
    | some library =>
      if attached.contains library.id then attachedFunctions base name rest attached
      else if ← directiveApplies directive base then
        let members ← library.functions.mapM (attachedFunction base library name)
        return members.flatten ++ (← attachedFunctions base name rest (library.id :: attached))
      else attachedFunctions base name rest attached

/-! ## All together -/

def isTypeType : Ty → Bool
  | .typeType _ => true
  | _ => false

/-- Selects one of the declared and attached members. -/
def selectMember (members : List Member) (base : Ty) (name : String) (arguments : Option Arguments)
    (span : Span) : Check Ty :=
  match members with
  | [] => reject (.memberNotFound name base) span
  | [member] => return member.type
  | several => selectCandidate name (several.filterMap Member.candidate?) arguments span

/-- The type of a member of a typed expression. -/
def memberType (base : Ty) (name : String) (arguments : Option Arguments) (span : Span) :
    Check Ty := do
  if base.isInvalid then return .invalid
  match BuiltinMember.of (← read) arguments base name with
  | some result => orReject result span
  | none =>
    let members ← declaredMembers base name span
    let attached ← if isTypeType base then pure []
      else attachedFunctions base name (← directives) []
    selectMember (members ++ attached) base name arguments span

end Check

end ContractTyping
