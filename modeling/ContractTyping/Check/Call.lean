import ContractTyping.Check.Basic

/-!
# Calls

What a call does once its arguments and its callee are typed: passing arguments, constructing
structs, converting types, encoding and decoding, and setting options.
-/

namespace ContractTyping

namespace Ty

/-- Whether a type can be encoded without padding. -/
def isPackable : Ty → Bool
  | struct .. => false
  | byteArray .. => true
  | array (function ..) _ _ => false
  | array element _ _ => element.isValueType
  | t => t.isValueType

/-- The types in a list of types used as values. -/
def actuals? : Ty → Option (List Ty)
  | typeType actual => some [actual]
  | tuple components => components.mapM fun component =>
    match component with
    | some (typeType actual) => some actual
    | _ => none
  | _ => none

/-- A conversion leaves data where it is. Anything else is put into memory. -/
def conversionTarget (argument target : Ty) : Ty :=
  if target.isReferenceType then
    match argument.location? with
    | some location => target.moveTo ⟨location, location == .storage⟩
    | none => target.moveTo .memory
  else target

end Ty

/-- The kind of call that takes the arguments of a function. -/
def CallKind.context : CallKind → CallContext
  | event => .eventInvocation
  | creation => .constructorCall
  | message => .messageCall
  | _ => .functionCall

/-- Whether calls of the function can have options. -/
def CallKind.takesOptions : CallKind → Bool
  | external | creation | message | delegateCall => true
  | kind => kind.isBareCall

namespace Check

/-! ## Passing arguments -/

/-- Checks arguments by position. -/
def passPositional (context : CallContext) (span : Span) :
    List Ty → List Ty → List Span → Check Unit
  | t :: types, parameter :: parameters, spans => do
    unless t.implicitlyConvertible parameter do
      report (.argumentType context parameter t) (spans.head?.getD span)
    passPositional context span types parameters spans.tail
  | _, _, _ => pure ()

/-- Checks arguments by name, after those with the given names. -/
def passNamed (context : CallContext) (span : Span) (parameters : List Ty)
    (parameterNames : List String) :
    List String → List Ty → List Span → (before : List String) → Check Unit
  | name :: names, t :: types, spans, before => do
    let here := spans.head?.getD span
    if before.contains name then report (.duplicateNamedArgument name) here
    else if !parameterNames.contains name then report (.unknownNamedArgument name) here
    else if let some parameter := parameters[parameterNames.idxOf name]? then
      unless t.implicitlyConvertible parameter do report (.argumentType context parameter t) here
    passNamed context span parameters parameterNames names types spans.tail (name :: before)
  | _, _, _, _ => pure ()

/-- Checks the number, the names and the types of arguments. -/
def passArguments (context : CallContext) (parameters : List Ty) (parameterNames : List String)
    (arguments : Arguments) (span : Span) : Check Unit :=
  if arguments.size != parameters.length then
    report (.argumentCount context arguments.size parameters.length) span
  else if arguments.names.isEmpty then
    passPositional context span arguments.types parameters arguments.spans
  else
    passNamed context span parameters parameterNames arguments.names arguments.types
      arguments.spans []

/-! ## Types as callees -/

/-- A struct is constructed in memory, and cannot hold mappings there. -/
def constructStruct (t : Ty) (id : NodeId) (arguments : Arguments) (span : Span) : Check Ty := do
  let result := t.moveTo .memory
  if (← read).structs.containsMapping result then
    report (.invalidOperation .structWithMapping) span
  else
    let members ← structMembers id .memory
    passArguments .structConstructor (members.map Prod.snd) (members.map Prod.fst) arguments span
  return result

/-- A type in front of an argument converts it. -/
def convert (target : Ty) (arguments : Arguments) (span : Span) : Check Ty := do
  match arguments.types, arguments.names with
  | [argument], [] =>
    if argument.isInvalid then return target
    let result := argument.conversionTarget target
    unless argument.explicitlyConvertible result do
      report (.conversionNotAllowed argument result) span
    return result
  | _, _ =>
    report (.invalidOperation .conversionArguments) span
    return target

/-- `type(T)`, for contracts and integers. -/
def metaTypeOf (arguments : Arguments) (span : Span) : Check Ty := do
  match arguments.types with
  | [.invalid] => return .invalid
  | [.typeType (.contract c)] => return .metaType (.contract c)
  | [.typeType (.integer bits signed)] => return .metaType (.integer bits signed)
  | [other] => reject (.invalidOperation (.metaArgument other)) (arguments.spans.head?.getD span)
  | types => reject (.argumentCount .metaType types.length 1) span

/-! ## Encoding and decoding -/

/-- Why an argument cannot be encoded, with the type that it would be encoded as. -/
def encodingIssue? (context : Context) (packed : Bool) (argument : Ty) : Option Issue :=
  match argument with
  | .number value _ =>
    if !value.isInteger then some (.notEncodable argument .fractional)
    else if packed then some (.notEncodable argument .packedLiteral)
    else if argument.mobile?.isNone then some (.notEncodable argument .tooLarge)
    else none
  | _ =>
    if argument.isInvalid then none
    else argument.mobile?.bind fun encoded =>
      if packed && !encoded.isPackable then some (.notEncodable encoded .packedMode)
      else if !context.structs.isEncodable encoded then some (.notEncodable encoded .notEncodable)
      else if context.abiCoder == .v1 && !context.structs.isLegacyEncodable encoded false then
        some (.notEncodable encoded .needsCoderV2)
      else none

/-- Checks arguments that are to be encoded. -/
def encodeArguments (packed : Bool) (span : Span) : List Ty → List Span → Check Unit
  | [], _ => pure ()
  | argument :: rest, spans => do
    if let some issue := encodingIssue? (← read) packed argument then
      report issue (spans.head?.getD span)
    encodeArguments packed span rest spans.tail

/-- A call that encodes its arguments, after those that the function asks for. -/
def encodeCall (f : FunctionTy) (arguments : Arguments) (span : Span) : Check Unit := do
  let fixed := f.parameters.length
  if !arguments.names.isEmpty then report (.invalidOperation .namedArbitrary) span
  else if arguments.size < fixed then
    report (.argumentCount .functionCall arguments.size fixed) span
  else
    passPositional .functionCall span arguments.types f.parameters arguments.spans
    encodeArguments (f.kind == .abiEncodePacked) span (arguments.types.drop fixed)
      (arguments.spans.drop fixed)

/-- The type of decoded data. -/
def decodedType (t : Ty) (span : Span) : Check Ty := do
  let result := t.moveTo .memory
  if (← read).structs.isEncodable result then return result
  else reject (.notEncodable result .notDecodable) span

/-- `abi.decode(data, (T, ...))` gives values of the listed types. -/
def decodeCall (arguments : Arguments) (span : Span) : Check Ty := do
  match arguments.types, arguments.names with
  | [data, types], [] =>
    let dataSpan := arguments.spans.head?.getD span
    let typesSpan := arguments.spans[1]?.getD span
    unless data.isInvalid || data.implicitlyConvertible .bytesMemory ||
        data.implicitlyConvertible (.byteArray false ⟨.calldata, false⟩) do
      report (.invalidDecoding (.data data)) dataSpan
    if types == .invalid then return .invalid
    match types.actuals? with
    | none => reject (.invalidDecoding .notTypes) typesSpan
    | some actuals =>
      return FunctionTy.resultOf (← actuals.mapM fun actual => decodedType actual typesSpan)
  | [_, _], _ => reject (.invalidDecoding .named) span
  | types, _ => reject (.invalidDecoding (.argumentCount types.length)) span

/-! ## Functions as callees -/

/-- An ordinary call: arguments are passed, and the results come back. -/
def callFunction (f : FunctionTy) (arguments : Arguments) (span : Span) : Check Ty := do
  passArguments f.kind.context f.parameters f.parameterNames arguments span
  if (f.kind == .external || f.kind == .delegateCall) && f.returns.any Ty.isDynamicallySized then
    if let .error issue := (← read).requireFeature .dynamicReturn EvmVersion.supportsReturndata then
      report issue span
  return f.callResult

/-- A call of a function value. Events need an emit statement. -/
def call (f : FunctionTy) (arguments : Arguments) (emitted : Bool) (span : Span) : Check Ty := do
  match f.kind with
  | .abiEncode | .abiEncodePacked | .abiEncodeWithSelector | .abiEncodeWithSignature =>
    encodeCall f arguments span
    return .bytesMemory
  | .abiDecode => decodeCall arguments span
  | .metaType => metaTypeOf arguments span
  | .event =>
    unless emitted do report (.invalidOperation .eventWithoutEmit) span
    callFunction f arguments span
  | .selfdestruct =>
    warn .selfdestructDeprecated span
    callFunction f arguments span
  | _ => callFunction f arguments span

/-- The type of a call by the type of its callee. -/
def callType (callee : Ty) (arguments : Arguments) (emitted : Bool) (span : Span) : Check Ty :=
  match callee with
  | .invalid | .overloaded _ => return .invalid
  | .typeType (.struct id name place) => constructStruct (.struct id name place) id arguments span
  | .typeType actual => convert actual arguments span
  | .function traits parameters returns =>
    call { traits with parameters, returns } arguments emitted span
  | other => reject (.notCallable other) span

/-! ## Call options -/

/-- A function with one more option set, and the type that the option has to have. -/
def setOption (context : Context) (f : FunctionTy) (name : String) :
    Except Issue (FunctionTy × Ty) :=
  let refuse (fault : OptionFault) : Except Issue (FunctionTy × Ty) :=
    .error (.invalidCallOption fault)
  match name with
  | "salt" =>
    if f.kind != .creation then refuse .saltWithoutNew
    else do
      context.requireFeature .salt EvmVersion.hasCreate2
      if f.saltSet then refuse (.alreadySet name)
      else return ({ f with saltSet := true }, .fixedBytes 32)
  | "value" =>
    if f.kind == .delegateCall || f.kind == .bareDelegateCall then refuse .valueOfDelegateCall
    else if f.kind == .bareStaticCall then refuse .valueOfStaticCall
    else if !f.isPayable then refuse .valueNotPayable
    else if f.valueSet then refuse (.alreadySet name)
    else return ({ f with valueSet := true }, .uint256)
  | "gas" =>
    if f.kind == .creation || f.kind == .message then refuse .gasOfCreation
    else if f.gasSet then refuse (.alreadySet name)
    else return ({ f with gasSet := true }, .uint256)
  | _ => refuse (.unknown name)

/-- Sets options one after the other, after those with the given names. -/
def setOptions : FunctionTy → List (String × Ty × Span) → (before : List String) → Check FunctionTy
  | f, [], _ => return f
  | f, (name, t, span) :: rest, before => do
    if before.contains name then
      report (.invalidCallOption (.duplicate name)) span
      setOptions f rest before
    else
      match setOption (← read) f name with
      | .error issue =>
        report issue span
        setOptions f rest (name :: before)
      | .ok (f, expected) =>
        requireConvertible t expected span
        setOptions f rest (name :: before)

/-- The type of a callee with options. -/
def callOptionsType (callee : Ty) (options : List (String × Ty × Span)) (span : Span) :
    Check Ty := do
  match callee with
  | .invalid => return .invalid
  | .function traits parameters returns =>
    if traits.kind.takesOptions then
      return (← setOptions { traits with parameters, returns } options []).toTy
    else reject (.invalidCallOption .notSupported) span
  | _ => reject (.invalidCallOption .notSupported) span

end Check

end ContractTyping
