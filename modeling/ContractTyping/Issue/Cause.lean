import ContractTyping.Literal.Number
import ContractTyping.Ty.Display
import ContractTyping.Ty.Elementary

/-!
# Causes

Some kinds of issue cover many causes. Each such kind has a type of causes here, with the wording of
every cause in one function `message`.
-/

namespace ContractTyping

/-! ## Declarations -/

/-- What is wrong with the signature of a function. -/
inductive SignatureFault
  | interfaceVisibility
  | interfaceImplementation
  | libraryConstructor
  | libraryFallback
  | libraryReceive
  | libraryPayable
  | fallbackVisibility
  | fallbackMutability (given : Mutability)
  | fallbackParameters
  | fallbackReturns
  | receiveVisibility
  | receiveMutability (given : Mutability)
  | receiveParameters
  | receiveReturns
  | constructorMutability (given : Mutability)
  | constructorReturns
  | unimplemented
  | freeUnimplemented
  | freeVisibility
deriving DecidableEq, Repr

def SignatureFault.message : SignatureFault → String
  | interfaceVisibility => "Functions in interfaces must be declared external."
  | interfaceImplementation => "Functions in interfaces cannot have an implementation."
  | libraryConstructor => "Constructor cannot be defined in libraries."
  | libraryFallback => "Libraries cannot have fallback functions."
  | libraryReceive => "Libraries cannot have receive ether functions."
  | libraryPayable => "Library functions cannot be payable."
  | fallbackVisibility => "Fallback function must be defined as \"external\"."
  | fallbackMutability given =>
    "Fallback function must be payable or non-payable, but is \"" ++ given.word ++ "\"."
  | fallbackParameters => "Fallback function cannot take parameters."
  | fallbackReturns => "Fallback function cannot return values."
  | receiveVisibility => "Receive ether function must be defined as \"external\"."
  | receiveMutability given =>
    "Receive ether function must be payable, but is \"" ++ given.word ++ "\"."
  | receiveParameters => "Receive ether function cannot take parameters."
  | receiveReturns => "Receive ether function cannot return values."
  | constructorMutability given =>
    "Constructor must be payable or non-payable, but is \"" ++ given.word ++ "\"."
  | constructorReturns => "Non-empty \"returns\" directive for constructor."
  | unimplemented => "Functions without implementation must be marked virtual."
  | freeUnimplemented => "Free functions must be implemented."
  | freeVisibility => "Free functions cannot have visibility."

/-- What is wrong with another declaration. -/
inductive DeclarationFault
  | contractExpected
  | libraryExpected
  | libraryBase
  | libraryInherits
  | interfaceBase
  | interfaceArguments
  | interfaceVariable
  | interfaceConstructor
  | libraryVariable
  | notAbstract (contract : String)
  | anonymousEventIndexed
  | eventIndexed
  | emptyStruct
  | infiniteStruct
  | untyped
  | uninitializedMapping
  | uninitializedPointer
  | constantType
  | constantUninitialized
  | immutableType
  | mappingInitialized
deriving DecidableEq, Repr

def DeclarationFault.message : DeclarationFault → String
  | contractExpected => "Contract expected."
  | libraryExpected => "Library name expected."
  | libraryBase => "Libraries cannot be inherited from."
  | libraryInherits => "Library is not allowed to inherit."
  | interfaceBase => "Interfaces can only inherit from other interfaces."
  | interfaceArguments => "Interfaces cannot be given constructor arguments."
  | interfaceVariable => "Variables cannot be declared in interfaces."
  | interfaceConstructor => "Constructor cannot be defined in interfaces."
  | libraryVariable => "Library cannot have non-constant state variables"
  | notAbstract contract => "Contract \"" ++ contract ++ "\" should be marked as abstract."
  | anonymousEventIndexed => "More than 4 indexed arguments for anonymous event."
  | eventIndexed => "More than 3 indexed arguments for event."
  | emptyStruct => "Defining empty structs is disallowed."
  | infiniteStruct => "Recursive struct definition."
  | untyped => "Use of the \"var\" keyword is disallowed."
  | uninitializedMapping =>
    "Uninitialized mapping. Mappings cannot be created dynamically, you have to assign them " ++
    "from a state variable."
  | uninitializedPointer =>
    "This variable is of storage pointer type and can be accessed without prior assignment, " ++
    "which would lead to undefined behaviour."
  | constantType => "Constants of non-value type not yet implemented."
  | constantUninitialized => "Uninitialized \"constant\" variable."
  | immutableType => "Immutable variables cannot have a non-value type."
  | mappingInitialized => "Mappings cannot be initialized."

/-- What a variable is declared as. It decides which data locations may be written. -/
inductive VariableRole
  | state
  | parameter (visibility : Visibility) (isLibrary isReturn : Bool)
  | localVariable
  | eventParameter
  | messageParameter
  | catchParameter
deriving DecidableEq, Repr

namespace VariableRole

/-- The data locations that a variable of reference type may have. -/
def allowedLocations : VariableRole → List LocationKeyword
  | state | eventParameter | messageParameter => []
  | parameter visibility isLibrary _ =>
    if !isLibrary && visibility.isExternallyVisible then [.memory, .calldata]
    else [.storage, .memory, .calldata]
  | localVariable => [.storage, .memory, .calldata]
  | catchParameter => [.memory]

def description : VariableRole → String
  | state => "state variable"
  | parameter _ _ isReturn =>
    if isReturn then "return parameter in function" else "parameter in function"
  | localVariable => "variable"
  | eventParameter => "event parameter"
  | messageParameter => "message parameter"
  | catchParameter => "parameter in catch clause"

end VariableRole

/-- Quoted words, the last one after "or". -/
def alternatives : List String → String
  | [] => ""
  | [word] => "\"" ++ word ++ "\""
  | [first, last] => "\"" ++ first ++ "\" or \"" ++ last ++ "\""
  | first :: rest => "\"" ++ first ++ "\", " ++ alternatives rest

/-- What is wrong with the data location of a variable. -/
inductive LocationFault
  | notReference (given : LocationKeyword)
  | notSelectable (role : VariableRole)
  | mapping
  | notAllowed (role : VariableRole) (given : LocationKeyword)
deriving DecidableEq, Repr

def LocationFault.message : LocationFault → String
  | notReference given =>
    "Data location can only be specified for array, struct or mapping types, but \"" ++
      given.label ++ "\" was given."
  | notSelectable role => "Data location cannot be specified for " ++ role.description ++ "."
  | mapping =>
    "Mapping types can only have a data location of \"storage\" and thus only be parameters or " ++
    "return variables for internal or library functions."
  | notAllowed role given =>
    "Data location must be " ++ alternatives (role.allowedLocations.map LocationKeyword.label) ++
      " for " ++ role.description ++ ", but " ++
      (if given == .unspecified then "none" else "\"" ++ given.label ++ "\"") ++ " was given."

/-- Why a type name denotes no type. -/
inductive TypeNameFault
  | elementary (refusal : ElementaryRefusal)
  | notType
  | mappingKey
  | zeroLength
  | arrayLength
deriving DecidableEq, Repr

def TypeNameFault.message : TypeNameFault → String
  | elementary refusal => refusal.message
  | notType => "Name has to refer to a struct, enum or contract."
  | mappingKey =>
    "Only elementary types, user defined value types, contract types or enums are allowed as " ++
    "mapping keys."
  | zeroLength => "Array with zero length specified."
  | arrayLength => "Invalid array length, expected integer literal or constant expression."

/-! ## Statements -/

/-- What is wrong with a statement. -/
inductive StatementFault
  | placeholder
  | notEvent
  | returnArguments
  | returnCount
  | tryCallee
  | duplicateCatch (errorName : String)
  | missingCatch
  | clauseCount (returned declared : Nat)
  | clauseType (returned declared : Ty)
  | catchLowLevel
  | catchError
  | catchPanic
  | catchName
deriving DecidableEq, Repr

def StatementFault.message : StatementFault → String
  | placeholder => "\"_\" can only be used inside a modifier body."
  | notEvent => "Expression has to be an event invocation."
  | returnArguments => "Return arguments not allowed."
  | returnCount => "Different number of arguments in return statement than in returns declaration."
  | tryCallee => "Try can only be used with external function calls and contract creation calls."
  | duplicateCatch errorName =>
    if errorName.isEmpty then "This try statement already has a low-level catch clause."
    else "This try statement already has an \"" ++ errorName ++ "\" catch clause."
  | missingCatch => "Try statement needs at least one catch clause."
  | clauseCount returned declared =>
    "Function returns " ++ Nat.repr returned ++ " values, but returns clause has " ++
      Nat.repr declared ++ " variables."
  | clauseType returned declared =>
    "Invalid type, expected " ++ returned.text ++ " but got " ++ declared.text ++ "."
  | catchLowLevel => "Expected `catch (bytes memory ...) \x7b ... \x7d` or `catch \x7b ... \x7d`."
  | catchError => "Expected `catch Error(string memory ...) \x7b ... \x7d`."
  | catchPanic => "Expected `catch Panic(uint ...) \x7b ... \x7d`."
  | catchName =>
    "Invalid catch clause name. Expected either `catch (...)`, `catch Error(...)`, or " ++
    "`catch Panic(...)`."

/-! ## Expressions -/

/-- Why an expression cannot be assigned to. -/
inductive AssignmentFault
  | notLvalue
  | compoundTuple
  | inlineArray
  | constant
  | immutable
  | calldataStruct
  | arrayLength
  | calldataArray
  | fixedByte
  | mapping
  | containsMapping
deriving DecidableEq, Repr

def AssignmentFault.message : AssignmentFault → String
  | notLvalue => "Expression has to be an lvalue."
  | compoundTuple => "Compound assignment is not allowed for tuple types."
  | inlineArray => "Inline array type cannot be declared as LValue."
  | constant => "Cannot assign to a constant variable."
  | immutable =>
    "Cannot write to immutable here: Immutable variables can only be initialized inline or " ++
    "assigned directly in the constructor."
  | calldataStruct => "Calldata structs are read-only."
  | arrayLength => "Member \"length\" is read-only and cannot be used to resize arrays."
  | calldataArray => "Calldata arrays are read-only."
  | fixedByte => "Single bytes in fixed bytes arrays cannot be modified."
  | mapping => "Mappings cannot be assigned to."
  | containsMapping => "Types in storage containing (nested) mappings cannot be assigned to."

/-- What is wrong with an index or a slice. -/
inductive IndexFault
  | omitted
  | string
  | outOfBounds
  | notConstant
  | notIndexable (base : Ty)
  | slice
deriving DecidableEq, Repr

def IndexFault.message : IndexFault → String
  | omitted => "Index expression cannot be omitted."
  | string => "Index access for string is not possible."
  | outOfBounds => "Out of bounds array access."
  | notConstant => "Integer constant expected."
  | notIndexable base =>
    "Indexed expression has to be a type, mapping or array (is " ++ base.text ++ ")."
  | slice => "Index range access is only supported for dynamic calldata arrays."

/-- Why a literal has no value. -/
inductive LiteralFault
  | number (refusal : NumberLiteral.Refusal)
  | tooLarge
  | hexDigits
deriving DecidableEq, Repr

def LiteralFault.message : LiteralFault → String
  | number refusal => refusal.message
  | tooLarge => "Number literal too large."
  | hexDigits => "Expected even number of hex-nibbles."

/-- Why nothing can be created. -/
inductive CreationFault
  | interface
  | library
  | isAbstract
  | circular
  | arrayLength
  | notCreatable
deriving DecidableEq, Repr

def CreationFault.message : CreationFault → String
  | interface => "Cannot instantiate an interface."
  | library => "Instantiating libraries is not supported yet."
  | isAbstract => "Cannot instantiate an abstract contract."
  | circular =>
    "Circular reference to contract bytecode either via \"new\" or \"type(...).creationCode\" / " ++
    "\"type(...).runtimeCode\"."
  | arrayLength => "Length has to be placed in parentheses after the array type for new expression."
  | notCreatable => "Contract or array type expected."

/-- Why an operation does not fit the types it is used with. -/
inductive OperationFault
  | eventWithoutEmit
  | structWithMapping
  | conversionArguments
  | metaArgument (given : Ty)
  | namedArbitrary
  | componentCount (left right : Nat)
  | emptyComponent
  | emptyElement
  | elementType
  | memberOption (name : String)
  | memberOutsideStorage (name : String) (base : Ty)
deriving DecidableEq, Repr

def OperationFault.message : OperationFault → String
  | eventWithoutEmit => "Event invocations have to be prefixed by \"emit\"."
  | structWithMapping => "Struct containing a (nested) mapping cannot be constructed."
  | conversionArguments => "Exactly one argument expected for explicit type conversion."
  | metaArgument given =>
    "Invalid type for argument in the function call. A contract type or an integer type is " ++
    "required, but " ++ given.text ++ " provided."
  | namedArbitrary => "Named arguments cannot be used for functions that take arbitrary parameters."
  | componentCount left right =>
    "Different number of components on the left hand side (" ++ Nat.repr left ++
      ") than on the right hand side (" ++ Nat.repr right ++ ")."
  | emptyComponent => "Tuple component cannot be empty."
  | emptyElement => "Inline array with empty component."
  | elementType => "Unable to deduce common type for array elements."
  | memberOption name =>
    "Using \"." ++ name ++ "(...)\" is deprecated. Use \"\x7b" ++ name ++ ": ...\x7d\" instead."
  | memberOutsideStorage name base =>
    "Member \"" ++ name ++ "\" is not available in " ++ base.text ++ " outside of storage."

/-! ## Calls -/

/-- What kind of call takes the arguments. -/
inductive CallContext
  | functionCall
  | constructorCall
  | eventInvocation
  | messageCall
  | structConstructor
  | modifierInvocation
  | metaType
deriving DecidableEq, Repr

def CallContext.text : CallContext → String
  | functionCall => "function call"
  | constructorCall => "constructor call"
  | eventInvocation => "event invocation"
  | messageCall => "message call"
  | structConstructor => "struct constructor"
  | modifierInvocation => "modifier invocation"
  | metaType => "type(...)"

/-- Where a type crosses the interface of a contract. -/
inductive Crossing
  | function
  | getter
  | event
  | message
deriving DecidableEq, Repr

def Crossing.text : Crossing → String
  | function => "public or external functions"
  | getter => "getters of public state variables"
  | event => "event parameters"
  | message => "message parameters"

/-- Why a type cannot be encoded. -/
inductive EncodingFault
  | fractional
  | packedLiteral
  | tooLarge
  | packedMode
  | notEncodable
  | needsCoderV2
  | notDecodable
  | messageWithMapping
  | crossing (place : Crossing)
deriving DecidableEq, Repr

def EncodingFault.message : EncodingFault → String
  | fractional => "Fractional numbers cannot yet be encoded."
  | packedLiteral =>
    "Cannot perform packed encoding for a literal. Please convert it to an explicit type first."
  | tooLarge => "Invalid rational number (too large or division by zero)."
  | packedMode => "Type not supported in packed mode."
  | notEncodable => "This type cannot be encoded."
  | needsCoderV2 =>
    "This type is only supported in ABI coder v2. Use \"pragma abicoder v2;\" to enable the " ++
    "feature."
  | notDecodable => "Decoding type not supported."
  | messageWithMapping => "Types containing mappings cannot be passed in messages."
  | crossing place => "Internal or recursive type is not allowed for " ++ place.text ++ "."

/-- What is wrong with a call that decodes. -/
inductive DecodingFault
  | argumentCount (given : Nat)
  | named
  | data (given : Ty)
  | notTypes
deriving DecidableEq, Repr

def DecodingFault.message : DecodingFault → String
  | argumentCount given =>
    "This function takes two arguments, but " ++ Nat.repr given ++ " were provided."
  | named => "Named arguments cannot be used for functions that take arbitrary parameters."
  | data given =>
    "The first argument to \"abi.decode\" must be implicitly convertible to bytes memory or " ++
    "bytes calldata, but is of type " ++ given.text ++ "."
  | notTypes => "The second argument to \"abi.decode\" has to be a tuple of types."

/-- What is wrong with a call option. -/
inductive OptionFault
  | notSupported
  | duplicate (name : String)
  | alreadySet (name : String)
  | unknown (name : String)
  | saltWithoutNew
  | valueOfDelegateCall
  | valueOfStaticCall
  | valueNotPayable
  | gasOfCreation
deriving DecidableEq, Repr

def OptionFault.message : OptionFault → String
  | notSupported =>
    "Function call options can only be set on external function calls or contract creations."
  | duplicate name => "Duplicate option \"" ++ name ++ "\"."
  | alreadySet name => "Option \"" ++ name ++ "\" has already been set."
  | unknown name =>
    "Unknown call option \"" ++ name ++ "\". Valid options are \"salt\", \"value\" and \"gas\"."
  | saltWithoutNew => "Function call option \"salt\" can only be used with \"new\"."
  | valueOfDelegateCall => "Cannot set option \"value\" for delegatecall."
  | valueOfStaticCall => "Cannot set option \"value\" for staticcall."
  | valueNotPayable => "Cannot set option \"value\" on a non-payable function type."
  | gasOfCreation => "Function call option \"gas\" cannot be used with \"new\" or messages."

/-- A feature that only some target machines have. -/
inductive Feature
  | dynamicReturn
  | salt
  | codeHash
  | staticCall
  | chainId
  | baseFee
  | catchClause (errorName : String)
deriving DecidableEq, Repr

def Feature.text : Feature → String
  | dynamicReturn => "returning dynamically-sized data from an external call"
  | salt => "salt"
  | codeHash => "codehash"
  | staticCall => "staticcall"
  | chainId => "chainid"
  | baseFee => "basefee"
  | catchClause errorName => "catch " ++ errorName ++ "(...)"

/-- A call whose result should not be dropped. -/
inductive UnusedResult
  | lowLevelCall
  | send
deriving DecidableEq, Repr

def UnusedResult.message : UnusedResult → String
  | lowLevelCall => "Return value of low-level calls not used."
  | send => "Failure condition of 'send' ignored. Consider using 'transfer' instead."

end ContractTyping
