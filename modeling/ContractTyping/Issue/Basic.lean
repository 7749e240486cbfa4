import ContractTyping.Issue.Cause
import ContractTyping.Json.Value
import ContractTyping.Settings

/-!
# Issues

What the check has to say about a source unit. An issue has a name, belongs to a category, is worded
as a message and sometimes comes with a tip.
-/

namespace ContractTyping

inductive Category
  | structural
  | reference
  | type
  | abi
  | warning
deriving DecidableEq, Repr

def Category.text : Category → String
  | structural => "StructuralError"
  | reference => "ReferenceError"
  | type => "TypeError"
  | abi => "ABIError"
  | warning => "Warning"

inductive Issue
  | inheritanceCycle (contract : String)
  | functionSignature (fault : SignatureFault)
  | invalidDeclaration (fault : DeclarationFault)
  | invalidDataLocation (fault : LocationFault)
  | invalidStatement (fault : StatementFault)
  | unresolvedReference (name : String)
  | externalOnlyReference (name : String)
  | ambiguousReference (name : String)
  | noMatchingOverload (name : String)
  | memberNotFound (name : String) (base : Ty)
  | notModifierOrBase (name : String)
  | typeMismatch (expected received : Ty)
  | notAssignable (fault : AssignmentFault)
  | operatorNotApplicable (op : UnaryOp) (operand : Ty)
  /-- A compound assignment is an operator of its own. -/
  | operatorNotCompatible (op : BinaryOp) (compound : Bool) (left right : Ty)
  | noCommonType (left right : Ty)
  | invalidIndex (fault : IndexFault)
  | notAwaitable (given : Ty)
  | argumentCount (context : CallContext) (given expected : Nat)
  | unknownNamedArgument (name : String)
  | duplicateNamedArgument (name : String)
  | argumentType (context : CallContext) (expected received : Ty)
  | conversionNotAllowed (source target : Ty)
  | invalidLiteral (value : String) (fault : LiteralFault)
  | invalidTypeName (fault : TypeNameFault)
  | notCallable (callee : Ty)
  | invalidCreation (fault : CreationFault)
  | featureUnavailable (feature : Feature) (version : EvmVersion)
  | invalidOperation (fault : OperationFault)
  | notEncodable (given : Ty) (fault : EncodingFault)
  | invalidDecoding (fault : DecodingFault)
  | invalidCallOption (fault : OptionFault)
  | doubleStorageAssignment
  | selfdestructDeprecated
  | unusedCallResult (result : UnusedResult)
deriving DecidableEq, Repr

namespace Issue

def name : Issue → String
  | inheritanceCycle _ => "InheritanceCycle"
  | functionSignature _ => "FunctionSignature"
  | invalidDeclaration _ => "InvalidDeclaration"
  | invalidDataLocation _ => "InvalidDataLocation"
  | invalidStatement _ => "InvalidStatement"
  | unresolvedReference _ => "UnresolvedReference"
  | externalOnlyReference _ => "ExternalOnlyReference"
  | ambiguousReference _ => "AmbiguousReference"
  | noMatchingOverload _ => "NoMatchingOverload"
  | memberNotFound .. => "MemberNotFound"
  | notModifierOrBase _ => "NotModifierOrBase"
  | typeMismatch .. => "TypeMismatch"
  | notAssignable _ => "NotAssignable"
  | operatorNotApplicable .. => "OperatorNotApplicable"
  | operatorNotCompatible .. => "OperatorNotCompatible"
  | noCommonType .. => "NoCommonType"
  | invalidIndex _ => "InvalidIndexOperation"
  | notAwaitable _ => "NotAwaitable"
  | argumentCount .. => "ArgumentCount"
  | unknownNamedArgument _ => "UnknownNamedArgument"
  | duplicateNamedArgument _ => "DuplicateNamedArgument"
  | argumentType .. => "ArgumentType"
  | conversionNotAllowed .. => "ExplicitConversionNotAllowed"
  | invalidLiteral .. => "InvalidLiteral"
  | invalidTypeName _ => "InvalidTypeName"
  | notCallable _ => "NotCallable"
  | invalidCreation _ => "InvalidNewExpression"
  | featureUnavailable .. => "FeatureUnavailable"
  | invalidOperation _ => "InvalidTypeOperation"
  | notEncodable .. => "NotAbiEncodable"
  | invalidDecoding _ => "InvalidAbiDecodeUsage"
  | invalidCallOption _ => "InvalidCallOption"
  | doubleStorageAssignment => "DoubleStorageAssignment"
  | selfdestructDeprecated => "Deprecated"
  | unusedCallResult _ => "UnusedCallResult"

def category : Issue → Category
  | inheritanceCycle _ | functionSignature _ | invalidDeclaration _ | invalidDataLocation _
  | invalidStatement _ => .structural
  | unresolvedReference _ | externalOnlyReference _ | ambiguousReference _ | noMatchingOverload _
  | memberNotFound .. | notModifierOrBase _ => .reference
  | typeMismatch .. | notAssignable _ | operatorNotApplicable .. | operatorNotCompatible ..
  | noCommonType .. | invalidIndex _ | notAwaitable _ | argumentCount .. | unknownNamedArgument _
  | duplicateNamedArgument _ | argumentType .. | conversionNotAllowed .. | invalidLiteral ..
  | invalidTypeName _ | notCallable _ | invalidCreation _ | featureUnavailable ..
  | invalidOperation _ => .type
  | notEncodable .. | invalidDecoding _ | invalidCallOption _ => .abi
  | doubleStorageAssignment | selfdestructDeprecated | unusedCallResult _ => .warning

/-- The symbol of a binary operator, with an equals sign behind that of a compound assignment. -/
def operatorSymbol (op : BinaryOp) (compound : Bool) : String :=
  op.word ++ (if compound then "=" else "")

def message : Issue → String
  | inheritanceCycle contract =>
    "Definition of base has to precede definition of derived contract: " ++ contract ++
      " inherits from itself."
  | functionSignature fault => fault.message
  | invalidDeclaration fault => fault.message
  | invalidDataLocation fault => fault.message
  | invalidStatement fault => fault.message
  | unresolvedReference name => "Undeclared identifier \"" ++ name ++ "\"."
  | externalOnlyReference name =>
    "\"" ++ name ++ "\" is an external function and only reachable via \"this." ++ name ++ "\"."
  | ambiguousReference name =>
    "No unique declaration found after argument-dependent lookup of \"" ++ name ++ "\"."
  | noMatchingOverload name =>
    "No matching declaration found after argument-dependent lookup of \"" ++ name ++ "\"."
  | memberNotFound name base =>
    "Member \"" ++ name ++ "\" not found or not visible after argument-dependent lookup in " ++
      base.text ++ "."
  | notModifierOrBase name =>
    "Referenced declaration \"" ++ name ++ "\" is neither modifier nor base class."
  | typeMismatch expected received =>
    "Type " ++ received.text ++ " is not implicitly convertible to expected type " ++
      expected.text ++ "."
  | notAssignable fault => fault.message
  | operatorNotApplicable op operand =>
    "Unary operator " ++ op.word ++ " cannot be applied to type " ++ operand.text ++ "."
  | operatorNotCompatible op compound left right =>
    "Operator " ++ operatorSymbol op compound ++ " not compatible with types " ++ left.text ++
      " and " ++ right.text ++ "."
  | noCommonType left right =>
    "True expression's type " ++ left.text ++ " does not match false expression's type " ++
      right.text ++ "."
  | invalidIndex fault => fault.message
  | notAwaitable given =>
    "Expression of type " ++ given.text ++ " cannot be awaited, expected a message handle."
  | argumentCount context given expected =>
    "Wrong argument count for " ++ context.text ++ ": " ++ Nat.repr given ++
      " arguments given but expected " ++ Nat.repr expected ++ "."
  | unknownNamedArgument name =>
    "Named argument \"" ++ name ++ "\" does not match function declaration."
  | duplicateNamedArgument name => "Duplicate named argument \"" ++ name ++ "\"."
  | argumentType context expected received =>
    "Invalid type for argument in " ++ context.text ++ ". Invalid implicit conversion from " ++
      received.text ++ " to " ++ expected.text ++ " requested."
  | conversionNotAllowed source target =>
    "Explicit type conversion not allowed from \"" ++ source.text ++ "\" to \"" ++ target.text ++
      "\"."
  | invalidLiteral value fault => "Invalid literal " ++ value ++ ": " ++ fault.message
  | invalidTypeName fault => fault.message
  | notCallable callee => "Type is not callable: " ++ callee.text
  | invalidCreation fault => fault.message
  | featureUnavailable feature version =>
    "\"" ++ feature.text ++ "\" is not supported by the VM version " ++ version.name ++ "."
  | invalidOperation fault => fault.message
  | notEncodable _ fault => fault.message
  | invalidDecoding fault => fault.message
  | invalidCallOption fault => fault.message
  | doubleStorageAssignment =>
    "This assignment performs two copies to storage. Since storage copies do not first copy to " ++
    "a temporary location, one of them might be overwritten before the second is executed and " ++
    "thus may have unexpected effects. It is safer to perform the copies separately or assign " ++
    "to storage pointers first."
  | selfdestructDeprecated =>
    "\"selfdestruct\" has been deprecated. The underlying opcode will eventually undergo " ++
    "breaking changes, and its use is not recommended."
  | unusedCallResult result => result.message

/-- A hint on what to do. -/
def tip? : Issue → Option String
  | inheritanceCycle contract =>
    some ("Remove `" ++ contract ++ "` from its own chain of base contracts")
  | unresolvedReference name => some ("`" ++ name ++ "` is not declared in this scope")
  | externalOnlyReference name => some ("Call it as `this." ++ name ++ "` or make it public")
  | ambiguousReference name =>
    some ("Several overloads of `" ++ name ++ "` accept these arguments, add explicit conversions")
  | noMatchingOverload name => some ("Check the argument types passed to `" ++ name ++ "`")
  | argumentCount _ _ expected => some ("Expected " ++ Nat.repr expected ++ " arguments")
  | typeMismatch expected _ =>
    some ("Convert the value to `" ++ expected.text ++ "` explicitly if this is intended")
  | notAwaitable _ => some "Only the result of sending a message can be awaited"
  | invalidDecoding _ =>
    some "Write the result types inline, e.g. `abi.decode(data, (uint256, bool))`"
  | doubleStorageAssignment =>
    some "Split the assignment into separate statements to make the order explicit"
  | featureUnavailable _ version => some ("Select a newer target than " ++ version.name)
  | notEncodable .. => some "Enable the new encoder with `pragma abicoder v2;`"
  | _ => none

/-- The parts of an issue, by name. -/
def fields (issue : Issue) : List (String × Json) :=
  match issue with
  | inheritanceCycle contract => [("contract", .string contract)]
  | unresolvedReference name | externalOnlyReference name | ambiguousReference name
  | noMatchingOverload name | notModifierOrBase name | unknownNamedArgument name
  | duplicateNamedArgument name => [("name", .string name)]
  | memberNotFound name base => [("member", .string name), ("type_", .string base.text)]
  | typeMismatch expected received =>
    [("expected", .string expected.text), ("received", .string received.text)]
  | operatorNotApplicable op operand =>
    [("operator", .string op.word), ("type_", .string operand.text)]
  | operatorNotCompatible op compound left right =>
    [("operator", .string (operatorSymbol op compound)), ("left", .string left.text),
      ("right", .string right.text)]
  | noCommonType left right => [("left", .string left.text), ("right", .string right.text)]
  | notAwaitable given | notCallable given => [("type_", .string given.text)]
  | argumentCount context given expected =>
    [("context", .string context.text), ("given", .ofNat given), ("expected", .ofNat expected)]
  | argumentType context expected received =>
    [("context", .string context.text), ("expected", .string expected.text),
      ("received", .string received.text)]
  | conversionNotAllowed source target =>
    [("from", .string source.text), ("to", .string target.text)]
  | invalidLiteral value fault => [("value", .string value), ("message", .string fault.message)]
  | featureUnavailable feature version =>
    [("feature", .string feature.text), ("evm_version", .string version.name)]
  | notEncodable given fault => [("type_", .string given.text), ("message", .string fault.message)]
  | doubleStorageAssignment => []
  | functionSignature _ | invalidDeclaration _ | invalidDataLocation _ | invalidStatement _
  | notAssignable _ | invalidIndex _ | invalidTypeName _ | invalidCreation _ | invalidOperation _
  | invalidDecoding _ | invalidCallOption _ | selfdestructDeprecated | unusedCallResult _ =>
    [("message", .string issue.message)]

def toJson (issue : Issue) : Json := .object (("kind", .string issue.name) :: issue.fields)

end Issue

end ContractTyping
