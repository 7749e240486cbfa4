import ContractTyping.Json.Value
import ContractTyping.Source.Unit

/-!
# Source units as JSON: writing

Every field is written, also those that hold a default; an absent value is null. Expressions, type
names, statements and parts name their kind in the field `nodeType` of the same object.
-/

namespace ContractTyping

def NodeId.toJson (id : NodeId) : Json := .integer id.value.toInt

def Position.toJson (p : Position) : Json := .array [.ofNat p.offset.toNat, .string p.file]

def Span.toJson (s : Span) : Json := .object [("start", s.start.toJson), ("end", s.stop.toJson)]

/-- The word of a value of a vocabulary. -/
def Vocabulary.toJson {α : Type} [Vocabulary α] (a : α) : Json := .string (word a)

/-- An object with the fields that all nodes have. -/
def Node.toJson (node : Node) (fields : List (String × Json)) : Json :=
  .object (("id", node.id.toJson) :: ("span", node.span.toJson) :: fields)

/-- An object for a node that names its kind. -/
def Node.toJsonAs (node : Node) (kind : String) (fields : List (String × Json)) : Json :=
  node.toJson (("nodeType", .string kind) :: fields)

def Path.toJson (p : Path) : Json :=
  p.node.toJson [("path", .ofList .string p.segments),
    ("referenced_declaration", .ofOption NodeId.toJson p.target)]

mutual

def Expr.toJson : Expr → Json
  | .identifier node name target overloads =>
    node.toJsonAs "Identifier" [("name", .string name),
      ("referenced_declaration", .ofOption NodeId.toJson target),
      ("overloaded_declarations", .ofList NodeId.toJson overloads)]
  | .elementaryType node name payable =>
    node.toJsonAs "ElementaryTypeName" [("name", .string name), ("payable", .bool payable)]
  | .literal node kind value unit =>
    node.toJsonAs "Literal" [("kind", Vocabulary.toJson kind), ("value", .string value),
      ("sub_denomination", .ofOption Vocabulary.toJson unit)]
  | .unary node op isPrefix operand =>
    node.toJsonAs "Unary" [("operator", Vocabulary.toJson op), ("prefix", .bool isPrefix),
      ("sub_expression", operand.toJson)]
  | .binary node op left right =>
    node.toJsonAs "Binary" [("operator", Vocabulary.toJson op), ("left", left.toJson),
      ("right", right.toJson)]
  | .assignment node op left right =>
    node.toJsonAs "Assignment" [("operator", .ofOption Vocabulary.toJson op),
      ("left", left.toJson), ("right", right.toJson)]
  | .conditional node condition yes no =>
    node.toJsonAs "Conditional" [("condition", condition.toJson),
      ("true_expression", yes.toJson), ("false_expression", no.toJson)]
  | .tuple node components isInlineArray =>
    node.toJsonAs "Tuple" [("components", .array (exprSlotsToJson components)),
      ("is_inline_array", .bool isInlineArray)]
  | .call node callee arguments names =>
    node.toJsonAs "FunctionCall" [("expression", callee.toJson),
      ("arguments", .array (exprsToJson arguments)), ("names", .ofList .string names)]
  | .callOptions node callee names options =>
    node.toJsonAs "CallOptions" [("expression", callee.toJson), ("names", .ofList .string names),
      ("options", .array (exprsToJson options))]
  | .create node typeName => node.toJsonAs "New" [("type_name", typeName.toJson)]
  | .await node handle => node.toJsonAs "Await" [("expression", handle.toJson)]
  | .member node base name =>
    node.toJsonAs "MemberAccess" [("expression", base.toJson), ("member_name", .string name)]
  | .index node base index =>
    node.toJsonAs "IndexAccess" [("base", base.toJson), ("index", exprSlotToJson index)]
  | .slice node base start stop =>
    node.toJsonAs "IndexRangeAccess" [("base", base.toJson), ("start", exprSlotToJson start),
      ("end", exprSlotToJson stop)]

def exprsToJson : List Expr → List Json
  | [] => []
  | e :: rest => e.toJson :: exprsToJson rest

def exprSlotToJson : Option Expr → Json
  | none => .null
  | some e => e.toJson

def exprSlotsToJson : List (Option Expr) → List Json
  | [] => []
  | slot :: rest => exprSlotToJson slot :: exprSlotsToJson rest

def TypeName.toJson : TypeName → Json
  | .elementary node name payable =>
    node.toJsonAs "Elementary" [("name", .string name), ("payable", .bool payable)]
  | .userDefined node path => node.toJsonAs "UserDefined" [("path", path.toJson)]
  | .mapping node key value =>
    node.toJsonAs "Mapping" [("key_type", key.toJson), ("value_type", value.toJson)]
  | .array node base length =>
    node.toJsonAs "Array" [("base_type", base.toJson), ("length", exprSlotToJson length)]
  | .function node parameters returns visibility mutability =>
    node.toJsonAs "Function" [("parameter_types", .array (variablesToJson parameters)),
      ("return_parameter_types", .array (variablesToJson returns)),
      ("visibility", Vocabulary.toJson visibility),
      ("state_mutability", Vocabulary.toJson mutability)]

def typeNameSlotToJson : Option TypeName → Json
  | none => .null
  | some t => t.toJson

/-- The fields of a variable after its identity and span. -/
def Variable.jsonFields : Variable → List (String × Json)
  | .mk traits typeName value =>
    [("name", .string traits.name), ("type_name", typeNameSlotToJson typeName),
      ("value", exprSlotToJson value), ("visibility", Vocabulary.toJson traits.visibility),
      ("mutability", Vocabulary.toJson traits.changeability),
      ("location", Vocabulary.toJson traits.location),
      ("is_state_variable", .bool traits.isState), ("indexed", .bool traits.indexed)]

def variablesToJson : List Variable → List Json
  | [] => []
  | v :: rest => v.traits.node.toJson v.jsonFields :: variablesToJson rest

end

def Variable.toJson (v : Variable) : Json := v.traits.node.toJson v.jsonFields

mutual

def Statement.toJson : Statement → Json
  | .block node block => node.toJsonAs "Block" block.jsonFields
  | .placeholder node => node.toJsonAs "Placeholder" []
  | .ifElse node condition yes no =>
    node.toJsonAs "If" [("condition", condition.toJson), ("true_body", yes.toJson),
      ("false_body", statementSlotToJson no)]
  | .whileLoop node condition body isDoWhile =>
    node.toJsonAs "While" [("condition", condition.toJson), ("body", body.toJson),
      ("is_do_while", .bool isDoWhile)]
  | .forLoop node initial condition step body =>
    node.toJsonAs "For" [("initialization", statementSlotToJson initial),
      ("condition", .ofOption Expr.toJson condition),
      ("loop_expression", .ofOption Expr.toJson step), ("body", body.toJson)]
  | .continueLoop node => node.toJsonAs "Continue" []
  | .breakLoop node => node.toJsonAs "Break" []
  | .returnValue node value =>
    node.toJsonAs "Return" [("expression", .ofOption Expr.toJson value)]
  | .emit node event => node.toJsonAs "Emit" [("event_call", event.toJson)]
  | .declare node vars initial =>
    node.toJsonAs "VariableDeclaration"
      [("declarations", .ofList (Json.ofOption Variable.toJson) vars),
        ("initial_value", .ofOption Expr.toJson initial)]
  | .expression node expression => node.toJsonAs "Expression" [("expression", expression.toJson)]
  | .tryCatch node call clauses =>
    node.toJsonAs "Try"
      [("external_call", call.toJson), ("clauses", .array (clausesToJson clauses))]

def statementSlotToJson : Option Statement → Json
  | none => .null
  | some s => s.toJson

def statementsToJson : List Statement → List Json
  | [] => []
  | s :: rest => s.toJson :: statementsToJson rest

/-- The fields of a block, which also stand in the object of a block statement. -/
def Block.jsonFields : Block → List (String × Json)
  | .mk node statements unchecked =>
    [("blockId", node.id.toJson), ("statements", .array (statementsToJson statements)),
      ("unchecked", .bool unchecked), ("blockSpan", node.span.toJson)]

def CatchClause.toJson : CatchClause → Json
  | .mk node errorName parameters body =>
    node.toJson [("error_name", .string errorName),
      ("parameters", .ofOption (Json.ofList Variable.toJson) parameters),
      ("block", .object body.jsonFields)]

def clausesToJson : List CatchClause → List Json
  | [] => []
  | clause :: rest => clause.toJson :: clausesToJson rest

end

def Block.toJson (b : Block) : Json := .object b.jsonFields

/-- Arguments in parentheses, or null without parentheses. -/
def argumentsToJson : Option (List Expr) → Json := .ofOption (.ofList Expr.toJson)

def BaseSpecifier.toJson (b : BaseSpecifier) : Json :=
  b.node.toJson [("base_name", b.base.toJson), ("arguments", argumentsToJson b.arguments)]

def ModifierCall.toJson (m : ModifierCall) : Json :=
  m.node.toJson [("modifier_name", m.target.toJson), ("arguments", argumentsToJson m.arguments)]

def Function.jsonFields (f : Function) : List (String × Json) :=
  [("name", .string f.name), ("kind", Vocabulary.toJson f.kind),
    ("visibility", Vocabulary.toJson f.visibility),
    ("state_mutability", Vocabulary.toJson f.mutability), ("is_virtual", .bool f.isVirtual),
    ("parameters", .ofList Variable.toJson f.parameters),
    ("return_parameters", .ofList Variable.toJson f.returns),
    ("modifiers", .ofList ModifierCall.toJson f.modifiers),
    ("body", .ofOption Block.toJson f.body)]

def Modifier.jsonFields (m : Modifier) : List (String × Json) :=
  [("name", .string m.name), ("parameters", .ofList Variable.toJson m.parameters),
    ("body", .ofOption Block.toJson m.body)]

def Event.jsonFields (e : Event) : List (String × Json) :=
  [("name", .string e.name), ("parameters", .ofList Variable.toJson e.parameters),
    ("anonymous", .bool e.anonymous)]

def Message.jsonFields (m : Message) : List (String × Json) :=
  [("name", .string m.name), ("parameters", .ofList Variable.toJson m.parameters),
    ("return_parameters", .ofList Variable.toJson m.returns)]

def StructDef.jsonFields (s : StructDef) : List (String × Json) :=
  [("name", .string s.name), ("members", .ofList Variable.toJson s.members)]

def UsingFor.jsonFields (u : UsingFor) : List (String × Json) :=
  [("library_name", u.library.toJson), ("type_name", .ofOption TypeName.toJson u.typeName)]

def ContractPart.toJson : ContractPart → Json
  | .function f => f.node.toJsonAs "Function" f.jsonFields
  | .stateVariable v => v.traits.node.toJsonAs "StateVariable" v.jsonFields
  | .event e => e.node.toJsonAs "Event" e.jsonFields
  | .message m => m.node.toJsonAs "Message" m.jsonFields
  | .modifier m => m.node.toJsonAs "Modifier" m.jsonFields
  | .struct s => s.node.toJsonAs "Struct" s.jsonFields
  | .usingFor u => u.node.toJsonAs "UsingFor" u.jsonFields

def Contract.jsonFields (c : Contract) : List (String × Json) :=
  [("name", .string c.name), ("kind", Vocabulary.toJson c.kind),
    ("is_abstract", .bool c.isAbstract), ("base_contracts", .ofList BaseSpecifier.toJson c.bases),
    ("linearized_base_contracts", .ofList NodeId.toJson c.linearization),
    ("nodes", .ofList ContractPart.toJson c.parts)]

def UnitPart.toJson : UnitPart → Json
  | .contract c => c.node.toJsonAs "Contract" c.jsonFields
  | .struct s => s.node.toJsonAs "Struct" s.jsonFields
  | .function f => f.node.toJsonAs "Function" f.jsonFields
  | .usingFor u => u.node.toJsonAs "UsingFor" u.jsonFields

def SourceUnit.toJson (unit : SourceUnit) : Json :=
  unit.node.toJson [("path", .string unit.path),
    ("abi_coder", .ofOption Vocabulary.toJson unit.abiCoder),
    ("nodes", .ofList UnitPart.toJson unit.parts)]

end ContractTyping
