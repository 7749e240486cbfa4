import ContractTyping.Json.Record
import ContractTyping.Json.Text
import ContractTyping.Source.Unit

/-!
# Source units as JSON: reading

The inverse of writing. Fields with a default may be missing, fields of no meaning are ignored, and
anything else that does not fit makes the document malformed, without further explanation.

Nodes are read to a bounded depth. The depth of the document is always enough, so the bound never
shows.
-/

namespace ContractTyping

def NodeId.ofJson? (json : Json) : Option NodeId := json.asInteger?.bind NodeId.ofInt?

def Position.ofJson? : Json → Option Position
  | .array [.integer (.ofNat offset), .string file] =>
    if offset < UInt32.size then some ⟨offset.toUInt32, file⟩ else none
  | _ => none

/-- What is kept of a span outside the parts of a source unit. -/
def Span.shape : Shape := .record [("start", .whole), ("end", .whole)]

def Span.ofJson? (json : Json) : Option Span := do
  let r ← json.record? ["start", "end"]
  pure ⟨← r.required "start" Position.ofJson?, ← r.required "end" Position.ofJson?⟩

/-- The identity and span of a node. -/
def Record.node (r : Record) : Option Node := do
  pure ⟨← r.required "id" NodeId.ofJson?, ← r.withDefault "span" .unknown Span.ofJson?⟩

def Record.name (r : Record) : Option String := r.required "name" Json.asString?

def Path.ofJson? (json : Json) : Option Path := do
  let r ← json.record? ["id", "path", "referenced_declaration", "span"]
  pure {
    node := ← r.node
    segments := ← r.required "path" (Json.asList? Json.asString?)
    target := ← r.optional "referenced_declaration" NodeId.ofJson? }

/-! ## Expressions, type names and variables -/

/-- The kinds of expression with their fields. -/
def exprKinds : List (String × List String) := [
  ("Identifier", ["name", "referenced_declaration", "overloaded_declarations"]),
  ("ElementaryTypeName", ["name", "payable"]),
  ("Literal", ["kind", "value", "sub_denomination"]),
  ("Unary", ["operator", "prefix", "sub_expression"]),
  ("Binary", ["operator", "left", "right"]),
  ("Assignment", ["operator", "left", "right"]),
  ("Conditional", ["condition", "true_expression", "false_expression"]),
  ("Tuple", ["components", "is_inline_array"]),
  ("FunctionCall", ["expression", "arguments", "names"]),
  ("CallOptions", ["expression", "names", "options"]),
  ("New", ["type_name"]),
  ("Await", ["expression"]),
  ("MemberAccess", ["expression", "member_name"]),
  ("IndexAccess", ["base", "index"]),
  ("IndexRangeAccess", ["base", "start", "end"])]

/-- The kinds of type name with their fields. -/
def typeNameKinds : List (String × List String) := [
  ("Elementary", ["name", "payable"]),
  ("UserDefined", ["path"]),
  ("Mapping", ["key_type", "value_type"]),
  ("Array", ["base_type", "length"]),
  ("Function", ["parameter_types", "return_parameter_types", "visibility", "state_mutability"])]

def variableFields : List String :=
  ["id", "name", "type_name", "value", "visibility", "mutability", "location", "is_state_variable",
    "indexed", "span"]

mutual

def readExpr : Nat → Json → Option Expr
  | 0, _ => none
  | depth + 1, json => do
    let (kind, r) ← json.node? exprKinds
    let node ← r.node
    match kind with
    | "Identifier" =>
      pure (.identifier node (← r.name) (← r.optional "referenced_declaration" NodeId.ofJson?)
        (← r.list "overloaded_declarations" NodeId.ofJson?))
    | "ElementaryTypeName" => pure (.elementaryType node (← r.name) (← r.flag "payable"))
    | "Literal" =>
      pure (.literal node (← r.required "kind" Vocabulary.ofNodeJson?)
        (← r.required "value" Json.asString?)
        (← r.optional "sub_denomination" Vocabulary.ofNodeJson?))
    | "Unary" =>
      pure (.unary node (← r.required "operator" Vocabulary.ofNodeJson?)
        (← r.withDefault "prefix" true Json.asBool?)
        (← r.required "sub_expression" (readExpr depth)))
    | "Binary" =>
      pure (.binary node (← r.required "operator" Vocabulary.ofNodeJson?)
        (← r.required "left" (readExpr depth)) (← r.required "right" (readExpr depth)))
    | "Assignment" =>
      pure (.assignment node (← r.optional "operator" Vocabulary.ofNodeJson?)
        (← r.required "left" (readExpr depth)) (← r.required "right" (readExpr depth)))
    | "Conditional" =>
      pure (.conditional node (← r.required "condition" (readExpr depth))
        (← r.required "true_expression" (readExpr depth))
        (← r.required "false_expression" (readExpr depth)))
    | "Tuple" =>
      pure (.tuple node
        (← r.required "components" (Json.asList? (Json.asOption? (readExpr depth))))
        (← r.flag "is_inline_array"))
    | "FunctionCall" =>
      pure (.call node (← r.required "expression" (readExpr depth))
        (← r.required "arguments" (Json.asList? (readExpr depth)))
        (← r.list "names" Json.asString?))
    | "CallOptions" =>
      pure (.callOptions node (← r.required "expression" (readExpr depth))
        (← r.required "names" (Json.asList? Json.asString?))
        (← r.required "options" (Json.asList? (readExpr depth))))
    | "New" => pure (.create node (← r.required "type_name" (readTypeName depth)))
    | "Await" => pure (.await node (← r.required "expression" (readExpr depth)))
    | "MemberAccess" =>
      pure (.member node (← r.required "expression" (readExpr depth))
        (← r.required "member_name" Json.asString?))
    | "IndexAccess" =>
      pure (.index node (← r.required "base" (readExpr depth))
        (← r.optional "index" (readExpr depth)))
    | "IndexRangeAccess" =>
      pure (.slice node (← r.required "base" (readExpr depth))
        (← r.optional "start" (readExpr depth)) (← r.optional "end" (readExpr depth)))
    | _ => none

def readTypeName : Nat → Json → Option TypeName
  | 0, _ => none
  | depth + 1, json => do
    let (kind, r) ← json.node? typeNameKinds
    let node ← r.node
    match kind with
    | "Elementary" => pure (.elementary node (← r.name) (← r.flag "payable"))
    | "UserDefined" => pure (.userDefined node (← r.required "path" Path.ofJson?))
    | "Mapping" =>
      pure (.mapping node (← r.required "key_type" (readTypeName depth))
        (← r.required "value_type" (readTypeName depth)))
    | "Array" =>
      pure (.array node (← r.required "base_type" (readTypeName depth))
        (← r.optional "length" (readExpr depth)))
    | "Function" =>
      pure (.function node (← r.list "parameter_types" (readVariable depth))
        (← r.list "return_parameter_types" (readVariable depth))
        (← r.required "visibility" Vocabulary.ofNodeJson?)
        (← r.required "state_mutability" Vocabulary.ofNodeJson?))
    | _ => none

/-- Reads a variable from its record. -/
def readVariableRecord : Nat → Record → Option Variable
  | 0, _ => none
  | depth + 1, r => do
    let traits : VariableTraits := {
      node := ← r.node
      name := ← r.name
      visibility := ← r.withDefault "visibility" .internal Vocabulary.ofNodeJson?
      changeability := ← r.withDefault "mutability" .mutable Vocabulary.ofNodeJson?
      location := ← r.withDefault "location" .unspecified Vocabulary.ofNodeJson?
      isState := ← r.flag "is_state_variable"
      indexed := ← r.flag "indexed" }
    pure (.mk traits (← r.optional "type_name" (readTypeName depth))
      (← r.optional "value" (readExpr depth)))

def readVariable : Nat → Json → Option Variable
  | 0, _ => none
  | depth + 1, json => (json.record? variableFields).bind (readVariableRecord depth)

end

/-! ## Statements -/

/-- The kinds of statement with their fields. -/
def statementKinds : List (String × List String) := [
  ("Block", ["blockId", "statements", "unchecked", "blockSpan"]),
  ("Placeholder", []),
  ("If", ["condition", "true_body", "false_body"]),
  ("While", ["condition", "body", "is_do_while"]),
  ("For", ["initialization", "condition", "loop_expression", "body"]),
  ("Continue", []),
  ("Break", []),
  ("Return", ["expression"]),
  ("Emit", ["event_call"]),
  ("VariableDeclaration", ["declarations", "initial_value"]),
  ("Expression", ["expression"]),
  ("Try", ["external_call", "clauses"])]

def blockFields : List String := ["blockId", "statements", "unchecked", "blockSpan"]

def clauseFields : List String := ["id", "error_name", "parameters", "block", "span"]

mutual

def readStatement : Nat → Json → Option Statement
  | 0, _ => none
  | depth + 1, json => do
    let (kind, r) ← json.node? statementKinds
    let node ← r.node
    match kind with
    | "Block" => pure (.block node (← readBlockRecord depth r))
    | "Placeholder" => pure (.placeholder node)
    | "If" =>
      pure (.ifElse node (← r.required "condition" (readExpr depth))
        (← r.required "true_body" (readStatement depth))
        (← r.optional "false_body" (readStatement depth)))
    | "While" =>
      pure (.whileLoop node (← r.required "condition" (readExpr depth))
        (← r.required "body" (readStatement depth)) (← r.flag "is_do_while"))
    | "For" =>
      pure (.forLoop node (← r.optional "initialization" (readStatement depth))
        (← r.optional "condition" (readExpr depth))
        (← r.optional "loop_expression" (readExpr depth))
        (← r.required "body" (readStatement depth)))
    | "Continue" => pure (.continueLoop node)
    | "Break" => pure (.breakLoop node)
    | "Return" => pure (.returnValue node (← r.optional "expression" (readExpr depth)))
    | "Emit" => pure (.emit node (← r.required "event_call" (readExpr depth)))
    | "VariableDeclaration" =>
      pure (.declare node
        (← r.required "declarations" (Json.asList? (Json.asOption? (readVariable depth))))
        (← r.optional "initial_value" (readExpr depth)))
    | "Expression" => pure (.expression node (← r.required "expression" (readExpr depth)))
    | "Try" =>
      pure (.tryCatch node (← r.required "external_call" (readExpr depth))
        (← r.required "clauses" (Json.asList? (readClause depth))))
    | _ => none

/-- Reads a block from its record, or from that of a block statement. -/
def readBlockRecord : Nat → Record → Option Block
  | 0, _ => none
  | depth + 1, r => do
    let node : Node :=
      ⟨← r.required "blockId" NodeId.ofJson?, ← r.withDefault "blockSpan" .unknown Span.ofJson?⟩
    pure (.mk node (← r.required "statements" (Json.asList? (readStatement depth)))
      (← r.flag "unchecked"))

def readClause : Nat → Json → Option CatchClause
  | 0, _ => none
  | depth + 1, json => do
    let r ← json.record? clauseFields
    let block ← r.required "block" fun json =>
      (json.record? blockFields).bind (readBlockRecord depth)
    pure (.mk (← r.node) (← r.withDefault "error_name" "" Json.asString?)
      (← r.optional "parameters" (Json.asList? (readVariable depth))) block)

end

/-! ## Whole documents of each kind

Reading a node takes up to two steps for one level of the document, so twice the depth is enough. -/

/-- The steps that reading a document can take. -/
def Json.readingDepth (json : Json) : Nat := 2 * json.depth

def Expr.ofJson? (json : Json) : Option Expr := readExpr json.readingDepth json

def TypeName.ofJson? (json : Json) : Option TypeName := readTypeName json.readingDepth json

def Variable.ofJson? (json : Json) : Option Variable := readVariable json.readingDepth json

def Statement.ofJson? (json : Json) : Option Statement := readStatement json.readingDepth json

def CatchClause.ofJson? (json : Json) : Option CatchClause := readClause json.readingDepth json

def Block.ofJson? (json : Json) : Option Block :=
  (json.record? blockFields).bind (readBlockRecord json.readingDepth)

/-! ## Declarations -/

/-- Reads arguments in parentheses. -/
def Record.arguments (r : Record) : Option (Option (List Expr)) :=
  r.optional "arguments" (Json.asList? Expr.ofJson?)

def BaseSpecifier.ofJson? (json : Json) : Option BaseSpecifier := do
  let r ← json.record? ["id", "base_name", "arguments", "span"]
  pure ⟨← r.node, ← r.required "base_name" Path.ofJson?, ← r.arguments⟩

def ModifierCall.ofJson? (json : Json) : Option ModifierCall := do
  let r ← json.record? ["id", "modifier_name", "arguments", "span"]
  pure ⟨← r.node, ← r.required "modifier_name" Path.ofJson?, ← r.arguments⟩

def functionFields : List String :=
  ["id", "name", "kind", "visibility", "state_mutability", "is_virtual", "parameters",
    "return_parameters", "modifiers", "body", "span"]

def Function.ofRecord? (r : Record) : Option Function := do
  pure {
    node := ← r.node
    name := ← r.name
    kind := ← r.required "kind" Vocabulary.ofNodeJson?
    visibility := ← r.required "visibility" Vocabulary.ofNodeJson?
    mutability := ← r.required "state_mutability" Vocabulary.ofNodeJson?
    isVirtual := ← r.flag "is_virtual"
    parameters := ← r.list "parameters" Variable.ofJson?
    returns := ← r.list "return_parameters" Variable.ofJson?
    modifiers := ← r.list "modifiers" ModifierCall.ofJson?
    body := ← r.optional "body" Block.ofJson? }

def modifierFields : List String := ["id", "name", "parameters", "body", "span"]

def Modifier.ofRecord? (r : Record) : Option Modifier := do
  pure ⟨← r.node, ← r.name, ← r.list "parameters" Variable.ofJson?,
    ← r.optional "body" Block.ofJson?⟩

def eventFields : List String := ["id", "name", "parameters", "anonymous", "span"]

def Event.ofRecord? (r : Record) : Option Event := do
  pure ⟨← r.node, ← r.name, ← r.list "parameters" Variable.ofJson?, ← r.flag "anonymous"⟩

def messageFields : List String := ["id", "name", "parameters", "return_parameters", "span"]

def Message.ofRecord? (r : Record) : Option Message := do
  pure ⟨← r.node, ← r.name, ← r.list "parameters" Variable.ofJson?,
    ← r.list "return_parameters" Variable.ofJson?⟩

def structFields : List String := ["id", "name", "members", "span"]

def StructDef.ofRecord? (r : Record) : Option StructDef := do
  pure ⟨← r.node, ← r.name, ← r.required "members" (Json.asList? Variable.ofJson?)⟩

def usingForFields : List String := ["id", "library_name", "type_name", "span"]

def UsingFor.ofRecord? (r : Record) : Option UsingFor := do
  pure ⟨← r.node, ← r.required "library_name" Path.ofJson?,
    ← r.optional "type_name" TypeName.ofJson?⟩

/-- The steps that reading a variable from its record can take. -/
def Record.readingDepth (r : Record) : Nat := (Json.object r.fields).readingDepth

def Variable.ofRecord? (r : Record) : Option Variable := readVariableRecord r.readingDepth r

def contractPartKinds : List (String × List String) := [
  ("Function", functionFields),
  ("StateVariable", variableFields),
  ("Event", eventFields),
  ("Message", messageFields),
  ("Modifier", modifierFields),
  ("Struct", structFields),
  ("UsingFor", usingForFields)]

def ContractPart.ofJson? (json : Json) : Option ContractPart := do
  let (kind, r) ← json.part? (Json.kind? contractPartKinds)
  match kind with
  | "Function" => (Function.ofRecord? r).map .function
  | "StateVariable" => (Variable.ofRecord? r).map .stateVariable
  | "Event" => (Event.ofRecord? r).map .event
  | "Message" => (Message.ofRecord? r).map .message
  | "Modifier" => (Modifier.ofRecord? r).map .modifier
  | "Struct" => (StructDef.ofRecord? r).map .struct
  | "UsingFor" => (UsingFor.ofRecord? r).map .usingFor
  | _ => none

def contractFields : List String :=
  ["id", "name", "kind", "is_abstract", "base_contracts", "linearized_base_contracts",
    "nodes", "span"]

def Contract.ofRecord? (r : Record) : Option Contract := do
  pure {
    node := ← r.node
    name := ← r.name
    kind := ← r.required "kind" Vocabulary.ofNodeJson?
    isAbstract := ← r.flag "is_abstract"
    bases := ← r.list "base_contracts" BaseSpecifier.ofJson?
    linearization := ← r.list "linearized_base_contracts" NodeId.ofJson?
    parts := ← r.required "nodes" (Json.asList? ContractPart.ofJson?) }

def unitPartKinds : List (String × List String) := [
  ("Contract", contractFields),
  ("Struct", structFields),
  ("Function", functionFields),
  ("UsingFor", usingForFields)]

/-- Reads a part of a source unit. Its kind has to be given by name. -/
def UnitPart.ofJson? (json : Json) : Option UnitPart := do
  let (kind, r) ← json.part? (Json.namedKind? unitPartKinds)
  match kind with
  | "Contract" => (Contract.ofRecord? r).map .contract
  | "Struct" => (StructDef.ofRecord? r).map .struct
  | "Function" => (Function.ofRecord? r).map .function
  | "UsingFor" => (UsingFor.ofRecord? r).map .usingFor
  | _ => none

/-- What is kept of a source unit. Its parts are kept whole, fields of no meaning included. -/
def SourceUnit.shape : Shape := .record [
  ("id", .whole),
  ("path", .whole),
  ("abi_coder", .whole),
  ("nodes", .whole),
  ("span", Span.shape)]

def SourceUnit.ofJson? (json : Json) : Option SourceUnit := do
  let r ← json.record? ["id", "path", "abi_coder", "nodes", "span"]
  pure {
    node := ← r.node
    path := ← r.withDefault "path" "" Json.asString?
    abiCoder := ← r.optional "abi_coder" Vocabulary.ofJson?
    parts := ← r.required "nodes" (Json.asList? UnitPart.ofJson?) }

/-- Reads a source unit from the text of a document. -/
def SourceUnit.ofText? (text : String) : Option SourceUnit :=
  (Json.parse? SourceUnit.shape text).bind SourceUnit.ofJson?

/-- What is kept of settings. -/
def Settings.shape : Shape := .record [("evmVersion", .whole), ("abiCoder", .whole)]

def Settings.ofJson? (json : Json) : Option Settings := do
  let r ← json.record? ["evmVersion", "abiCoder"]
  pure ⟨← r.withDefault "evmVersion" .london Vocabulary.ofJson?,
    ← r.withDefault "abiCoder" .v2 Vocabulary.ofJson?⟩

/-- Reads settings from the text of a document. -/
def Settings.ofText? (text : String) : Option Settings :=
  (Json.parse? Settings.shape text).bind Settings.ofJson?

def Settings.toJson (s : Settings) : Json :=
  .object [("evmVersion", .string s.evmVersion.name), ("abiCoder", .string s.abiCoder.word)]

end ContractTyping
