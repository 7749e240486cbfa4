import ContractTyping.Proofs.Cycle.Inheritance

/-!
# Looking up declarations

What a source unit declares, said without collecting it, and what the table of its declarations
finds.

* `TypeName.Brings`, `Statement.Declares` and `SourceUnit.Declares` say which declarations stand in
  a piece of source, with one rule for each place that they can stand at.
* `Declarations.mem_entries`: the table holds these declarations, each under its own identity and
  with the contract that it lies in.
* `lookup_iff_declared`: so it finds exactly them, and the globals of the language.
-/

namespace ContractTyping

open List
variable {v : Variable}

/-! ## What is declared -/

/-- Variables in a type name: parameters and results of function types, at any depth. -/
inductive TypeName.Brings : TypeName → Variable → Prop
  | parameter {node : Node} {parameters returns : List Variable} {visibility : Visibility}
      {mutability : Mutability} {v : Variable} (mem : v ∈ parameters ++ returns) :
      Brings (.function node parameters returns visibility mutability) v
  | nested {node : Node} {parameters returns : List Variable} {visibility : Visibility}
      {mutability : Mutability} {v w : Variable} {typeName : TypeName}
      (mem : v ∈ parameters ++ returns)
      (typed : v.typeName = some typeName) (inner : Brings typeName w) :
      Brings (.function node parameters returns visibility mutability) w
  | key {node : Node} {key value : TypeName} {v : Variable} (inner : Brings key v) :
      Brings (.mapping node key value) v
  | value {node : Node} {key value : TypeName} {v : Variable} (inner : Brings value v) :
      Brings (.mapping node key value) v
  | element {node : Node} {base : TypeName} {length : Option Expr} {v : Variable}
      (inner : Brings base v) : Brings (.array node base length) v

/-- A variable, and those in its type name. -/
def Variable.Brings (v w : Variable) : Prop :=
  w = v ∨ ∃ typeName, v.typeName = some typeName ∧ typeName.Brings w

/-- The variables that are declared in a statement, at any depth of other statements. -/
inductive Statement.Declares : Statement → Variable → Prop
  | block {node blockNode : Node} {body : List Statement} {unchecked : Bool} {s : Statement}
      {v : Variable}
      (mem : s ∈ body) (inner : Declares s v) :
      Declares (.block node (.mk blockNode body unchecked)) v
  | yes {node : Node} {condition : Expr} {yes : Statement} {no : Option Statement} {v : Variable}
      (inner : Declares yes v) : Declares (.ifElse node condition yes no) v
  | no {node : Node} {condition : Expr} {yes no : Statement} {v : Variable}
      (inner : Declares no v) : Declares (.ifElse node condition yes (some no)) v
  | whileLoop {node : Node} {condition : Expr} {body : Statement} {isDoWhile : Bool} {v : Variable}
      (inner : Declares body v) : Declares (.whileLoop node condition body isDoWhile) v
  | initial {node : Node} {initial : Statement} {condition step : Option Expr} {body : Statement}
      {v : Variable} (inner : Declares initial v) :
      Declares (.forLoop node (some initial) condition step body) v
  | forLoop {node : Node} {initial : Option Statement} {condition step : Option Expr}
      {body : Statement}
      {v : Variable} (inner : Declares body v) :
      Declares (.forLoop node initial condition step body) v
  | slot {node : Node} {vars : List (Option Variable)} {initial : Option Expr} {v : Variable}
      (mem : some v ∈ vars) : Declares (.declare node vars initial) v
  | caught {node clauseNode : Node} {call : Expr} {clauses : List CatchClause} {errorName : String}
      {parameters : List Variable} {body : Block} {v : Variable}
      (clause : .mk clauseNode errorName (some parameters) body ∈ clauses) (mem : v ∈ parameters) :
      Declares (.tryCatch node call clauses) v
  | clause {node clauseNode blockNode : Node} {call : Expr} {clauses : List CatchClause}
      {errorName : String}
      {parameters : Option (List Variable)} {body : List Statement} {unchecked : Bool}
      {s : Statement}
      {v : Variable}
      (clause : .mk clauseNode errorName parameters (.mk blockNode body unchecked) ∈ clauses)
      (mem : s ∈ body) (inner : Declares s v) : Declares (.tryCatch node call clauses) v

/-- The variables that are declared in a body, if there is one. -/
def bodyDeclares (body : Option Block) (v : Variable) : Prop :=
  ∃ block, body = some block ∧ ∃ s ∈ block.statements, s.Declares v

namespace ContractPart

/-- The declaration that a part is, apart from variables. -/
def item? : ContractPart → Option DeclaredItem
  | function f => some (.function f)
  | event e => some (.event e)
  | message m => some (.message m)
  | modifier m => some (.modifier m)
  | struct s => some (.struct s)
  | stateVariable _ | usingFor _ => none

/-- The variables that are declared in a part, apart from those in type names. -/
def Owns : ContractPart → Variable → Prop
  | function f, v => v ∈ f.parameters ∨ v ∈ f.returns ∨ bodyDeclares f.body v
  | stateVariable w, v => v = w
  | event e, v => v ∈ e.parameters
  | message m, v => v ∈ m.parameters ∨ v ∈ m.returns
  | modifier m, v => v ∈ m.parameters ∨ bodyDeclares m.body v
  | struct s, v => v ∈ s.members
  | usingFor _, _ => False

inductive Declares (part : ContractPart) : DeclaredItem → Prop
  | self {item : DeclaredItem} (is : part.item? = some item) : Declares part item
  | var {v w : Variable} (owns : part.Owns v) (brings : v.Brings w) : Declares part (.var w)

end ContractPart

/-- What a source unit declares. Whatever stands in a contract lies in it, all else in none. -/
inductive SourceUnit.Declares (unit : SourceUnit) : Declaration → Prop
  | contract {c : Contract} (mem : .contract c ∈ unit.parts) : Declares unit ⟨.contract c, none⟩
  | member {c : Contract} {part : ContractPart} {item : DeclaredItem}
      (mem : .contract c ∈ unit.parts)
      (inside : part ∈ c.parts) (declares : part.Declares item) : Declares unit ⟨item, some c.id⟩
  | struct {s : StructDef} {item : DeclaredItem} (mem : .struct s ∈ unit.parts)
      (declares : (ContractPart.struct s).Declares item) : Declares unit ⟨item, none⟩
  | function {f : Function} {item : DeclaredItem} (mem : .function f ∈ unit.parts)
      (declares : (ContractPart.function f).Declares item) : Declares unit ⟨item, none⟩

/-! ## Variables in type names -/

theorem TypeName.brings_function {node : Node} {parameters returns : List Variable}
    {visibility : Visibility} {mutability : Mutability} {w : Variable} :
    (TypeName.function node parameters returns visibility mutability).Brings w ↔
      ∃ v ∈ parameters ++ returns, v.Brings w := by
  constructor
  · intro brings
    cases brings with
    | parameter mem => exact ⟨w, mem, .inl rfl⟩
    | nested mem typed inner => exact ⟨_, mem, .inr ⟨_, typed, inner⟩⟩
  · rintro ⟨v, mem, rfl | ⟨typeName, typed, inner⟩⟩
    · exact .parameter mem
    · exact .nested mem typed inner

mutual

theorem TypeName.mem_innerVariables (typeName : TypeName) {w : Variable} :
    w ∈ typeName.innerVariables ↔ typeName.Brings w := by
  match typeName with
  | .elementary .. | .userDefined .. => exact iff_of_false not_mem_nil fun brings => by cases brings
  | .mapping _ key value =>
    rw [TypeName.innerVariables, mem_append, key.mem_innerVariables, value.mem_innerVariables]
    constructor
    · rintro (inner | inner)
      · exact .key inner
      · exact .value inner
    · intro brings
      cases brings with
      | key inner => exact .inl inner
      | value inner => exact .inr inner
  | .array _ base _ =>
    rw [TypeName.innerVariables, base.mem_innerVariables]
    refine ⟨.element, fun brings => ?_⟩
    cases brings with
    | element inner => exact inner
  | .function _ parameters returns _ _ =>
    rw [TypeName.innerVariables, mem_append, mem_variablesWithInner_brings,
      mem_variablesWithInner_brings, TypeName.brings_function]
    simp only [mem_append, or_and_right, exists_or]

theorem Variable.mem_withInner (v : Variable) {w : Variable} : w ∈ v.withInner ↔ v.Brings w := by
  match v with
  | .mk traits none value =>
    rw [Variable.withInner, mem_singleton]
    refine ⟨.inl, ?_⟩
    rintro (equal | ⟨typeName, typed, -⟩)
    · exact equal
    · cases typed
  | .mk traits (some typeName) value =>
    rw [Variable.withInner, mem_cons, typeName.mem_innerVariables]
    refine or_congr_right ⟨fun inner => ⟨typeName, rfl, inner⟩, ?_⟩
    rintro ⟨other, typed, inner⟩
    cases typed
    exact inner

theorem mem_variablesWithInner_brings (vars : List Variable) {w : Variable} :
    w ∈ variablesWithInner vars ↔ ∃ v ∈ vars, v.Brings w := by
  match vars with
  | [] => simp [variablesWithInner]
  | v :: rest =>
    rw [variablesWithInner, mem_append, v.mem_withInner, mem_variablesWithInner_brings rest,
      exists_mem_cons_iff]

end

/-! ## Variables in statements -/

mutual

theorem Statement.mem_vars (s : Statement) {v : Variable} :
    v ∈ s.inventory.vars ↔ s.Declares v := by
  match s with
  | .block _ (.mk _ body _) =>
    refine (mem_statements_vars body).trans
      ⟨fun ⟨s, mem, inner⟩ => .block mem inner, fun declares => ?_⟩
    cases declares with
    | block mem inner => exact ⟨_, mem, inner⟩
  | .ifElse _ condition yes no =>
    refine mem_append.trans ((or_iff_right not_mem_nil).trans (mem_append.trans ?_))
    rw [yes.mem_vars, mem_optional_vars no]
    constructor
    · rintro (inner | ⟨s, rfl, inner⟩)
      · exact .yes inner
      · exact .no inner
    · intro declares
      cases declares with
      | yes inner => exact .inl inner
      | no inner => exact .inr ⟨_, rfl, inner⟩
  | .whileLoop _ _ body _ =>
    refine body.mem_vars.trans ⟨.whileLoop, fun declares => ?_⟩
    cases declares with
    | whileLoop inner => exact inner
  | .forLoop _ initial _ _ body =>
    refine mem_append.trans ?_
    rw [mem_optional_vars initial]
    refine (or_congr_right body.mem_vars).trans ⟨?_, fun declares => ?_⟩
    · rintro (⟨s, rfl, inner⟩ | inner)
      · exact .initial inner
      · exact .forLoop inner
    · cases declares with
      | initial inner => exact .inl ⟨_, rfl, inner⟩
      | forLoop inner => exact .inr inner
  | .declare _ vars _ =>
    have slots : v ∈ vars.filterMap id ++ [] ↔ some v ∈ vars := by simp
    refine slots.trans ⟨.slot, fun declares => ?_⟩
    cases declares with
    | slot mem => exact mem
  | .tryCatch _ _ clauses =>
    refine (mem_clauses_vars clauses).trans ⟨?_, fun declares => ?_⟩
    · rintro ⟨node, errorName, parameters, ⟨blockNode, body, unchecked⟩, clause,
        ⟨vars, rfl, mem⟩ | ⟨s, mem, inner⟩⟩
      · exact .caught clause mem
      · exact .clause clause mem inner
    · cases declares with
      | caught clause mem => exact ⟨_, _, _, _, clause, .inl ⟨_, rfl, mem⟩⟩
      | clause clause mem inner => exact ⟨_, _, _, _, clause, .inr ⟨_, mem, inner⟩⟩
  | .placeholder _ | .continueLoop _ | .breakLoop _ | .returnValue .. | .emit .. | .expression .. =>
    exact iff_of_false not_mem_nil fun declares => by cases declares

theorem Block.mem_vars (b : Block) {v : Variable} :
    v ∈ b.inventory.vars ↔ ∃ s ∈ b.statements, s.Declares v := by
  match b with
  | .mk _ body _ => exact mem_statements_vars body

theorem mem_statements_vars (body : List Statement) {v : Variable} :
    v ∈ (statementsInventory body).vars ↔ ∃ s ∈ body, s.Declares v := by
  match body with
  | [] => exact iff_of_false not_mem_nil (by simp)
  | s :: rest =>
    rw [exists_mem_cons_iff, ← s.mem_vars, ← mem_statements_vars rest]
    exact mem_append

theorem mem_optional_vars (s : Option Statement) {v : Variable} :
    v ∈ (optionalInventory s).vars ↔ ∃ inner, s = some inner ∧ inner.Declares v := by
  match s with
  | none => exact iff_of_false not_mem_nil (by simp)
  | some s =>
    refine s.mem_vars.trans ⟨fun inner => ⟨s, rfl, inner⟩, ?_⟩
    rintro ⟨other, same, inner⟩
    cases same
    exact inner

theorem mem_clauses_vars (clauses : List CatchClause) {v : Variable} :
    v ∈ (clausesInventory clauses).vars ↔ ∃ node errorName parameters body,
      .mk node errorName parameters body ∈ clauses ∧
        ((∃ vars, parameters = some vars ∧ v ∈ vars) ∨ ∃ s ∈ body.statements, s.Declares v) := by
  match clauses with
  | [] => exact iff_of_false not_mem_nil (by simp)
  | .mk node errorName parameters body :: rest =>
    have own : v ∈ parameters.getD [] ↔ ∃ vars, parameters = some vars ∧ v ∈ vars := by
      cases parameters <;> simp
    refine mem_append.trans ?_
    rw [own]
    refine (or_congr_right
      (mem_append.trans (or_congr body.mem_vars (mem_clauses_vars rest)))).trans ?_
    constructor
    · rintro (caught | inside | ⟨node', errorName', parameters', body', mem, declares⟩)
      · exact ⟨_, _, _, _, mem_cons_self, .inl caught⟩
      · exact ⟨_, _, _, _, mem_cons_self, .inr inside⟩
      · exact ⟨_, _, _, _, mem_cons_of_mem _ mem, declares⟩
    · rintro ⟨node', errorName', parameters', body', mem, declares⟩
      rcases mem_cons.mp mem with same | later
      · cases same
        exact declares.imp_right .inl
      · exact .inr (.inr ⟨_, _, _, _, later, declares⟩)

end

theorem mem_body_vars (body : Option Block) :
    v ∈ (bodyInventory body).vars ↔ bodyDeclares body v := by
  cases body with
  | none =>
    refine iff_of_false not_mem_nil ?_
    rintro ⟨block, same, -⟩
    cases same
  | some block =>
    refine block.mem_vars.trans ⟨fun inside => ⟨block, rfl, inside⟩, ?_⟩
    rintro ⟨other, same, inside⟩
    cases same
    exact inside

/-! ## The table -/

namespace ContractPart

variable (part : ContractPart)

/-- The variables that are declared in a part, apart from those in type names, as a list. -/
def ownVariables : ContractPart → List Variable
  | function f => f.inventory.vars
  | stateVariable v => [v]
  | event e => e.parameters
  | message m => m.parameters ++ m.returns
  | modifier m => m.inventory.vars
  | struct s => s.members
  | usingFor _ => []

theorem mem_ownVariables : v ∈ part.ownVariables ↔ part.Owns v := by
  cases part with
  | function f =>
    refine mem_append.trans (or_congr_right (mem_append.trans (or_congr_right ?_)))
    refine mem_append.trans ?_
    rw [modifierCalls_vars, or_iff_right not_mem_nil, mem_body_vars]
  | stateVariable w => exact mem_singleton
  | event e => exact Iff.rfl
  | message m => exact mem_append
  | modifier m => exact mem_append.trans (or_congr_right (mem_body_vars m.body))
  | struct s => exact Iff.rfl
  | usingFor u => exact iff_of_false not_mem_nil id

/-- A part is listed before the variables in it. -/
theorem declarations_eq (scope : Option NodeId) : part.declarations scope =
      (part.item?.toList ++ (variablesWithInner part.ownVariables).map DeclaredItem.var).map
        fun item => (item.id, ⟨item, scope⟩) := by
  have listed (vars : List Variable) : variableDeclarations scope vars =
      (vars.map DeclaredItem.var).map fun item => (item.id, ⟨item, scope⟩) := by
    rw [map_map]
    rfl
  rw [map_append, ← listed]
  cases part with
  | function f => exact f.declarations_eq scope
  | stateVariable v =>
    have one : v.withInner = variablesWithInner [v] := (append_nil _).symm
    exact congrArg (variableDeclarations scope) one
  | event e => rfl
  | message m =>
    exact congrArg (_ :: variableDeclarations scope ·) (variablesWithInner_append _ _).symm
  | modifier m => exact congrArg (_ :: variableDeclarations scope ·) m.declared_eq
  | struct s => rfl
  | usingFor u => rfl

theorem mem_declarations {scope : Option NodeId} {entry : NodeId × Declaration} :
    entry ∈ part.declarations scope ↔ ∃ item, part.Declares item ∧
      entry = (item.id, ⟨item, scope⟩) := by
  rw [part.declarations_eq, mem_map]
  refine exists_congr fun item => and_congr ?_ eq_comm
  rw [mem_append, Option.mem_toList, mem_map]
  constructor
  · rintro (is | ⟨w, mem, rfl⟩)
    · exact .self is
    · obtain ⟨v, owned, brings⟩ := (mem_variablesWithInner_brings _).mp mem
      exact .var (part.mem_ownVariables.mp owned) brings
  · intro declares
    cases declares with
    | self is => exact .inl is
    | @var v w owns brings =>
      refine .inr ⟨w, (mem_variablesWithInner_brings _).mpr ⟨v, ?_, brings⟩, rfl⟩
      exact part.mem_ownVariables.mpr owns

end ContractPart

namespace Declarations

variable {unit : SourceUnit} {id : NodeId} {declaration : Declaration}

/-- The table holds what the unit declares. -/
theorem mem_entries :
    (id, declaration) ∈ (ofUnit unit).entries ↔ unit.Declares declaration ∧
    declaration.item.id = id := by
  refine mem_reverse.trans (mem_flatMap.trans ⟨?_, ?_⟩)
  · rintro ⟨part, mem, inPart⟩
    cases part with
    | contract c =>
      rcases mem_cons.mp inPart with equal | inside
      · cases equal
        exact ⟨.contract mem, rfl⟩
      · obtain ⟨inner, inContract, declared⟩ := mem_flatMap.mp inside
        obtain ⟨item, declares, equal⟩ := inner.mem_declarations.mp declared
        cases equal
        exact ⟨.member mem inContract declares, rfl⟩
    | struct s =>
      obtain ⟨item, declares, equal⟩ := (ContractPart.struct s).mem_declarations.mp inPart
      cases equal
      exact ⟨.struct mem declares, rfl⟩
    | function f =>
      obtain ⟨item, declares, equal⟩ := (ContractPart.function f).mem_declarations.mp inPart
      cases equal
      exact ⟨.function mem declares, rfl⟩
    | usingFor u => cases inPart
  · rintro ⟨declares, rfl⟩
    cases declares with
    | contract mem => exact ⟨_, mem, mem_cons_self⟩
    | member mem inside declares =>
      refine ⟨_, mem, mem_cons_of_mem _ (mem_flatMap.mpr ⟨_, inside, ?_⟩)⟩
      exact (ContractPart.mem_declarations _).mpr ⟨_, declares, rfl⟩
    | struct mem declares =>
      exact ⟨_, mem, (ContractPart.mem_declarations (.struct _)).mpr ⟨_, declares, rfl⟩⟩
    | function mem declares =>
      exact ⟨_, mem, (ContractPart.mem_declarations (.function _)).mpr ⟨_, declares, rfl⟩⟩

/-- Where different declarations have different identities, the table finds each of them. -/
theorem find?_eq_some_iff
    (apart : ∀ d d', unit.Declares d → unit.Declares d' → d.item.id = d'.item.id → d = d') :
    (ofUnit unit).find? id = some declaration ↔ unit.Declares declaration ∧
    declaration.item.id = id := by
  refine ⟨fun found => mem_entries.mp (mem_of_find? found), fun ⟨declares, same⟩ => ?_⟩
  cases found : (ofUnit unit).find? id with
  | none =>
    have absent := lookup_eq_none_iff.mp found _ (mem_entries.mpr ⟨declares, same⟩)
    exact absurd rfl (bne_iff_ne.mp absent)
  | some other =>
    obtain ⟨declares', same'⟩ := mem_entries.mp (mem_of_find? found)
    rw [apart other declaration declares' declares (same'.trans same.symm)]

end Declarations

namespace Global

theorem isGlobal_id : ∀ g ∈ all, g.id.isGlobal = true := by decide

/-- Globals have different identities. -/
theorem ofId?_id : ∀ g ∈ all, ofId? g.id = some g := by decide

theorem ofId?_eq_some_iff {id : NodeId} {g : Global} : ofId? id = some g ↔ g ∈ all ∧ g.id = id := by
  constructor
  · intro found
    have is := find?_some (p := fun global : Global => global.id == id) found
    exact ⟨mem_of_find?_eq_some found, beq_iff_eq.mp is⟩
  · rintro ⟨mem, rfl⟩
    exact ofId?_id g mem

end Global

theorem Declarations.lookup?_of_isGlobal {d : Declarations} {id : NodeId}
    (isGlobal : id.isGlobal = true) {declaration : Declaration} :
    d.lookup? id = some declaration ↔ ∃ g ∈ Global.all, g.id = id ∧
      declaration = ⟨.global g, none⟩ := by
  rw [lookup?, if_pos isGlobal, Option.map_eq_some_iff]
  refine exists_congr fun g => ?_
  rw [Global.ofId?_eq_some_iff, and_assoc]
  exact and_congr_right fun _ => and_congr_right fun _ => eq_comm

/-- Where the declarations of a unit have identities that differ and are not negative, an identity
refers to the declaration that has it, with the contract that this lies in, or to a global. Negative
identities refer to globals only. -/
theorem lookup_iff_declared {unit : SourceUnit}
    (apart : ∀ d d', unit.Declares d → unit.Declares d' → d.item.id = d'.item.id → d = d')
    (natural : ∀ d, unit.Declares d → d.item.id.isGlobal = false) (id : NodeId)
    (declaration : Declaration) : ((Declarations.ofUnit unit).lookup? id = some declaration ↔
      (unit.Declares declaration ∧ declaration.item.id = id) ∨
        ∃ g ∈ Global.all, g.id = id ∧ declaration = ⟨.global g, none⟩) ∧
    (id.isGlobal = true → (Declarations.ofUnit unit).lookup? id = some declaration →
      ∃ g ∈ Global.all, g.id = id ∧ declaration = ⟨.global g, none⟩) := by
  cases isGlobal : id.isGlobal with
  | true =>
    refine ⟨(Declarations.lookup?_of_isGlobal isGlobal).trans (or_iff_right ?_).symm,
      fun _ => (Declarations.lookup?_of_isGlobal isGlobal).mp⟩
    rintro ⟨declares, rfl⟩
    rw [natural _ declares] at isGlobal
    cases isGlobal
  | false =>
    refine ⟨?_, fun never => absurd never Bool.false_ne_true⟩
    rw [Declarations.lookup?, if_neg (Bool.eq_false_iff.mp isGlobal),
      Declarations.find?_eq_some_iff apart]
    refine (or_iff_left ?_).symm
    rintro ⟨g, mem, rfl, -⟩
    rw [Global.isGlobal_id g mem] at isGlobal
    cases isGlobal

/-- Identities that are listed once belong to one declaration. -/
theorem SourceUnit.DeclaresApart.eq_of_id {unit : SourceUnit} (apart : unit.DeclaresApart)
    (d d' : Declaration) (declares : unit.Declares d) (declares' : unit.Declares d')
    (same : d.item.id = d'.item.id) : d = d' := by
  have found := lookup_of_mem apart (Declarations.mem_entries.mpr ⟨declares, same⟩)
  have found' := lookup_of_mem apart (Declarations.mem_entries.mpr ⟨declares', rfl⟩)
  exact Option.some.inj (found.symm.trans found')

/-- A parameter of a function type. -/
def callbackParameter : Variable :=
  .mk { node := ⟨⟨30⟩, .unknown⟩, name := "flag" }
    (some (.elementary ⟨⟨31⟩, .unknown⟩ "bool" false)) none

/-- A variable with a function type deep in its type. -/
def callbacksVariable : Variable :=
  let node (id : Int64) : Node := ⟨⟨id⟩, .unknown⟩
  .mk { node := node 16, name := "callbacks" }
    (some (.mapping (node 20) (.elementary (node 21) "bool" false)
      (.array (node 22) (.function (node 23) [] [callbackParameter] .external .nonPayable) none)))
      none

/-- A function that declares the variable in a clause of a try statement in a loop. -/
def nestedFunction : Function :=
  let node (id : Int64) : Node := ⟨⟨id⟩, .unknown⟩
  let attempt : Statement := .tryCatch (node 12) (.identifier (node 13) "run" (some ⟨3⟩) [])
    [.mk (node 14) "" none
      (.mk (node 17) [.declare (node 15) [none, some callbacksVariable] none] false)]
  { (default : Function) with
    node := node 3, name := "run"
    body := some (.mk (node 10)
      [.forLoop (node 11) none none none (.block (node 18) (.mk (node 19) [attempt] false))] false)
      }

def nestedContract : Contract where
  node := ⟨⟨2⟩, .unknown⟩
  name := "Nested"
  kind := .contract
  isAbstract := false
  bases := []
  linearization := []
  parts := [.function nestedFunction]

def nestedUnit : SourceUnit where
  node := ⟨⟨1⟩, .unknown⟩
  path := "nested"
  abiCoder := none
  parts := [.contract nestedContract]

theorem lookup_iff_declared_nested :
    nestedUnit.DeclaresApart ∧ (∀ d, nestedUnit.Declares d → d.item.id.isGlobal = false) ∧
      (Declarations.ofUnit nestedUnit).lookup? ⟨30⟩ =
        some ⟨.var callbackParameter, some nestedContract.id⟩ := by
  have apart : nestedUnit.DeclaresApart := by decide
  have listed : ∀ entry ∈ (Declarations.ofUnit nestedUnit).entries, entry.1.isGlobal = false := by
    decide
  have natural (d : Declaration) (declares : nestedUnit.Declares d) : d.item.id.isGlobal = false :=
    listed (d.item.id, d) (Declarations.mem_entries.mpr ⟨declares, rfl⟩)
  have inBody : bodyDeclares nestedFunction.body callbacksVariable :=
    ⟨_, rfl, _, .head _,
      .forLoop (.block (.head _) (.clause (.head _) (.head _) (.slot (.tail _ (.head _)))))⟩
  have inType : callbacksVariable.Brings callbackParameter :=
    .inr ⟨_, rfl, .value (.element (.parameter (.head _)))⟩
  have declares : nestedUnit.Declares ⟨.var callbackParameter, some nestedContract.id⟩ :=
    .member (.head _) (.head _ : ContractPart.function nestedFunction ∈ nestedContract.parts)
      (.var (.inr (.inr inBody)) inType)
  have exactly := (lookup_iff_declared apart.eq_of_id natural ⟨30⟩
    ⟨.var callbackParameter, some nestedContract.id⟩).1
  exact ⟨apart, natural, exactly.mpr (.inl ⟨declares, rfl⟩)⟩

end ContractTyping
