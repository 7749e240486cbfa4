import ContractTyping.Proofs.Member.Basic
import ContractTyping.Proofs.Struct.Containment
import ContractTyping.Proofs.Trace.Entered

/-!
# Fields behind attached functions

The field of a struct is a member without a declaration, and a function that a directive attaches is
one with a declaration. Among several members only those with a declaration can be chosen. So a
field has its own type exactly if no directive in force attaches a function of its name
(`struct_field_unless_attached`).
-/

namespace ContractTyping

open List

namespace Declarations

variable {d : Declarations} {location : DataLocation}

theorem memberType_name {v : Variable} {member : String × Ty}
    (run : d.memberType location v = .ok member) : member.1 = v.name := by
  unfold memberType at run
  split at run
  all_goals
    obtain ⟨t, -, equal⟩ := bind_eq_ok.mp run
    cases equal
    rfl

/-- The first field of a name is the one that is found. -/
theorem lookup_of_structMembers {id : NodeId} {s : StructDef} {within : Option NodeId}
    {fields : List (String × Ty)}
    {name : String} {field : Variable} {t : Ty} (declared : d.struct? id = some (s, within))
    (run : d.structMembers id location = .ok fields)
    (first : s.members.find? (·.name == name) = some field)
    (typed : d.memberType location field = .ok (field.name, t)) : fields.lookup name = some t := by
  unfold structMembers at run
  rw [declared] at run
  have each : Forall₂ (fun v member => d.memberType location v = .ok member) s.members fields :=
    forall₂_of_mapM run
  generalize s.members = vars at first each
  clear run
  induction each with
  | nil => cases first
  | @cons v member rest others one _ ih =>
    rw [find?_cons] at first
    rw [lookup_cons, memberType_name one, BEq.comm]
    cases same : v.name == name with
    | true =>
      rw [same] at first
      cases first
      cases one.symm.trans typed
      rfl
    | false =>
      rw [same] at first
      exact ih first

end Declarations

/-- A field is found unless functions are attached under its name. -/
theorem Check.memberType_field {c : Context} {σ τ : Findings} {unit : SourceUnit} {id : NodeId}
    {structName name : String} {place : Place} {arguments : Option Arguments} {span : Span}
    {t field : Ty} (known : c.declarations = .ofUnit unit)
    (isField : ∀ fields, c.declarations.structMembers id place.location = .ok fields →
      fields.lookup name = some field)
    (notMapping : ∀ key value, field ≠ .mapping key value) (valid : field.isInvalid = false)
    (plain : field.isDeclared = false)
    (run : memberType (.struct id structName place) name arguments span c σ = .ok (t, τ)) :
    t = field ↔ ¬ ∃ u ∈ c.directives, ∃ library f, c.Attaches σ (.struct id structName place)
      name u library f := by
  obtain ⟨members, attached, υ, φ, declared, attaching, selecting⟩ :=
    memberType_declared rfl rfl run
  obtain ⟨fields, typed, ⟨missing, -⟩ | ⟨t', u, found, rfl, same⟩⟩ := structMember_ok declared
  · cases missing.symm.trans (isField fields typed)
  cases found.symm.trans (isField fields typed)
  obtain ⟨rfl, rfl⟩ : u = field ∧ υ = σ := same.resolve_right fun ⟨_, key, value, isMapping⟩ =>
    notMapping key value isMapping
  obtain ⟨nothing, offered⟩ := attachedFunctions_ok known attaching
  simp only [not_mem_nil, imp_false] at nothing
  simp only [not_exists, not_and, ← nothing]
  constructor
  · rintro rfl
    rcases selectMember_ok selecting with rfl | ⟨m, only, -⟩ | selected
    · cases valid
    · exact (cons.inj only).2
    · rcases Candidate.mem_of_select selected with ⟨candidate, mem, rfl⟩ | ⟨several, -, rfl⟩
      · obtain ⟨m, among, isCandidate⟩ := mem_filterMap.mp mem
        obtain ⟨d, standsFor, rfl⟩ := Option.map_eq_some_iff.mp isCandidate
        rcases mem_cons.mp among with isFirst | among
        · cases (congrArg Member.declaration isFirst).symm.trans standsFor
        · obtain ⟨_, -, -, -, g, isFunction, named⟩ := offered m among
          rw [isFunction] at plain
          cases (congrArg Option.isSome named).symm.trans plain
      · cases plain
  · rintro rfl
    cases selecting
    rfl

/-- A member access that is visited, behind a struct with a field of the name, not a mapping. -/
structure FieldAccess (unit : SourceUnit) (settings : Settings) (a : Annotations) where
  scope : Scope
  node : Node
  front : Expr
  name : String
  id : NodeId
  structName : String
  place : Place
  definition : StructDef
  within : Option NodeId
  field : Variable
  typeName : TypeName
  origin : Place
  fieldType : Ty
  visits : unit.Visits settings a scope (.member node front name)
  isStruct : a.expression? front.id = some (.struct id structName place)
  declared : (Declarations.ofUnit unit).struct? id = some (definition, within)
  first : definition.members.find? (·.name == name) = some field
  named : field.typeName = some typeName
  resolved : ((Declarations.ofUnit unit).resolve typeName origin).run = .ok (.ok fieldType)
  notMapping : ∀ key value, fieldType ≠ .mapping key value

namespace FieldAccess

variable {unit : SourceUnit} {settings : Settings} {a : Annotations}
  (access : FieldAccess unit settings a)

/-- The type of the field, located like the struct and not a pointer. -/
def type : Ty := access.fieldType.moveTo ⟨access.place.location, false⟩

/-- Whether a directive of the file, or of the current contract and its bases, attaches a function
to the struct under the name of the field. -/
def IsHidden (σ : Findings) : Prop :=
  let context : Context := { Check.contextOf unit settings with scope := access.scope }
  ∃ u ∈ context.directives, ∃ library f,
    context.Attaches σ (.struct access.id access.structName access.place) access.name u library f

end FieldAccess

/-- **Fields give way to attached functions.** The access to a field of a struct has the type of the
first field of the name exactly if no function is attached under that name. The parameters of
functions have the types that were recorded by then (`σ`), or those of their type names. -/
theorem struct_field_unless_attached {unit : SourceUnit} {settings : Settings} {report : Report}
    (checked : check unit settings = .ok report)
    (access : FieldAccess unit settings report.annotations) :
    ∃ t σ, report.annotations.expression? access.node.id = some t ∧
      (∀ v u, σ.var? v = some u → report.annotations.var? v = some u) ∧
        (t = access.type ↔ ¬ access.IsHidden σ) := by
  obtain ⟨found, run, rfl⟩ := check_ok.mp checked
  obtain ⟨base, t, arguments, σ, τ, front, recorded, later, chosen⟩ :=
    (visited_of_visits run access.visits).member
  cases front.symm.trans access.isStruct
  have atPlace :=
    Declarations.resolve_moveTo access.typeName access.resolved ⟨access.place.location, false⟩
  refine ⟨t, σ, recorded, later.var, Check.memberType_field rfl (fun fields typed => ?_)
    (fun key value equal => ?_)
    (Ty.clean_hereditary.resolve _ atPlace).not_isInvalid
    (Declarations.resolve_isDeclared atPlace) chosen⟩
  · exact Declarations.lookup_of_structMembers access.declared typed access.first
      (Declarations.memberType_of_resolve access.named access.resolved)
  · cases isMapping : access.fieldType <;> rw [FieldAccess.type, isMapping] at equal <;> cases equal
    exact access.notMapping _ _ isMapping

/-- A struct with two fields. -/
def accountStruct : StructDef :=
  let field (id type : Int64) (name : String) : Variable :=
    .mk { node := ⟨⟨id⟩, .unknown⟩, name }
      (some (.elementary ⟨⟨type⟩, .unknown⟩ "uint256" false)) none
  ⟨⟨⟨2⟩, .unknown⟩, "Account", [field 3 4 "total", field 5 6 "limit"]⟩

/-- A function that takes the struct. -/
def takesAccount (id parameter type path body : Int64) (name : String)
    (statements : List Statement) : Function :=
  { (default : Function) with
    node := ⟨⟨id⟩, .unknown⟩, name, body := some (.mk ⟨⟨body⟩, .unknown⟩ statements false)
    parameters := [.mk { node := ⟨⟨parameter⟩, .unknown⟩, name := "account", location := .memory }
      (some (.userDefined ⟨⟨type⟩, .unknown⟩ ⟨⟨⟨path⟩, .unknown⟩, ["Account"], some ⟨2⟩⟩)) none] }

/-- A library with a function of the name of the first field. -/
def ledgersLibrary : Contract :=
  ⟨⟨⟨7⟩, .unknown⟩, "Ledgers", .library, false, [], [],
    [.function (takesAccount 8 9 10 11 12 "total" [])]⟩

def accountAccess (id front : Int64) (name : String) : Expr :=
  .member ⟨⟨id⟩, .unknown⟩ (.identifier ⟨⟨front⟩, .unknown⟩ "account" (some ⟨16⟩) []) name

/-- A function that reads both fields. -/
def readFunction : Function :=
  takesAccount 15 16 17 18 19 "read" [.expression ⟨⟨20⟩, .unknown⟩ (accountAccess 21 22 "total"),
    .expression ⟨⟨23⟩, .unknown⟩ (accountAccess 24 25 "limit")]

def accountUnit : SourceUnit where
  node := ⟨⟨1⟩, .unknown⟩
  path := "account"
  abiCoder := none
  parts := [.struct accountStruct, .contract ledgersLibrary,
    .usingFor ⟨⟨⟨13⟩, .unknown⟩, ⟨⟨⟨14⟩, .unknown⟩, ["Ledgers"], some ⟨7⟩⟩, none⟩,
    .function readFunction]

theorem check_accountUnit : ∃ report, check accountUnit {} = .ok report ∧ report.passed = true ∧
    report.annotations.expression? ⟨22⟩ = some (.struct ⟨2⟩ "Account" .memory) ∧
    report.annotations.expression? ⟨25⟩ = some (.struct ⟨2⟩ "Account" .memory) ∧
    (report.annotations.expression? ⟨21⟩).bind Ty.declaration? = some ⟨8⟩ :=
  exists_ok (by decide +kernel)

theorem struct_field_unless_attached_limit :
    ∃ report, check accountUnit {} = .ok report ∧
      report.annotations.expression? ⟨24⟩ = some (.integer 256 false) := by
  obtain ⟨report, checked, -, -, front, -⟩ := check_accountUnit
  have visits : accountUnit.Visits {} report.annotations { function := some readFunction }
      (accountAccess 24 25 "limit") :=
    ⟨_, .tail _ (.tail _ (.tail _ (.head _))), nofun, _, .tail _ (.head _), rfl, .head _⟩
  obtain ⟨t, σ, recorded, -, isField⟩ :=
    struct_field_unless_attached checked ⟨_, _, _, _, _, _, _, _, _, _, _, .memory,
    .integer 256 false, visits, front, rfl, rfl, rfl, rfl, nofun⟩
  refine ⟨report, checked, recorded.trans (congrArg some (isField.mpr ?_))⟩
  rintro ⟨u, mem, library, f, attaches⟩
  cases List.mem_singleton.mp mem
  cases attaches.names
  cases List.mem_singleton.mp attaches.own
  have named : "total" = "limit" := attaches.fits.named
  exact absurd named (by decide)

/-- A field can be hidden. -/
theorem struct_field_can_be_hidden :
    ¬ ∀ (unit : SourceUnit) (settings : Settings) (report : Report),
      check unit settings = .ok report → ∀ access : FieldAccess unit settings report.annotations,
        report.annotations.expression? access.node.id = some access.type := by
  intro wins
  obtain ⟨report, checked, -, front, -, hidden⟩ := check_accountUnit
  have visits : accountUnit.Visits {} report.annotations { function := some readFunction }
      (accountAccess 21 22 "total") :=
    ⟨_, .tail _ (.tail _ (.tail _ (.head _))), nofun, _, .head _, rfl, .head _⟩
  have field : report.annotations.expression? ⟨21⟩ = some (.integer 256 false) :=
    wins accountUnit {} report checked
      ⟨_, _, _, _, _, _, _, _, _, _, _, .memory, .integer 256 false, visits, front,
      rfl, rfl, rfl, rfl, nofun⟩
  rw [field] at hidden
  cases hidden

end ContractTyping
