import ContractTyping.Proofs.Declared
import ContractTyping.Proofs.Effect.Basic
import ContractTyping.Proofs.Remarks

/-!
# Effects of following references

Looking up declarations, their types and their members types nothing. `Site.Legal` collects what has
to be known about a site for that: which variables are read on the way, and which faults can come
up.
-/

namespace ContractTyping

open Check List

/-! ## What is read -/

/-- The declarations that an identifier refers to. -/
def Expr.targets : Expr → List NodeId
  | identifier _ _ target overloads => target.toList ++ overloads
  | _ => []

/-- The numbers of names and of values of a call, if they differ. -/
def Expr.mismatch? : Expr → Option (Nat × Nat)
  | call _ _ arguments names =>
    if names.isEmpty || names.length == arguments.length then none
    else some (names.length, arguments.length)
  | callOptions _ _ names options =>
    if names.length == options.length then none else some (names.length, options.length)
  | _ => none

/-- Contexts that answer every question of a check alike. -/
structure Context.Alike (c c' : Context) : Prop where
  settings : c'.settings = c.settings
  scope : c'.scope = c.scope
  abiCoder : c'.abiCoder = c.abiCoder
  directives : c'.unit.usingForDirectives = c.unit.usingForDirectives
  lookup : c'.declarations.lookup? = c.declarations.lookup?
  contract : c'.declarations.contract? = c.declarations.contract?
  linearized : c'.declarations.linearized = c.declarations.linearized
  cycle : c'.declarations.cycle? = c.declarations.cycle?
  contractTy : c'.declarations.contractTy = c.declarations.contractTy
  structTy : c'.declarations.structTy = c.declarations.structTy
  evaluate : c'.declarations.evaluate = c.declarations.evaluate
  resolve : c'.declarations.resolve = c.declarations.resolve
  declaredType : c'.declarations.declaredType = c.declarations.declaredType
  structMembers : c'.declarations.structMembers = c.declarations.structMembers
  isEncodable : c'.structs.isEncodable = c.structs.isEncodable
  isLegacyEncodable : c'.structs.isLegacyEncodable = c.structs.isLegacyEncodable
  containsMapping : c'.structs.containsMapping = c.structs.containsMapping
  hasInfiniteSize : c'.structs.hasInfiniteSize = c.structs.hasInfiniteSize

namespace Context.Alike

variable {c c' : Context}

variable (alike : c.Alike c')

include alike

theorem sameRules : c.SameRules c' :=
  ⟨alike.settings, alike.abiCoder, alike.isEncodable, alike.isLegacyEncodable,
    alike.containsMapping⟩

theorem contractId? : c'.contractId? = c.contractId? := by
  rw [Context.contractId?, Context.contractId?, alike.scope]

theorem requireFeature : c'.requireFeature = c.requireFeature := by
  funext feature available
  rw [Context.requireFeature, Context.requireFeature, alike.settings]

theorem builtinMember : BuiltinMember.of c' = BuiltinMember.of c := by
  have gated : BuiltinMember.gated c' = BuiltinMember.gated c := by
    funext feature available t
    rw [BuiltinMember.gated, BuiltinMember.gated, alike.requireFeature]
  have ofAddress : BuiltinMember.ofAddress c' = BuiltinMember.ofAddress c := by
    funext payable name
    unfold BuiltinMember.ofAddress
    rw [gated]
  have ofMagic : BuiltinMember.ofMagic c' = BuiltinMember.ofMagic c := by
    funext kind name
    unfold BuiltinMember.ofMagic
    rw [gated]
  have ofMetaType : BuiltinMember.ofMetaType c' = BuiltinMember.ofMetaType c := by
    funext actual name
    unfold BuiltinMember.ofMetaType
    rw [alike.contract, alike.contractId?]
  funext arguments base name
  unfold BuiltinMember.of
  rw [ofAddress, ofMagic, ofMetaType]

end Context.Alike

namespace Site

/-- A variable may be asked for its type. -/
def Readable (S : Site) (v : Variable) : Prop :=
  S.reads v ∧ ∀ fault, Declarations.orInvalid (S.here.declarations.declaredType v) = .error fault →
    S.faults fault

/-- A type name may be resolved. -/
def Resolvable (S : Site) (typeName : TypeName) : Prop :=
  ∀ place fault, (S.here.declarations.resolve typeName place).run = .error fault → S.faults fault

/-- What a check relies on at a site. -/
structure Legal (S : Site) : Prop where
  alike : S.here.Alike S.there
  items : ∀ id declaration, S.here.declarations.lookup? id = some declaration →
    declaration.item.var? = none → ∀ v ∈ declaration.item.signature, S.Readable v
  contracts : ∀ id c, S.here.declarations.contract? id = some c → ∀ v ∈ c.signature, S.Readable v
  named : ∀ e ∈ S.inventory.nodes, ∀ id ∈ e.targets, ∀ declaration,
    S.here.declarations.lookup? id = some declaration →
      ∀ v ∈ declaration.item.signature, S.Readable v
  vars : ∀ v ∈ S.inventory.vars, S.Readable v
  returns : ∀ f, S.here.scope.function = some f → f.returns ⊆ S.inventory.vars
  settles : ∀ v ∈ S.inventory.vars, ∀ t,
    Declarations.orInvalid (S.here.declarations.declaredType v) = .ok t → S.settles v.id t
  settlesFields : ∀ v ∈ S.inventory.fields, ∀ t, S.settles v.id t
  targets : ∀ e ∈ S.inventory.nodes, ∀ id ∈ e.targets, S.here.declarations.lookup? id = none →
    S.faults (.danglingReference e.id id)
  paths : ∀ path ∈ S.inventory.paths, ∀ id, path.target = some id →
    S.here.declarations.lookup? id = none → S.faults (.danglingReference path.node.id id)
  names : ∀ e ∈ S.inventory.nodes, ∀ names values, e.mismatch? = some (names, values) →
    S.faults (.argumentNamesMismatch e.id names values)
  members : ∀ id location fault, S.here.declarations.structMembers id location = .error fault →
    S.faults fault
  created : ∀ node typeName, .create node typeName ∈ S.inventory.nodes → S.Resolvable typeName
  fields : ∀ v ∈ S.inventory.fields, ∀ typeName, v.typeName = some typeName → S.Resolvable typeName
  typeNames : ∀ typeName ∈ S.inventory.typeNames, S.Resolvable typeName
  directives : ∀ u ∈ S.here.unit.usingForDirectives, ∀ typeName, u.typeName = some typeName →
    S.Resolvable typeName
  contractDirectives : ∀ id c, S.here.declarations.contract? id = some c →
    ∀ u ∈ c.usingForDirectives, ∀ typeName, u.typeName = some typeName → S.Resolvable typeName
  indices : ∀ node base index, .index node base (some index) ∈ S.inventory.nodes → ∀ fault,
    S.here.declarations.evaluate index = .error fault → S.faults fault

theorem Legal.within {S : Site} (legal : S.Legal) {scope : Scope}
    (returns : ∀ f, scope.function = some f → f.returns ⊆ S.inventory.vars) :
    (S.within scope).Legal :=
  { legal with
    alike := { legal.alike with scope := rfl }
    returns }

/-! ## Questions to the context -/

variable {S : Site} (legal : S.Legal)

include legal

theorem Legal.resolve {typeName : TypeName} (resolvable : S.Resolvable typeName)
    (place : Place) : S.Quiet (resolve typeName place) := by
  refine Acts.read ?_ (Quiet.ofExcept (resolvable place))
  rw [legal.alike.resolve]

theorem Legal.structMembers (id : NodeId) (location : DataLocation) :
    S.Quiet (structMembers id location) := by
  refine Acts.read ?_ (Quiet.ofExcept (legal.members id location))
  rw [legal.alike.structMembers]

/-- Remarks type nothing, and they come out the same in contexts that answer alike. -/
theorem Legal.quiet {α : Type} {m : Check α} (remarks : Remarks True False m) : S.Quiet m := by
  induction remarks with
  | pure a => exact Acts.pure a
  | bind _ _ first next => exact Quiet.bind first next
  | record _ => exact Quiet.record _ _ _
  | ask _ same _ next => exact Acts.read (same _ _ legal.alike.sameRules) (next _)
  | structMembers _ id location => exact legal.structMembers id location
  | look allowed | expression? allowed | fail allowed => exact allowed.elim

theorem Legal.variableType {v : Variable} (readable : S.Readable v) : S.Quiet (variableType v) :=
  Quiet.variableType readable.1 (congrFun legal.alike.declaredType v) readable.2

/-! ## Types of declarations -/

theorem Legal.variableTypes {vars : List Variable}
    (readable : ∀ v ∈ vars, S.Readable v) : S.Quiet (variableTypes vars) :=
  Quiet.mapM fun v mem => legal.variableType (readable v mem)

theorem Legal.functionType {f : Function}
    (readable : ∀ v ∈ f.parameters ++ f.returns, S.Readable v) (kind : CallKind) :
    S.Quiet (functionType f kind) := by
  rw [forall_mem_append] at readable
  refine (legal.variableTypes readable.1).bind fun parameters => ?_
  exact (legal.variableTypes readable.2).bind fun returns => Acts.pure _

theorem Legal.eventType {e : Event} (readable : ∀ v ∈ e.parameters, S.Readable v) :
    S.Quiet (eventType e) :=
  (legal.variableTypes readable).bind fun _ => Acts.pure _

theorem Legal.messageType {m : Message}
    (readable : ∀ v ∈ m.parameters ++ m.returns, S.Readable v) : S.Quiet (messageType m) := by
  rw [forall_mem_append] at readable
  refine (legal.variableTypes readable.2).bind fun returns => ?_
  exact (legal.variableTypes readable.1).bind fun parameters => Acts.pure _

theorem Legal.getterType {v : Variable} (readable : S.Readable v) : S.Quiet (getterType v) := by
  refine (legal.variableType readable).bind fun t => ?_
  dsimp only
  split
  · exact (legal.structMembers _ _).bind fun members => (Acts.pure _).bindQuiet fun _ => Acts.pure _
  · exact (Acts.pure _).bindQuiet fun _ => Acts.pure _

theorem Legal.declarationType {declaration : Declaration}
    (readable : ∀ v ∈ declaration.item.signature, S.Readable v) (name : String) (span : Span) :
    S.Quiet (declarationType declaration name span) := by
  refine Acts.read ?_ ?_
  · rw [legal.alike.scope, legal.alike.structTy, legal.alike.contractTy]
  revert readable
  cases declaration.item with
  | var v => exact fun readable => legal.variableType (readable v mem_cons_self)
  | function f => exact fun readable => (legal.functionType readable _).bind fun _ => Acts.pure _
  | modifier m => exact fun readable => (legal.variableTypes readable).bind fun _ => Acts.pure _
  | event e => exact legal.eventType
  | message m => exact legal.messageType
  | struct s => exact fun _ => Acts.pure _
  | contract c => exact fun _ => Acts.pure _
  | global g =>
    intro _
    dsimp only
    split
    · exact Acts.pure _
    · exact Quiet.reject _ _

theorem Legal.followPath {path : Path} (mem : path ∈ S.inventory.paths) :
    S.Quiet (followPath path) := by
  unfold Check.followPath
  split
  · exact (Quiet.report _ _).bind fun _ => Acts.pure _
  · next id target =>
    refine Acts.read ?_ ?_
    · rw [legal.alike.lookup]
    · split
      · exact Acts.pure _
      · next missing => exact Quiet.fail (legal.paths path mem id target missing)

/-! ## Identifiers -/

theorem Legal.selectCandidate (name : String) (candidates : List Candidate)
    (arguments : Option Arguments) (span : Span) :
    S.Quiet (selectCandidate name candidates arguments span) := by
  refine Acts.read ?_ (Quiet.orReject _ _)
  rw [legal.alike.contractId?]

theorem Legal.followAll {node : NodeId} {targets : List NodeId}
    (faults : ∀ id ∈ targets, S.here.declarations.lookup? id = none →
      S.faults (.danglingReference node id)) :
    S.Quiet (followAll node targets) := by
  refine Acts.read ?_ (Quiet.mapM fun id mem => ?_)
  · dsimp only
    rw [legal.alike.lookup]
  · split
    · exact Acts.pure _
    · next missing => exact Quiet.fail (faults id mem missing)

omit legal in
/-- All declarations that are followed have been looked up. -/
theorem followAll_found {node : NodeId} {targets : List NodeId} {found : List Declaration}
    (given : S.Gives (followAll node targets) found) :
    ∀ declaration ∈ found, ∃ id ∈ targets, S.here.declarations.lookup? id = some declaration := by
  obtain ⟨σ, τ, run⟩ := given
  intro declaration mem
  obtain ⟨id, target, υ, υ', one⟩ := mapM_run run declaration mem
  refine ⟨id, target, ?_⟩
  cases looked : S.here.declarations.lookup? id with
  | none => simp only [looked] at one; cases one
  | some other => simp only [looked] at one; cases one; rfl

theorem Legal.candidates {declarations : List Declaration}
    (readable : ∀ declaration ∈ declarations, ∀ v ∈ declaration.item.signature, S.Readable v)
    (name : String) (span : Span) : S.Quiet (candidates declarations name span) := by
  refine Quiet.bind (Quiet.mapM fun declaration mem => ?_) fun all => Acts.pure _
  exact (legal.declarationType (readable declaration mem) name span).bind fun _ => Acts.pure _

theorem Legal.identifierType {node : Node} {name : String} {target : Option NodeId}
    {overloads : List NodeId} (mem : .identifier node name target overloads ∈ S.inventory.nodes)
    (demand : Demand) : S.Quiet (identifierType node name target overloads demand) := by
  have targets : ∀ id ∈ (if overloads.isEmpty then target.toList else overloads),
      id ∈ (Expr.identifier node name target overloads).targets := by
    intro id found
    split at found
    · exact mem_append_left _ found
    · exact mem_append_right _ found
  unfold Check.identifierType
  dsimp only
  generalize (if overloads.isEmpty then target.toList else overloads) = ids at targets ⊢
  split
  · exact Quiet.reject _ _
  refine (legal.followAll fun id found => legal.targets _ mem id (targets id found)).bindGiven
    fun declarations given => ?_
  have readable : ∀ declaration ∈ declarations, ∀ v ∈ declaration.item.signature, S.Readable v := by
    intro declaration found
    obtain ⟨id, target, looked⟩ := followAll_found given declaration found
    exact legal.named _ mem id (targets id target) declaration looked
  have kept : ∀ declaration ∈ declarations.filter fun declaration => !declaration.isExternalMember,
      ∀ v ∈ declaration.item.signature, S.Readable v :=
    fun declaration found => readable declaration (mem_filter.mp found).1
  split
  · exact Quiet.reject _ _
  · next declaration equal =>
    exact legal.declarationType (kept declaration (equal ▸ mem_singleton.mpr rfl)) _ _
  · refine (legal.candidates kept name node.span).bind fun candidates => ?_
    exact legal.selectCandidate _ _ _ _

/-! ## Members -/

theorem Legal.part {id : NodeId} {c : Contract} {part : ContractPart}
    (found : S.here.declarations.contract? id = some c) (mem : part ∈ c.parts) :
    ∀ v ∈ part.signature, S.Readable v :=
  fun v inPart => legal.contracts id c found v (mem_flatMap.mpr ⟨part, mem, inPart⟩)

theorem Legal.structMember (base : Ty) (id : NodeId) (location : DataLocation)
    (name : String) (span : Span) : S.Quiet (structMember base id location name span) := by
  refine (legal.structMembers _ _).bind fun members => ?_
  split
  · exact Acts.pure _
  · split
    · exact Acts.pure _
    · exact (Quiet.reject _ _).bind fun _ => Acts.pure _
  · exact Acts.pure _

theorem Legal.instanceMember {part : ContractPart}
    (readable : ∀ v ∈ part.signature, S.Readable v) (scope : NodeId) (name : String) :
    S.Quiet (instanceMember scope name part) := by
  unfold Check.instanceMember
  split
  · split
    · exact (legal.functionType readable _).bind fun _ => Acts.pure _
    · exact Acts.pure _
  · split
    · exact (legal.getterType (readable _ mem_cons_self)).bind fun _ => Acts.pure _
    · exact Acts.pure _
  · split
    · exact (legal.messageType readable).bind fun _ => Acts.pure _
    · exact Acts.pure _
  · exact Acts.pure _

theorem Legal.linearized (c : ContractTy) : S.Quiet (linearized c) := by
  refine Acts.read ?_ (Acts.pure _)
  rw [legal.alike.contract]

omit legal in
theorem linearized_found {c : ContractTy} {found : List Contract}
    (given : S.Gives (linearized c) found) :
    ∀ k ∈ found, ∃ id, S.here.declarations.contract? id = some k := by
  obtain ⟨σ, τ, run⟩ := given
  cases run
  intro k mem
  obtain ⟨id, -, looked⟩ := mem_filterMap.mp mem
  exact ⟨id, looked⟩

theorem Legal.instanceMembers (c : ContractTy) (name : String) :
    S.Quiet (instanceMembers c name) := by
  refine (legal.linearized c).bindGiven fun bases given => ?_
  refine Quiet.bind (Quiet.mapM fun k mem => Quiet.mapM fun part inParts => ?_) fun _ => Acts.pure _
  obtain ⟨id, found⟩ := linearized_found given k mem
  exact legal.instanceMember (legal.part found inParts) _ _

theorem Legal.superMember {f : Function}
    (readable : ∀ v ∈ f.parameters ++ f.returns, S.Readable v) (scope : NodeId) (name : String) :
    S.Quiet (superMember scope name f) := by
  unfold Check.superMember
  split
  · exact (legal.functionType readable _).bind fun _ => Acts.pure _
  · exact Acts.pure _

theorem Legal.superMembers (c : ContractTy) (name : String) : S.Quiet (superMembers c name) := by
  refine (legal.linearized c).bindGiven fun bases given => ?_
  refine Quiet.bind (Quiet.mapM fun k mem => Quiet.mapM fun f inFunctions => ?_)
    fun _ => Acts.pure _
  obtain ⟨id, found⟩ := linearized_found given k (mem_of_mem_drop mem)
  exact legal.superMember (legal.part found (Contract.mem_functions.mp inFunctions)) _ _

theorem Legal.typeMember {part : ContractPart}
    (readable : ∀ v ∈ part.signature, S.Readable v) (definition : Contract) (isBase : Bool)
    (name : String) : S.Quiet (typeMember definition isBase name part) := by
  unfold Check.typeMember
  split
  · split
    · split
      · exact (legal.functionType readable _).bind fun _ => Acts.pure _
      · exact Acts.pure _
    · exact Acts.pure _
  · split
    · refine Acts.read ?_ (Acts.pure _)
      rw [legal.alike.structTy]
    · exact Acts.pure _
  · split
    · exact (legal.eventType readable).bind fun _ => Acts.pure _
    · exact Acts.pure _
  · exact Acts.pure _

theorem Legal.typeMembers (c : ContractTy) (name : String) : S.Quiet (typeMembers c name) := by
  refine Acts.read ?_ ?_
  · rw [legal.alike.contract, legal.alike.scope, legal.alike.linearized]
  split
  · exact Acts.pure _
  · next k found =>
    refine Quiet.bind (Quiet.mapM fun part mem => ?_) fun _ => Acts.pure _
    exact legal.typeMember (legal.part found mem) _ _ _

theorem Legal.declaredMembers (base : Ty) (name : String) (span : Span) :
    S.Quiet (declaredMembers base name span) := by
  unfold Check.declaredMembers
  split
  · exact legal.structMember _ _ _ _ _
  · split
    · exact legal.superMembers _ _
    · exact legal.instanceMembers _ _
  · exact legal.typeMembers _ _
  · exact Acts.pure _

/-! ## Attached functions -/

theorem Legal.directivesQuiet : S.Quiet Check.directives := by
  refine Acts.read ?_ (Acts.pure _)
  rw [legal.alike.scope, legal.alike.linearized, legal.alike.contract, legal.alike.directives]

theorem Legal.directives_resolvable {found : List UsingFor}
    (given : S.Gives Check.directives found) :
    ∀ u ∈ found, ∀ typeName, u.typeName = some typeName → S.Resolvable typeName := by
  obtain ⟨σ, τ, run⟩ := given
  cases run
  intro u mem
  rcases mem_append.mp mem with ofUnit | inherited
  · exact legal.directives u ofUnit
  · split at inherited
    · obtain ⟨k, inBases, inContract⟩ := mem_flatMap.mp inherited
      obtain ⟨id, -, looked⟩ := mem_filterMap.mp inBases
      exact legal.contractDirectives id k looked u inContract
    · cases inherited

theorem Legal.directiveApplies {u : UsingFor}
    (resolvable : ∀ typeName, u.typeName = some typeName → S.Resolvable typeName) (base : Ty) :
    S.Quiet (directiveApplies u base) := by
  unfold Check.directiveApplies
  split
  · exact Acts.pure _
  · next typeName equal =>
    refine (legal.resolve (resolvable typeName equal) _).bind fun result => ?_
    split <;> exact Acts.pure _

theorem Legal.attachedFunction {f : Function}
    (readable : ∀ v ∈ f.parameters ++ f.returns, S.Readable v) (base : Ty) (library : Contract)
    (name : String) : S.Quiet (attachedFunction base library name f) := by
  unfold Check.attachedFunction
  split
  · exact Acts.pure _
  · refine (legal.functionType readable _).bind fun type => ?_
    split
    · split <;> exact Acts.pure _
    · exact Acts.pure _

theorem Legal.directiveLibrary (u : UsingFor) : S.Quiet (directiveLibrary u) := by
  refine Acts.read ?_ (Acts.pure _)
  dsimp only
  rw [legal.alike.contract]

omit legal in
theorem directiveLibrary_found {u : UsingFor} {library : Contract}
    (given : S.Gives (directiveLibrary u) (some library)) :
    ∃ id, S.here.declarations.contract? id = some library := by
  obtain ⟨σ, τ, run⟩ := given
  have equal : (u.library.target.bind S.here.declarations.contract?).filter Contract.isLibrary =
      some library := congrArg Prod.fst (Except.ok.inj run)
  obtain ⟨id, -, looked⟩ := Option.bind_eq_some_iff.mp (Option.filter_eq_some_iff.mp equal).1
  exact ⟨id, looked⟩

theorem Legal.attachedFunctions (base : Ty) (name : String) {us : List UsingFor}
    (resolvable : ∀ u ∈ us, ∀ typeName, u.typeName = some typeName → S.Resolvable typeName)
    (attached : List NodeId) : S.Quiet (attachedFunctions base name us attached) := by
  induction us generalizing attached with
  | nil => exact Acts.pure _
  | cons u rest ih =>
    have others := ih fun u mem => resolvable u (mem_cons_of_mem _ mem)
    refine (legal.directiveLibrary u).bindGiven fun found given => ?_
    cases found with
    | none => exact others attached
    | some library =>
      obtain ⟨id, looked⟩ := directiveLibrary_found given
      dsimp only
      split
      · exact others attached
      · refine (legal.directiveApplies (resolvable u mem_cons_self) base).bind fun applies => ?_
        split
        · refine Quiet.bind (Quiet.mapM fun f mem => ?_) fun members => ?_
          · exact legal.attachedFunction (legal.part looked (Contract.mem_functions.mp mem)) _ _ _
          · exact (others _).bind fun _ => Acts.pure _
        · exact others attached

theorem Legal.memberType (base : Ty) (name : String) (arguments : Option Arguments)
    (span : Span) : S.Quiet (memberType base name arguments span) := by
  have selects (members : List Member) :
      S.Quiet (selectMember members base name arguments span) := by
    unfold selectMember
    split
    · exact Quiet.reject _ _
    · exact Acts.pure _
    · exact legal.selectCandidate _ _ _ _
  unfold Check.memberType
  split
  · exact Acts.pure _
  refine Acts.read ?_ ?_
  · rw [legal.alike.builtinMember]
  split
  · exact Quiet.orReject _ _
  refine (legal.declaredMembers base name span).bind fun members => ?_
  split
  · exact (Acts.pure _).bindQuiet fun attached => selects _
  · refine legal.directivesQuiet.bindGiven fun us given => ?_
    refine (legal.attachedFunctions base name (legal.directives_resolvable given) []).bind
      fun attached => ?_
    exact selects _

end Site

end ContractTyping
