import ContractTyping.Proofs.Parentheses.Basic

/-!
# Types of declarations with parentheses

The types of declarations, identifiers and members are the same with parentheses somewhere in the
source unit. What is declared is looked up with the parentheses in it, and they do not show in its
type.
-/

namespace ContractTyping

open Check List Wrapping

/-! ## Candidates and members -/

namespace Wrapping

variable (W : Wrapping)

def candidate (c : Candidate) : Candidate := { c with declaration := W.declaration c.declaration }

def member (m : Member) : Member := { m with declaration := m.declaration.map W.declaration }

theorem isHidden_candidate (contract : Option NodeId) (c : Candidate) :
    (W.candidate c).isHidden contract = c.isHidden contract := by
  obtain ⟨⟨item, scope⟩, t⟩ := c
  cases item <;> rfl

theorem distinct_map (candidates : List Candidate) :
    Candidate.distinct (candidates.map W.candidate) = (Candidate.distinct candidates).map
      W.candidate := by
  have step (kept : List Candidate) : candidates.foldl (fun kept c =>
        if kept.any fun c' => c'.overlaps (W.candidate c) then kept else kept ++ [W.candidate c])
        (kept.map W.candidate) =
      (candidates.foldl (fun kept c =>
        if kept.any fun c' => c'.overlaps c then kept else kept ++ [c]) kept).map W.candidate := by
    induction candidates generalizing kept with
    | nil => rfl
    | cons c rest ih =>
      have same : ((kept.map W.candidate).any fun c' => c'.overlaps (W.candidate c)) =
          kept.any fun c' => c'.overlaps c := any_map
      rw [foldl_cons, foldl_cons, same, ← ih]
      split
      · rfl
      · rw [map_append]
        rfl
  unfold Candidate.distinct
  rw [foldl_map]
  exact step []

theorem select_map (name : String) (contract : Option NodeId) (candidates : List Candidate)
    (arguments : Option Arguments) :
    Candidate.select name contract (candidates.map W.candidate) arguments =
      Candidate.select name contract candidates arguments := by
  have visible : (candidates.map W.candidate).filter (fun c => !c.isHidden contract) =
      (candidates.filter fun c => !c.isHidden contract).map W.candidate := by
    rw [filter_map]
    congr 2
    funext c
    exact congrArg (!·) (W.isHidden_candidate contract c)
  unfold Candidate.select
  rw [visible, distinct_map]
  generalize Candidate.distinct _ = kept
  have accepted (arguments : Arguments) :
      (kept.map W.candidate).filter (Candidate.accepts arguments) =
      (kept.filter (Candidate.accepts arguments)).map W.candidate := filter_map
  have types : (kept.map W.candidate).map Candidate.type = kept.map Candidate.type := map_map
  match kept with
  | [] | [_] => rfl
  | c :: c' :: rest =>
    cases arguments with
    | none =>
      have typed :=
        congrArg (fun types => (Except.ok (Ty.overloaded types) : Except Issue Ty)) types
      exact typed
    | some arguments =>
      have same := accepted arguments
      simp only [map_cons] at same ⊢
      rw [same]
      match (c :: c' :: rest).filter (Candidate.accepts arguments) with
      | [] | [_] | _ :: _ :: _ => rfl

theorem isExternalMember_declaration (d : Declaration) :
    (W.declaration d).isExternalMember = d.isExternalMember := by
  obtain ⟨item, scope⟩ := d
  cases item <;> rfl

theorem filterMap_candidate? (members : List Member) :
    (members.map W.member).filterMap Member.candidate? =
      (members.filterMap Member.candidate?).map W.candidate := by
  refine filterMap_map_of_commutes members fun m => ?_
  obtain ⟨declaration, t⟩ := m
  cases declaration <;> rfl

end Wrapping

namespace Enclosure

variable {α β : Type} {E : Enclosure}
variable (base : Ty)

namespace MirrorsBy

/-- The same condition decides in both checks. -/
theorem ite {g : α → β} {m n : Check α} {m' n' : Check β} {p p' : Prop} [Decidable p] [Decidable p']
    (same : p' ↔ p) (yes : E.MirrorsBy g m m') (no : E.MirrorsBy g n n') :
    E.MirrorsBy g (if p then m else n) (if p' then m' else n') := by
  by_cases holds : p
  · rw [if_pos holds, if_pos (same.mpr holds)]
    exact yes
  · rw [if_neg holds, if_neg fun holds' => holds (same.mp holds')]
    exact no

/-! ## Types of declarations -/

theorem resolve (typeName : TypeName) (place : Place) :
    E.Mirrors (resolve typeName place) (resolve (E.wrapping.typeName typeName) place) := by
  refine read fun scope => ?_
  rw [there_declarations, resolve_typeName]
  exact Steady.ofExcept _

theorem evaluate (e : Expr) : E.Mirrors (evaluate e) (evaluate (E.wrapping.expr e)) := by
  refine read fun scope => ?_
  rw [there_declarations, evaluate_expr]
  exact Steady.ofExcept _

theorem variableType (v : Variable) :
    E.Mirrors (variableType v) (variableType (E.wrapping.var v)) where
  grows := (Advances.variableType v).grows
  run σ σ' agree scope t τ run later isOpen := by
    have there := variableType_run (c := E.there scope) (σ := σ') (E.wrapping.var v)
    rw [var_id, agree.var?, there_declarations, declaredType_var] at there
    rw [variableType_run] at run
    rw [there]
    split at run
    · cases run
      exact ⟨σ', rfl, agree, .refl rfl⟩
    · cases result : Declarations.orInvalid ((E.context scope).declarations.declaredType v) with
      | error fault => rw [result] at run; cases run
      | ok declared =>
        rw [result] at run
        cases run
        exact ⟨σ', rfl, agree, .refl rfl⟩

theorem variableTypes (vars : List Variable) :
    E.Mirrors (variableTypes vars) (variableTypes (E.wrapping.vars vars)) := by
  rw [vars_eq]
  exact mapM_types fun v _ => variableType v

theorem functionType (f : Function) (kind : CallKind) :
    E.Mirrors (functionType f kind) (functionType (E.wrapping.function f) kind) := by
  have names :
    (E.wrapping.function f).parameters.map Variable.name = f.parameters.map Variable.name :=
    E.wrapping.vars_names f.parameters
  have names' : (E.wrapping.function f).returns.map Variable.name = f.returns.map Variable.name :=
    E.wrapping.vars_names f.returns
  refine (variableTypes f.parameters).bind fun parameters =>
    (variableTypes f.returns).bind fun returns => ?_
  rw [names, names']
  exact Steady.pure _

theorem eventType (e : Event) : E.Mirrors (eventType e) (eventType (E.wrapping.event e)) := by
  have names : (E.wrapping.event e).parameters.map Variable.name = e.parameters.map Variable.name :=
    E.wrapping.vars_names e.parameters
  refine (variableTypes e.parameters).bind fun parameters => ?_
  rw [names]
  exact Steady.pure _

theorem messageType (m : Message) :
    E.Mirrors (messageType m) (messageType (E.wrapping.message m)) := by
  have names :
    (E.wrapping.message m).parameters.map Variable.name = m.parameters.map Variable.name :=
    E.wrapping.vars_names m.parameters
  refine (variableTypes m.returns).bind fun returns => (variableTypes m.parameters).bind
    fun parameters => ?_
  rw [names]
  exact Steady.pure _

end MirrorsBy

theorem Steady.structMembers (id : NodeId) (location : DataLocation) :
    E.Steady (structMembers id location) := by
  refine read (fun scope => ?_) fun scope => ofExcept _
  rw [there_declarations, structMembers_declarations]

namespace MirrorsBy

theorem getterType (v : Variable) : E.Mirrors (getterType v) (getterType (E.wrapping.var v)) := by
  refine (variableType v).bind fun t => ?_
  rw [var_id]
  dsimp only
  split
  · exact (Steady.structMembers _ _).bind fun members => Steady.pure _
  · exact Steady.pure _

theorem declarationType (declaration : Declaration) (name : String) (span : Span) :
    E.Mirrors (declarationType declaration name span)
      (declarationType (E.wrapping.declaration declaration) name span) := by
  obtain ⟨item, at_⟩ := declaration
  refine read fun scope => ?_
  cases item with
  | var v => exact variableType v
  | function f => exact (functionType f _).bind fun type => Steady.pure _
  | modifier m => exact (variableTypes m.parameters).bind fun types => Steady.pure _
  | event e => exact eventType e
  | message m => exact messageType m
  | struct s =>
    show E.Mirrors _ (Pure.pure (Ty.typeType
      ((E.there scope).declarations.structTy (E.wrapping.struct s) at_ ⟨.storage, true⟩)))
    rw [there_declarations, structTy_struct]
    exact Steady.pure _
  | contract c =>
    show E.Mirrors _ (Pure.pure (Ty.typeType
      (.contract ((E.there scope).declarations.contractTy (E.wrapping.contract c)))))
    rw [there_declarations, contractTy_contract]
    exact Steady.pure _
  | global g =>
    have same : (E.there scope).scope.contract.map (E.there scope).declarations.contractTy =
        (E.context scope).scope.contract.map (E.context scope).declarations.contractTy := by
      rw [there_declarations]
      show (scope.contract.map E.wrapping.contract).map _ = scope.contract.map _
      rw [Option.map_map]
      congr 1
      funext c
      exact E.wrapping.contractTy_contract _ c
    dsimp only [Wrapping.declaration, Wrapping.item]
    rw [same]
    split
    · exact Steady.pure _
    · exact Steady.reject _ _

theorem followPath (path : Path) :
    E.MirrorsBy (Option.map E.wrapping.declaration) (followPath path) (followPath path) := by
  unfold Check.followPath
  cases path.target with
  | none => exact bind (Steady.report _ _) fun _ => pure none _
  | some id =>
    refine read fun scope => ?_
    rw [there_declarations, lookup?_declarations]
    cases (E.context scope).declarations.lookup? id with
    | none => exact fail _ _ _
    | some declaration => exact pure (some declaration) _

/-! ## Identifiers -/

theorem selectCandidate (name : String) (candidates : List Candidate) (arguments : Option Arguments)
    (span : Span) : E.Mirrors (selectCandidate name candidates arguments span)
      (selectCandidate name (candidates.map E.wrapping.candidate) arguments span) := by
  refine read fun scope => ?_
  rw [select_map, there_contractId?]
  exact Steady.orReject _ _

theorem followAll (node : NodeId) (targets : List NodeId) :
    E.MirrorsBy (List.map E.wrapping.declaration) (followAll node targets)
      (followAll node targets) := by
  refine read fun scope => mapM_same fun target _ => ?_
  rw [there_declarations, lookup?_declarations]
  cases (E.context scope).declarations.lookup? target with
  | none => exact fail _ _ _
  | some declaration => exact pure declaration _

theorem candidates (declarations : List Declaration) (name : String) (span : Span) :
    E.MirrorsBy (List.map E.wrapping.candidate) (candidates declarations name span)
      (candidates (declarations.map E.wrapping.declaration) name span) := by
  have each (declaration : Declaration) : E.MirrorsBy E.wrapping.candidate
      (do return ⟨declaration, ← Check.declarationType declaration name span⟩)
      (do return ⟨E.wrapping.declaration declaration,
        ← Check.declarationType (E.wrapping.declaration declaration) name span⟩) :=
    (declarationType declaration name span).bind fun t =>
      pure (⟨declaration, t⟩ : Candidate) E.wrapping.candidate
  refine bind (mapM fun declaration _ => each declaration) fun all => ?_
  rw [filter_map]
  exact pure (all.filter fun (c : Candidate) => !c.type.isInvalid) (List.map E.wrapping.candidate)

end MirrorsBy

theorem Steady.identifierType (node : Node) (name : String) (target : Option NodeId)
    (overloads : List NodeId) (demand : Demand) :
    E.Steady (identifierType node name target overloads demand) := by
  unfold Check.identifierType
  dsimp only
  generalize (if overloads.isEmpty then target.toList else overloads) = targets
  split
  · exact reject _ _
  refine MirrorsBy.bind (MirrorsBy.followAll _ _) fun declarations => ?_
  have kept : (declarations.map E.wrapping.declaration).filter (fun d => !d.isExternalMember) =
      (declarations.filter fun d => !d.isExternalMember).map E.wrapping.declaration := by
    rw [filter_map]
    congr 2
    funext d
    exact congrArg (!·) (E.wrapping.isExternalMember_declaration d)
  rw [kept]
  generalize (declarations.filter fun d => !d.isExternalMember) = several
  match several with
  | [] => exact reject _ _
  | [declaration] => exact MirrorsBy.declarationType declaration name node.span
  | d :: d' :: rest =>
    exact (MirrorsBy.candidates (d :: d' :: rest) name node.span).bind fun several =>
      MirrorsBy.selectCandidate _ _ _ _

/-! ## Members -/

/-- A piece that gives members, and one that gives them with parentheses in their declarations. -/
abbrev Members (E : Enclosure) (m m' : Check (List Member)) : Prop :=
  E.MirrorsBy (map E.wrapping.member) m m'

namespace MirrorsBy

variable (c : ContractTy)

theorem noMembers : E.Members (Pure.pure []) (Pure.pure []) := pure [] _

theorem oneMember (member : Member) :
    E.Members (Pure.pure [member]) (Pure.pure [E.wrapping.member member]) :=
  pure [member] _

theorem flatten {m m' : Check (List (List Member))}
    (mirrors : E.MirrorsBy (List.map (List.map E.wrapping.member)) m m') :
    E.Members (do return (← m).flatten) (do return (← m').flatten) := by
  refine mirrors.bind fun pieces => ?_
  rw [← map_flatten]
  exact pure pieces.flatten _

theorem nestedMembers {f : Contract → α → Check (List Member)}
    {f' : Contract → β → Check (List Member)}
    {items : Contract → List α} {items' : Contract → List β} {g : α → β} {contracts : List Contract}
    (same : ∀ c, items' (E.wrapping.contract c) = (items c).map g)
    (each : ∀ c item, E.Members (f c item) (f' (E.wrapping.contract c) (g item))) :
    E.Members (do return (← contracts.mapM fun c => (items c).mapM (f c)).flatten.flatten)
      (do return (← (contracts.map E.wrapping.contract).mapM fun c =>
        (items' c).mapM (f' c)).flatten.flatten) := by
  have inner (c : Contract) :
      E.MirrorsBy (List.map (List.map E.wrapping.member)) ((items c).mapM (f c))
      ((items' (E.wrapping.contract c)).mapM (f' (E.wrapping.contract c))) := by
    rw [same]
    exact mapM fun item _ => each c item
  refine bind (mapM fun c _ => inner c) fun pieces => ?_
  rw [← map_flatten, ← map_flatten]
  exact pure pieces.flatten.flatten _

theorem structMember (id : NodeId) (location : DataLocation) (name : String) (span : Span) :
    E.Members (structMember base id location name span)
      (structMember base id location name span) := by
  refine bind (Steady.structMembers _ _) fun members => ?_
  split
  · exact noMembers
  · split
    · exact oneMember ⟨none, _⟩
    · exact bind (Steady.reject _ _) fun t => oneMember ⟨none, t⟩
  · exact oneMember ⟨none, _⟩

theorem declaredFunction {m m' : Check FunctionTy} (mirrors : E.Mirrors m m') (f : Function)
    (scope : NodeId) : E.Members (do return [.declared (.function f) scope (← m).toTy])
      (do return [.declared (.function (E.wrapping.function f)) scope (← m').toTy]) :=
  mirrors.bind fun type => oneMember (.declared (.function f) scope type.toTy)

theorem instanceMember (scope : NodeId) (name : String) (part : ContractPart) :
    E.Members (instanceMember scope name part)
      (instanceMember scope name (E.wrapping.contractPart part)) := by
  cases part with
  | function f => exact ite .rfl (declaredFunction (functionType f _) f scope) noMembers
  | stateVariable v =>
    refine ite ?_ ((getterType v).bind fun type => oneMember (.declared (.var v) scope type.toTy))
      noMembers
    rw [var_name, var_traits]
  | message m =>
    exact ite .rfl ((messageType m).bind fun t => oneMember (.declared (.message m) scope t))
      noMembers
  | event _ | modifier _ | struct _ | usingFor _ => exact noMembers

theorem linearized : E.MirrorsBy (List.map E.wrapping.contract) (linearized c) (linearized c) := by
  refine read fun scope => ?_
  rw [there_declarations, filterMap_contract?]
  exact pure (c.bases.filterMap (E.context scope).declarations.contract?) _

theorem instanceMembers (name : String) :
    E.Members (instanceMembers c name) (instanceMembers c name) :=
  (linearized c).bind fun _ => nestedMembers (fun _ => rfl) fun definition part =>
    instanceMember definition.id name part

theorem superMember (scope : NodeId) (name : String) (f : Function) :
    E.Members (superMember scope name f)
      (superMember scope name (E.wrapping.function f)) := by
  refine ite ?_ (declaredFunction (functionType f _) f scope) noMembers
  have implemented : (E.wrapping.function f).isImplemented = f.isImplemented := by
    cases body : f.body <;> simp [Function.isImplemented, Wrapping.function, body]
  rw [implemented]
  rfl

theorem superMembers (name : String) : E.Members (superMembers c name) (superMembers c name) := by
  refine (linearized c).bind fun contracts => ?_
  rw [← map_drop]
  exact nestedMembers E.wrapping.functions_contract fun definition f =>
    superMember definition.id name f

theorem typeMember (definition : Contract) (isBase : Bool) (name : String) (part : ContractPart) :
    E.Members (typeMember definition isBase name part)
      (typeMember (E.wrapping.contract definition) isBase name (E.wrapping.contractPart part)) := by
  cases part with
  | function f =>
    refine ite .rfl ?_ noMembers
    have same : kindThroughName? (E.wrapping.contract definition) isBase
      (E.wrapping.function f).visibility = kindThroughName? definition isBase f.visibility := rfl
    rw [same]
    split
    · exact declaredFunction (functionType f _) f definition.id
    · exact noMembers
  | struct s =>
    refine ite .rfl (read fun scope => ?_) noMembers
    rw [there_declarations, structTy_struct]
    exact oneMember ⟨none, _⟩
  | event e =>
    exact ite .rfl ((eventType e).bind fun t => oneMember (.declared (.event e) definition.id t))
      noMembers
  | stateVariable _ | message _ | modifier _ | usingFor _ => exact noMembers

theorem typeMembers (name : String) : E.Members (typeMembers c name) (typeMembers c name) := by
  refine read fun scope => ?_
  rw [there_declarations, contract?_declarations]
  cases (E.context scope).declarations.contract? c.id with
  | none => exact noMembers
  | some definition =>
    have same : ((E.there scope).scope.contract.any fun current =>
        ((E.wrapping.declarations (E.context scope).declarations).linearized current).contains
          definition.id) = (E.context scope).scope.contract.any fun current =>
            ((E.context scope).declarations.linearized current).contains definition.id := by
      show ((scope.contract.map E.wrapping.contract).any _) = scope.contract.any _
      rw [Option.any_map]
      congr 1
      funext current
      rw [linearized_contract]
    refine flatten ?_
    show E.MirrorsBy _ _ (List.mapM (Check.typeMember (E.wrapping.contract definition)
      ((E.there scope).scope.contract.any fun current => ((E.wrapping.declarations
        (E.context scope).declarations).linearized current).contains definition.id) name)
      (definition.parts.map E.wrapping.contractPart))
    rw [same]
    exact mapM fun part _ => typeMember definition _ name part

theorem declaredMembers (name : String) (span : Span) :
    E.Members (declaredMembers base name span) (declaredMembers base name span) := by
  unfold Check.declaredMembers
  split
  · exact structMember _ _ _ _ _
  · exact ite .rfl (superMembers _ _) (instanceMembers _ _)
  · exact typeMembers _ _
  · exact noMembers

/-! ## Attached functions -/

theorem directives : E.MirrorsBy (List.map E.wrapping.usingFor) directives directives := by
  have ofUnit : (E.wrapping.unit E.unit).usingForDirectives = E.unit.usingForDirectives.map
    E.wrapping.usingFor :=
    filterMap_map_of_commutes E.unit.parts fun part => by cases part <;> rfl
  have ofContract (c : Contract) : (E.wrapping.contract c).usingForDirectives =
      c.usingForDirectives.map E.wrapping.usingFor :=
    filterMap_map_of_commutes c.parts fun part => by cases part <;> rfl
  refine read fun scope => ?_
  rw [there_contract]
  cases (E.context scope).scope.contract with
  | none =>
    dsimp only [Option.map_none]
    rw [append_nil, append_nil]
    exact ofUnit ▸ pure E.unit.usingForDirectives _
  | some c =>
    have directives (contracts : List Contract) :
        (contracts.map E.wrapping.contract).flatMap Contract.usingForDirectives =
          (contracts.flatMap Contract.usingForDirectives).map E.wrapping.usingFor := by
      rw [flatMap_map, map_flatMap]
      simp only [ofContract]
    dsimp only [Option.map_some]
    rw [there_declarations, linearized_contract, filterMap_contract?, directives]
    show E.MirrorsBy _ _ (Pure.pure ((E.wrapping.unit E.unit).usingForDirectives ++ _))
    rw [ofUnit, ← map_append]
    exact pure (E.unit.usingForDirectives ++ _) _

theorem directiveApplies (directive : UsingFor) (base : Ty) :
    E.Mirrors (directiveApplies directive base)
      (directiveApplies (E.wrapping.usingFor directive) base) := by
  obtain ⟨node, library, typeName⟩ := directive
  cases typeName with
  | none => exact Steady.pure _
  | some typeName =>
    refine (resolve typeName _).bind fun result => ?_
    cases result with
    | ok target => exact Steady.pure _
    | error issue => exact Steady.pure _

theorem attachedFunction (library : Contract) (name : String) (f : Function) :
    E.Members (attachedFunction base library name f)
      (attachedFunction base (E.wrapping.contract library) name (E.wrapping.function f)) := by
  have same : (E.wrapping.function f).parameters.isEmpty = f.parameters.isEmpty := by
    show (E.wrapping.vars f.parameters).isEmpty = _
    rw [vars_eq, isEmpty_map]
  unfold Check.attachedFunction
  rw [same]
  refine ite .rfl noMembers ((functionType f _).bind fun type => ?_)
  split
  · exact ite .rfl (oneMember (.declared (.function f) library.id _)) noMembers
  · exact noMembers

theorem directiveLibrary (directive : UsingFor) :
    E.MirrorsBy (Option.map E.wrapping.contract) (directiveLibrary directive)
      (directiveLibrary (E.wrapping.usingFor directive)) := by
  refine read fun scope => ?_
  have same : ((E.wrapping.usingFor directive).library.target.bind
      (E.there scope).declarations.contract?).filter Contract.isLibrary =
        ((directive.library.target.bind (E.context scope).declarations.contract?).filter
          Contract.isLibrary).map E.wrapping.contract := by
    show (directive.library.target.bind _).filter _ = _
    cases directive.library.target with
    | none => rfl
    | some id =>
      rw [there_declarations, Option.bind_some, contract?_declarations, Option.filter_map]
      rfl
  dsimp only
  rw [same]
  exact pure ((directive.library.target.bind (E.context scope).declarations.contract?).filter
    Contract.isLibrary) _

theorem attachedFunctions (name : String) (us : List UsingFor) (attached : List NodeId) :
    E.Members (attachedFunctions base name us attached)
      (attachedFunctions base name (us.map E.wrapping.usingFor) attached) := by
  induction us generalizing attached with
  | nil => exact noMembers
  | cons u rest ih =>
    refine (directiveLibrary u).bind fun library => ?_
    cases library with
    | none => exact ih attached
    | some library =>
      refine ite .rfl (ih attached) ((directiveApplies u base).bind fun applies => ?_)
      refine ite .rfl ?_ (ih attached)
      rw [functions_contract]
      refine bind (mapM fun f _ => attachedFunction base library name f) fun pieces => ?_
      refine (ih _).bind fun others => ?_
      rw [← map_flatten, ← map_append]
      exact pure (pieces.flatten ++ others) _

theorem selectMember (members : List Member) (base : Ty) (name : String)
    (arguments : Option Arguments) (span : Span) :
    E.Mirrors (selectMember members base name arguments span)
      (selectMember (members.map E.wrapping.member) base name arguments span) := by
  match members with
  | [] => exact Steady.reject _ _
  | [member] => exact Steady.pure _
  | m :: m' :: rest =>
    show E.Mirrors _ (Check.selectCandidate name
      ((List.map E.wrapping.member (m :: m' :: rest)).filterMap Member.candidate?) arguments span)
    rw [filterMap_candidate?]
    exact selectCandidate _ _ _ _

end MirrorsBy

/-! ## Builtin members -/

theorem ofMetaType_there (E : Enclosure) (scope : Scope) (actual : Ty) (name : String) :
    BuiltinMember.ofMetaType (E.there scope) actual name =
      BuiltinMember.ofMetaType (E.context scope) actual name := by
  have isInterface (id : NodeId) :
      ((E.there scope).declarations.contract? id).any Contract.isInterface =
      ((E.context scope).declarations.contract? id).any Contract.isInterface := by
    rw [there_declarations, contract?_declarations, Option.any_map]
    rfl
  unfold BuiltinMember.ofMetaType
  simp only [isInterface, there_contractId?]

theorem builtinMember_there (E : Enclosure) (scope : Scope)
    (arguments : Option Arguments) (base : Ty) (name : String) :
    BuiltinMember.of (E.there scope) arguments base name =
      BuiltinMember.of (E.context scope) arguments base name := by
  cases base with
  | metaType actual => exact E.ofMetaType_there scope actual name
  | _ => rfl

theorem Steady.memberType (name : String) (arguments : Option Arguments) (span : Span) :
    E.Steady (memberType base name arguments span) := by
  unfold Check.memberType
  split
  · exact pure _
  refine MirrorsBy.read fun scope => ?_
  rw [builtinMember_there]
  split
  · exact orReject _ _
  refine (MirrorsBy.declaredMembers base name span).bind fun members => ?_
  have selects (attached : List Member) :
        E.Mirrors (selectMember (members ++ attached) base name arguments span)
        (selectMember (members.map E.wrapping.member ++ attached.map E.wrapping.member) base name
          arguments span) := by
    rw [← map_append]
    exact MirrorsBy.selectMember _ _ _ _ _
  split
  · exact MirrorsBy.noMembers.bind selects
  · exact MirrorsBy.directives.bind fun us =>
      (MirrorsBy.attachedFunctions base name us []).bind selects

/-- Structs and settings are the same with parentheses. -/
theorem sameRules (E : Enclosure) (scope : Scope) :
    (E.context scope).SameRules (E.there scope) := by
  refine ⟨rfl, rfl, ?_, ?_, ?_⟩ <;> rw [there_structs]

end Enclosure

theorem Check.Remarks.steady {E : Enclosure} {α : Type} {m : Check α}
    (remarks : Remarks True False m) : E.Steady m := by
  induction remarks with
  | pure a => exact .pure a
  | bind _ _ first next => exact first.bind next
  | record _ => exact .record _ _ _
  | ask _ same _ next => exact .read (fun scope => same _ _ (E.sameRules scope)) fun _ => next _
  | structMembers _ id location => exact .structMembers id location
  | look allowed | expression? allowed | fail allowed => exact allowed.elim

end ContractTyping
