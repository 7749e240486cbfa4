import ContractTyping.Proofs.Trace.Standard

/-!
# Declarations, identifiers and members

The types of declarations, identifiers and members keep to every standard, and finding them records
at most ordinary diagnostics.
-/

namespace ContractTyping

open Check List

variable (base : Ty) (c : ContractTy) (name : String) {f : Function}

/-! ## Issues with candidates -/

theorem Candidate.select_ordinary {name : String} {contract : Option NodeId}
    {candidates : List Candidate} {arguments : Option Arguments} {issue : Issue}
    (refused : select name contract candidates arguments = .error issue) : issue.isOrdinary := by
  unfold select at refused
  split at refused
  · cases refused
  · cases refused
    rfl
  · cases refused
  · split at refused <;> cases refused <;> rfl

namespace Check

/-- A type name that was resolved by a check has at most ordinary issues. -/
theorem ordinary_of_resolve {typeName : TypeName} {place : Place} {result : Except Issue Ty}
    (given : Gives (resolve typeName place) result) :
    ∀ issue, result = .error issue → issue.isOrdinary := by
  obtain ⟨c, σ, τ, run⟩ := given
  have resolved : (c.declarations.resolve typeName place).run = .ok result :=
    eq_ok_of_ofExcept ⟨c, σ, τ, run⟩
  rintro issue rfl
  exact Declarations.resolve_ordinary typeName place issue resolved

namespace Advances

theorem followPath (path : Path) : Advances (followPath path) := by
  unfold Check.followPath
  split
  · exact (report rfl _).bind fun _ => pure _
  · refine read fun c => ?_
    split
    · exact pure _
    · exact fail _

theorem directives : Advances directives := read fun _ => pure _

end Advances

end Check

namespace Standard.Upholds

variable {S : Standard} {σ : Findings}

/-! ## Types of declarations -/

theorem variableTypes {vars : List Variable} (reads : ∀ v ∈ vars, S.reads v) :
    S.Upholds σ (variableTypes vars) fun τ types => ∀ t ∈ types, S.Good τ t :=
  mapM S.later fun v mem _ _ => variableType (reads v mem)

theorem functionType (reads : ∀ v ∈ f.parameters ++ f.returns, S.reads v) (kind : CallKind) :
    S.Upholds σ (functionType f kind) fun τ type => S.Good τ type.toTy := by
  have seen {τ : Findings} {types : List Ty} (good : ∀ t ∈ types, S.Good τ t) :
      ∀ t ∈ (if kind == .external then types.map Ty.calldataToMemory else types), S.Good τ t := by
    split
    · exact forall_mem_map.mpr fun t mem => (S.hereditary τ).calldataToMemory (good t mem)
    · exact good
  obtain ⟨ofParameters, ofReturns⟩ := forall_mem_append.mp reads
  refine (variableTypes ofParameters).bind fun υ parameters _ parametersGood => ?_
  refine (variableTypes ofReturns).bind fun τ returns later returnsGood => pure ?_
  exact (S.hereditary τ).function.mpr
    ⟨seen fun t mem => S.later later (parametersGood t mem), seen returnsGood⟩

theorem eventType {e : Event} (reads : ∀ v ∈ e.parameters, S.reads v) :
    S.Upholds σ (eventType e) S.Good :=
  (variableTypes reads).bind fun τ _ _ good =>
    pure ((S.hereditary τ).function.mpr ⟨good, forall_mem_nil _⟩)

theorem messageType {m : Message} (reads : ∀ v ∈ m.parameters ++ m.returns, S.reads v) :
    S.Upholds σ (messageType m) S.Good := by
  obtain ⟨ofParameters, ofReturns⟩ := forall_mem_append.mp reads
  refine (variableTypes ofReturns).bind fun υ returns _ returnsGood => ?_
  refine (variableTypes ofParameters).bind fun τ parameters later good => pure ?_
  refine (S.hereditary τ).function.mpr
    ⟨forall_mem_map.mpr fun t mem => ?_, forall_mem_singleton.mpr ?_⟩
  · exact (S.hereditary τ).calldataToMemory (good t mem)
  · exact (S.hereditary τ).handle.mpr fun t mem => S.later later (returnsGood t mem)

theorem getterType {v : Variable} (reads : S.reads v) :
    S.Upholds σ (getterType v) fun τ type => S.Good τ type.toTy := by
  refine (variableType reads).bind fun υ t _ good => ?_
  obtain ⟨parametersGood, resultGood⟩ := (S.hereditary υ).getterParts good
  dsimp only
  split
  · refine (structMembers _ _).bind fun τ members later membersGood => pure ?_
    refine (S.hereditary τ).function.mpr
      ⟨fun t mem => S.later later (parametersGood t mem), fun t mem => ?_⟩
    obtain ⟨member, inMembers, rfl⟩ := mem_map.mp (mem_filter.mp mem).1
    exact membersGood member inMembers
  · refine pure ((S.hereditary υ).function.mpr ⟨parametersGood, forall_mem_singleton.mpr ?_⟩)
    exact (S.hereditary υ).moveTo resultGood _

theorem declarationType {declaration : Declaration}
    (reads : ∀ v ∈ declaration.item.signature, S.reads v)
    (name : String) (span : Span) : S.Upholds σ (declarationType declaration name span) S.Good := by
  refine read rfl ?_
  revert reads
  cases declaration.item with
  | var v => exact fun reads => variableType (reads v mem_cons_self)
  | function f => exact fun reads => (functionType reads _).bind fun _ _ _ good => pure good
  | modifier m =>
    exact fun reads => (variableTypes reads).bind fun τ _ _ good =>
      pure ((S.hereditary τ).modifier.mpr good)
  | event e => exact eventType
  | message m => exact messageType
  | struct s => exact fun _ => pure ((S.hereditary σ).typeType.mpr ((S.hereditary σ).struct _ _ _))
  | contract c => exact fun _ => pure ((S.hereditary σ).typeType.mpr ((S.hereditary σ).contract _))
  | global g =>
    intro _
    dsimp only
    split
    · next found => exact pure ((S.hereditary σ).global found)
    · exact reject rfl _

/-! ## Identifiers -/

theorem selectCandidate {candidates : List Candidate} (good : ∀ c ∈ candidates, S.Good σ c.type)
    (arguments : Option Arguments) (span : Span) :
    S.Upholds σ (selectCandidate name candidates arguments span) S.Good :=
  read rfl (orReject (fun _ => (S.hereditary σ).select good) (fun _ => Candidate.select_ordinary) _)

theorem followAll (node : NodeId) (targets : List NodeId) :
    S.Upholds σ (followAll node targets) fun _ declarations =>
      ∀ declaration ∈ declarations, ∃ id, S.context.declarations.lookup? id = some declaration := by
  refine read rfl (mapM (fun _ found => found) fun id _ υ _ => ?_)
  split
  · next found => exact pure ⟨id, found⟩
  · exact fail _

theorem candidates {declarations : List Declaration}
    (reads : ∀ declaration ∈ declarations, ∀ v ∈ declaration.item.signature, S.reads v)
    (name : String) (span : Span) :
    S.Upholds σ (candidates declarations name span) fun τ candidates =>
      ∀ c ∈ candidates, S.Good τ c.type := by
  refine .bind (mapM (R := fun τ c => S.Good τ c.type) S.later fun declaration mem _ _ =>
    (declarationType (reads declaration mem) name span).bind fun _ _ _ good =>
      pure good) fun τ all _ good => ?_
  exact pure fun c mem => good c (mem_filter.mp mem).1

theorem identifierType (node : Node) (name : String) (target : Option NodeId)
    (overloads : List NodeId)
    (demand : Demand) : S.Upholds σ (identifierType node name target overloads demand) S.Good := by
  unfold Check.identifierType
  dsimp only
  generalize (if overloads.isEmpty then target.toList else overloads) = targets
  split
  · exact reject rfl _
  refine (followAll _ _).bind fun υ declarations _ found => ?_
  have kept : ∀ declaration ∈ declarations.filter fun declaration => !declaration.isExternalMember,
      ∀ v ∈ declaration.item.signature, S.reads v := by
    intro declaration mem
    obtain ⟨id, looked⟩ := found declaration (mem_filter.mp mem).1
    exact S.items looked
  split
  · exact reject rfl _
  · next declaration equal => exact declarationType (kept declaration (equal ▸ mem_cons_self)) _ _
  · exact (candidates kept _ _).bind fun _ several _ good => selectCandidate _ good _ _

end Standard.Upholds

/-! ## What depends on the target machine -/

namespace Companion

variable {c : Context} {Good : Findings → Ty → Prop}
variable (K : Companion c Good)

/-- A builtin member in the two checks: the same, or one that only the second has. -/
def Builtin (K : Companion c Good) (member member' : BuiltinMember) : Prop :=
  member' = member ∨ ∃ issue, member = some (.error issue) ∧ K.Fatal issue

theorem gated (feature : Feature) {available : EvmVersion → Bool}
    (lasting : EvmVersion.Lasting available) (t : Ty) :
    K.Builtin (.gated c feature available t) (.gated K.there feature available t) := by
  unfold BuiltinMember.gated
  rcases K.feature feature available lasting with same | ⟨issue, failed, fatal⟩
  · rw [there, same]
    exact .inl rfl
  · rw [failed]
    exact .inr ⟨issue, rfl, fatal⟩

theorem ofAddress (payable : Bool) (name : String) :
    K.Builtin (.ofAddress c payable name) (.ofAddress K.there payable name) := by
  unfold BuiltinMember.ofAddress
  split
  all_goals first | exact .inl rfl | exact K.gated _ (EvmVersion.lasting_atLeast _) _

theorem ofMagic (kind : MagicKind) (name : String) :
    K.Builtin (.ofMagic c kind name) (.ofMagic K.there kind name) := by
  unfold BuiltinMember.ofMagic
  split
  all_goals first | exact .inl rfl | exact K.gated _ (EvmVersion.lasting_atLeast _) _

theorem builtinMember (arguments : Option Arguments) (base : Ty) (name : String) :
    K.Builtin (.of c arguments base name) (.of K.there arguments base name) := by
  cases base with
  | address payable => exact K.ofAddress payable name
  | magic kind => exact K.ofMagic kind name
  | _ => exact .inl rfl

theorem setOption (f : FunctionTy) (name : String) :
    Settles K.Fatal (setOption c f name) (setOption K.there f name) := by
  unfold Check.setOption
  split
  case h_1 =>
    split
    · exact .inl rfl
    · rcases K.feature .salt EvmVersion.hasCreate2
        (EvmVersion.lasting_atLeast _) with same | ⟨issue, failed, fatal⟩
      · rw [there, same]
        exact .inl rfl
      · rw [failed]
        exact .inr ⟨issue, rfl, fatal⟩
  all_goals exact .inl rfl

end Companion

/-! ## Members -/

namespace Standard

variable {S : Standard} {σ : Findings}

/-- A piece that gives members with types as they should be. -/
abbrev Members (S : Standard) (σ : Findings) (m : Check (List Member)) : Prop :=
  S.Upholds σ m fun τ members => ∀ member ∈ members, S.Good τ member.type

namespace Upholds

theorem noMembers : S.Members σ (Pure.pure []) := pure (forall_mem_nil _)

theorem oneMember {member : Member} (good : S.Good σ member.type) :
    S.Members σ (Pure.pure [member]) :=
  pure (forall_mem_singleton.mpr good)

/-- The members that each of several things gives. -/
theorem eachMember {α : Type} {f : α → Check (List Member)} {xs : List α}
    (each : ∀ x ∈ xs, ∀ υ, S.Members υ (f x)) :
    S.Upholds σ (xs.mapM f) fun τ pieces => ∀ member ∈ pieces.flatten, S.Good τ member.type := by
  refine (mapM (R := fun τ members => ∀ member ∈ members, S.Good τ member.type) ?_ fun x mem υ _ =>
    each x mem υ).mono fun τ pieces _ good => ?_
  · exact fun later good member mem => S.later later (good member mem)
  · exact forall_mem_flatten.mpr good

theorem structMember (id : NodeId) (location : DataLocation) (name : String) (span : Span) :
    S.Members σ (structMember base id location name span) := by
  refine (structMembers _ _).bind fun υ members _ good => ?_
  have found {t : Ty} (looked : members.lookup name = some t) : S.Good υ t := by
    obtain ⟨before, after, equal, -⟩ := lookup_eq_some_iff.mp looked
    exact good (name, t) (equal ▸ mem_append_right _ mem_cons_self)
  split
  · exact noMembers
  · next key value looked =>
    split
    · exact oneMember (found looked)
    · exact (reject rfl _).bind fun _ _ _ rejected => oneMember rejected
  · next t looked => exact oneMember (found looked)

theorem instanceMember {part : ContractPart} (reads : ∀ v ∈ part.signature, S.reads v)
    (scope : NodeId) (name : String) : S.Members σ (instanceMember scope name part) := by
  unfold Check.instanceMember
  split
  · split
    · exact (functionType reads _).bind fun _ _ _ good => oneMember good
    · exact noMembers
  · split
    · exact (getterType (reads _ mem_cons_self)).bind fun _ _ _ good => oneMember good
    · exact noMembers
  · split
    · exact (messageType reads).bind fun _ _ _ good => oneMember good
    · exact noMembers
  · exact noMembers

theorem linearized : S.Upholds σ (linearized c) fun _ contracts =>
      ∀ k ∈ contracts, ∃ id, S.context.declarations.contract? id = some k := by
  refine read rfl (pure fun k mem => ?_)
  obtain ⟨id, -, found⟩ := mem_filterMap.mp mem
  exact ⟨id, found⟩

/-- The members that each part of each of several contracts gives. -/
theorem nestedMembers {α : Type} {f : Contract → α → Check (List Member)}
    {items : Contract → List α} {contracts : List Contract}
    (each : ∀ k ∈ contracts, ∀ item ∈ items k, ∀ υ, S.Members υ (f k item)) :
    S.Members σ (do
      let members ← contracts.mapM fun k => (items k).mapM (f k)
      return members.flatten.flatten) := by
  refine .bind
    (mapM (R := fun τ pieces => ∀ member ∈ pieces.flatten, S.Good τ member.type) ?_ fun k mem υ _ =>
    eachMember (each k mem)) fun τ pieces _ good => pure ?_
  · exact fun later good member mem => S.later later (good member mem)
  · intro member mem
    obtain ⟨members, inPieces, inMembers⟩ := mem_flatten.mp mem
    obtain ⟨piece, inPiece, inList⟩ := mem_flatten.mp inPieces
    exact good piece inPiece member (mem_flatten.mpr ⟨members, inList, inMembers⟩)

theorem instanceMembers : S.Members σ (instanceMembers c name) := by
  refine (linearized c).bind fun υ contracts _ found => nestedMembers fun k mem part inParts υ => ?_
  obtain ⟨id, looked⟩ := found k mem
  exact instanceMember (S.part looked inParts) k.id name

theorem superMember (reads : ∀ v ∈ f.parameters ++ f.returns, S.reads v) (scope : NodeId)
    (name : String) : S.Members σ (superMember scope name f) := by
  unfold Check.superMember
  split
  · exact (functionType reads _).bind fun _ _ _ good => oneMember good
  · exact noMembers

theorem superMembers : S.Members σ (superMembers c name) := by
  refine (linearized c).bind fun υ contracts _ found =>
    nestedMembers fun k mem f inFunctions υ => ?_
  obtain ⟨id, looked⟩ := found k (mem_of_mem_drop mem)
  exact superMember (S.part looked (Contract.mem_functions.mp inFunctions)) k.id name

theorem typeMember {part : ContractPart} (reads : ∀ v ∈ part.signature, S.reads v)
    (definition : Contract)
    (isBase : Bool) (name : String) : S.Members σ (typeMember definition isBase name part) := by
  unfold Check.typeMember
  split
  · split
    · split
      · exact (functionType reads _).bind fun _ _ _ good => oneMember good
      · exact noMembers
    · exact noMembers
  · split
    · exact read rfl (oneMember ((S.hereditary σ).typeType.mpr ((S.hereditary σ).struct _ _ _)))
    · exact noMembers
  · split
    · exact (eventType reads).bind fun _ _ _ good => oneMember good
    · exact noMembers
  · exact noMembers

theorem typeMembers : S.Members σ (typeMembers c name) := by
  refine read rfl ?_
  split
  · exact noMembers
  · next definition looked =>
    refine .bind (eachMember fun part mem υ => ?_) fun τ pieces _ good => pure good
    exact typeMember (S.part looked mem) definition _ name

theorem declaredMembers (span : Span) : S.Members σ (declaredMembers base name span) := by
  unfold Check.declaredMembers
  split
  · exact structMember _ _ _ _ _
  · split
    · exact superMembers _ _
    · exact instanceMembers _ _
  · exact typeMembers _ _
  · exact noMembers

/-! ## Attached functions -/

theorem attachedFunction (reads : ∀ v ∈ f.parameters ++ f.returns, S.reads v) (base : Ty)
    (library : Contract) (name : String) : S.Members σ (attachedFunction base library name f) := by
  unfold Check.attachedFunction
  split
  · exact noMembers
  · refine (functionType reads _).bind fun υ type _ good => ?_
    split
    · next self parameters equal =>
      split
      · obtain ⟨parametersGood, returnsGood⟩ := (S.hereditary υ).function.mp good
        rw [equal] at parametersGood
        exact oneMember
          ((S.hereditary υ).function.mpr ⟨(forall_mem_cons.mp parametersGood).2, returnsGood⟩)
      · exact noMembers
    · exact noMembers

theorem directiveApplies (directive : UsingFor) (base : Ty) :
    S.Passes (directiveApplies directive base) := by
  intro σ
  unfold Check.directiveApplies
  split
  · exact pure trivial
  · refine (resolve _ _).bind fun υ result _ _ => ?_
    split <;> exact pure trivial

theorem attachedFunctions (us : List UsingFor) (attached : List NodeId) :
    S.Members σ (attachedFunctions base name us attached) := by
  induction us generalizing σ attached with
  | nil => exact noMembers
  | cons u rest ih =>
    refine read rfl ?_
    cases named :
      (u.library.target.bind S.context.declarations.contract?).filter Contract.isLibrary with
    | none => exact ih attached
    | some library =>
      obtain ⟨id, -, looked⟩ := Option.bind_eq_some_iff.mp (Option.filter_eq_some_iff.mp named).1
      dsimp only
      split
      · exact ih attached
      · refine after (directiveApplies u base) fun υ applies _ => ?_
        split
        · refine .bind (eachMember fun f mem υ => attachedFunction ?_ base library name)
            fun φ pieces _ good => ?_
          · exact S.part looked (Contract.mem_functions.mp mem)
          · refine (ih _).bind fun τ others later othersGood =>
              pure (forall_mem_append.mpr ⟨?_, othersGood⟩)
            exact fun member mem => S.later later (good member mem)
        · exact ih attached

theorem selectMember {members : List Member}
    (good : ∀ member ∈ members, S.Good σ member.type) (base : Ty)
    (name : String) (arguments : Option Arguments) (span : Span) :
    S.Upholds σ (selectMember members base name arguments span) S.Good := by
  unfold Check.selectMember
  split
  · exact reject rfl _
  · exact pure (good _ mem_cons_self)
  · refine selectCandidate _ (fun c mem => ?_) _ _
    obtain ⟨member, inMembers, found⟩ := mem_filterMap.mp mem
    obtain ⟨declaration, -, rfl⟩ := Option.map_eq_some_iff.mp found
    exact good member inMembers

theorem memberType {base : Ty} (good : S.Good σ base) (name : String) (arguments : Option Arguments)
    (span : Span) : S.Upholds σ (memberType base name arguments span) S.Good := by
  unfold Check.memberType
  split
  · next isInvalid => exact pure (S.invalid good isInvalid)
  refine gate ?_ ?_
  · rcases S.companion.builtinMember arguments base name with same | ⟨issue, found, fatal⟩
    · rw [same]
      exact .inl rfl
    · rw [found]
      exact .inr ⟨issue, span, fun _ => Pure.pure .invalid, fatal, rfl,
        fun υ _ => S.companion.remarks υ (.pure _)⟩
  split
  · next result found =>
    have fits := BuiltinMember.fits_of S.context arguments base name
    refine orReject (fun t equal => ?_)
      (fun issue equal => fits.ordinary issue (equal ▸ found)) span
    exact (S.hereditary σ).supplies good (fits.supplies t (equal ▸ found))
  refine (declaredMembers _ _ _).bind fun υ members _ membersGood => ?_
  have selects (τ : Findings) (attached : List Member) (later : υ.Precedes τ)
      (attachedGood : ∀ member ∈ attached, S.Good τ member.type) :
      S.Upholds τ (Check.selectMember (members ++ attached) base name arguments span) S.Good := by
    refine selectMember (forall_mem_append.mpr ⟨fun member mem => ?_, attachedGood⟩) _ _ _ _
    exact S.later later (membersGood member mem)
  split
  · exact .bind noMembers selects
  · exact read rfl ((attachedFunctions _ _ _ _).bind selects)

end Upholds

end Standard

namespace Check.Advances

/-! ## How findings go on -/

theorem variableTypes (vars : List Variable) : Advances (variableTypes vars) :=
  of_upholds fun _ _ => .variableTypes fun _ _ => trivial

theorem declaredMembers (span : Span) : Advances (declaredMembers base name span) :=
  of_upholds fun _ _ => .declaredMembers base name span

theorem selectMember (members : List Member) (base : Ty) (name : String)
    (arguments : Option Arguments) (span : Span) :
    Advances (selectMember members base name arguments span) :=
  of_upholds fun _ _ => .selectMember (fun _ _ => trivial) _ _ _ _

theorem attachedFunctions (us : List UsingFor) (attached : List NodeId) :
    Advances (attachedFunctions base name us attached) :=
  of_upholds fun _ _ => .attachedFunctions base name us attached

theorem memberType (arguments : Option Arguments) (span : Span) :
    Advances (memberType base name arguments span) :=
  of_upholds fun _ _ => .memberType trivial name arguments span

end Check.Advances

end ContractTyping
