import ContractTyping.Proofs.Lookup
import ContractTyping.Proofs.Trace.Basic

/-!
# Members and their declarations

Where the members of a type come from, and what is chosen among them.

* `Member.StandsFor`: a member is a function that names its declaration. So are all members but
  those of structs and the structs behind the name of a contract.
* `Check.contractMembers_offered` and `Check.attachedFunctions_ok`: what is found through an
  instance, through `super` or by a directive is not private.
* `Check.selectMember_ok` and `Check.memberType_ok`: what a member access ends with.
-/

namespace ContractTyping

open Check List Declarations Option

variable {base : Ty}

/-- Whether a declaration is for its own contract only. -/
def DeclaredItem.isPrivate : DeclaredItem → Bool
  | function f => f.visibility == .priv
  | _ => false

theorem Visibility.not_priv_of_isExternallyVisible {visibility : Visibility}
    (visible : visibility.isExternallyVisible = true) : (visibility == .priv) = false := by
  cases visibility <;> first | rfl | cases visible

/-! ## Types that name a declaration -/

namespace Ty

/-- The declaration of a function type. -/
def declaration? : Ty → Option NodeId
  | function traits _ _ => traits.declaration
  | _ => none

/-- Whether a type is that of a declaration, or of several. -/
def isDeclared : Ty → Bool
  | function traits _ _ => traits.declaration.isSome
  | overloaded _ => true
  | _ => false

variable {t : Ty}

theorem declaration?_eq_none (plain : t.isDeclared = false) : t.declaration? = none := by
  cases t with
  | function traits _ _ => exact not_isSome_iff_eq_none.mp (Bool.eq_false_iff.mp plain)
  | _ => rfl

theorem isDeclared_moveTo (t : Ty) (place : Place) :
    (t.moveTo place).isDeclared = t.isDeclared := by
  cases t <;> rfl

theorem Supplies.isDeclared (supplies : base.Supplies t) : t.isDeclared = false := by
  cases supplies with
  | basic isBasic => cases t <;> first | rfl | cases isBasic
  | actual _ => rfl
  | function undeclared _ _ => exact congrArg isSome undeclared

end Ty

namespace Declarations

variable {d : Declarations} {t : Ty}

/-- A type name stands for no declaration. -/
theorem resolve_isDeclared {typeName : TypeName} {place : Place}
    (resolved : (d.resolve typeName place).run = .ok (.ok t)) : t.isDeclared = false := by
  cases resolve_ok_iff.mp resolved with
  | @elementary _ _ _ _ t found =>
    have elementary := Ty.isElementary_of_elementary? found
    cases t <;> first | rfl | cases elementary
  | contract | struct | mapping | array | function => rfl

end Declarations

/-! ## Pieces that only look -/

namespace Check

namespace Looks

theorem resolve (typeName : TypeName) (place : Place) : Looks (resolve typeName place) :=
  read fun _ => ofExcept _

theorem structMembers (id : NodeId) (location : DataLocation) : Looks (structMembers id location) :=
  read fun _ => ofExcept _

theorem functionType (f : Function) (kind : CallKind) : Looks (functionType f kind) :=
  (mapM variableType).bind fun _ => (mapM variableType).bind fun _ => pure _

theorem attachedFunction (base : Ty) (library : Contract) (name : String) (f : Function) :
    Looks (attachedFunction base library name f) := by
  unfold Check.attachedFunction
  split
  · exact pure _
  · refine (functionType _ _).bind fun g => ?_
    split
    · split <;> exact pure _
    · exact pure _

end Looks

end Check

/-! ## Members that stand for a declaration -/

/-- Whether a member is a function that names its declaration. -/
structure Member.StandsFor (m : Member) (d : Declaration) : Prop where
  declaration : m.declaration = some d
  function : ∃ f : FunctionTy, m.type = f.toTy ∧ f.declaration = some d.item.id

/-- Whether a member stands for a declaration of a unit that is not private. -/
def Member.Offered (unit : SourceUnit) (m : Member) : Prop :=
  ∃ d, unit.Declares d ∧ d.item.isPrivate = false ∧ m.StandsFor d

/-- What a part is behind the name of its contract. A struct is a type, without a declaration. -/
inductive Member.Shows (scope : NodeId) : ContractPart → Member → Prop
  | function {f : Function} {m : Member} (stands : m.StandsFor ⟨.function f, some scope⟩) :
      Shows scope (.function f) m
  | event {e : Event} {m : Member} (stands : m.StandsFor ⟨.event e, some scope⟩) :
      Shows scope (.event e) m
  | struct {s : StructDef} {t : Ty} : Shows scope (.struct s) ⟨none, .typeType t⟩

namespace ContractPart

/-- Whether a part stands for a declaration that is not private. -/
def Offers (part : ContractPart) (scope : NodeId) (m : Member) : Prop :=
  ∃ item, part.Declares item ∧ item.isPrivate = false ∧ m.StandsFor ⟨item, some scope⟩

/-- Whether a part goes by a name that stands behind the name of its contract. -/
def answersTo (name : String) : ContractPart → Bool
  | function f => f.name == name && f.kind == .function
  | struct s => s.name == name
  | event e => e.name == name
  | _ => false

end ContractPart

/-- Whether a part is found behind the name of its contract, for a function also from where. -/
def Contract.shows (definition : Contract) (isBase : Bool) (name : String) : ContractPart → Bool
  | .function f =>
    (ContractPart.function f).answersTo name &&
      (kindThroughName? definition isBase f.visibility).isSome
  | part => part.answersTo name

/-- Whether the current contract is a contract or derives from it. -/
def Context.derivesFrom (c : Context) (id : NodeId) : Bool :=
  c.scope.contract.any fun current => (c.declarations.linearized current).contains id

theorem Context.derivesFrom_iff {c : Context} {id : NodeId} :
    c.derivesFrom id = true ↔ ∃ current, c.scope.contract = some current ∧
      id ∈ c.declarations.linearized current := by
  unfold derivesFrom
  rw [Option.any_eq_true]
  exact exists_congr fun current => and_congr_right fun _ => contains_iff_mem

/-- The library that a directive names. -/
def Context.directiveLibrary? (c : Context) (directive : UsingFor) : Option Contract :=
  (directive.library.target.bind c.declarations.contract?).filter Contract.isLibrary

/-- The directives in force: those of the file, then those of the current contract and its bases. -/
def Context.directives (c : Context) : List UsingFor :=
  c.unit.usingForDirectives ++ c.scope.contract.elim [] fun current =>
    ((c.declarations.linearized current).filterMap c.declarations.contract?).flatMap
      Contract.usingForDirectives

/-- Whether a directive is about a type, wherever its data lives. -/
def UsingFor.AppliesTo (u : UsingFor) (d : Declarations) (base : Ty) : Prop :=
  ∀ typeName, u.typeName = some typeName →
    ∃ target, (d.resolve typeName ⟨.storage, true⟩).run = .ok (.ok target) ∧
    target.moveTo .memory = base.moveTo .memory

/-- Whether a function can be attached to a type, under a name. The type of its first parameter is
the one that is recorded for it, or the one that its type name denotes. -/
structure Function.Fits (f : Function) (c : Context) (σ : Findings) (base : Ty) (name : String) :
    Prop where
  named : f.name = name
  visible : f.visibility ≠ .priv
  takes : ∃ v rest self, f.parameters = v :: rest ∧ variableType v c σ = .ok (self, σ) ∧
    base.implicitlyConvertible self = true

/-- Whether a directive attaches a function of a library to a type, under a name. -/
structure Context.Attaches (c : Context) (σ : Findings) (base : Ty) (name : String) (u : UsingFor)
    (library : Contract) (f : Function) : Prop where
  names : c.directiveLibrary? u = some library
  applies : u.AppliesTo c.declarations base
  own : f ∈ library.functions
  fits : f.Fits c σ base name

namespace Check

variable {c : Context} {σ τ : Findings} {unit : SourceUnit} {scope : NodeId} {name : String}
  {members : List Member}
variable {t : Ty} {f : Function} {library : Contract} {g : FunctionTy} {part : ContractPart}
  {k : ContractTy} {definition : Contract}
variable {contracts : List Contract} {lists : List (List Member)} {u : UsingFor} {span : Span}
  {isBase : Bool}

theorem standsFor_declared {item : DeclaredItem} (named : g.declaration = some item.id) :
    (Member.declared item scope g.toTy).StandsFor ⟨item, some scope⟩ :=
  ⟨rfl, g, rfl, named⟩

theorem functionType_names {kind : CallKind} (given : Gives (functionType f kind) g) :
    g.declaration = some f.id := by
  obtain ⟨parameters, -, given⟩ := given.bind
  obtain ⟨returns, -, given⟩ := given.bind
  cases given.pure
  rfl

theorem getterType_names {v : Variable} (given : Gives (getterType v) g) :
    g.declaration = some v.id := by
  obtain ⟨t, -, given⟩ := given.bind
  dsimp only at given
  split at given
  · obtain ⟨fields, -, given⟩ := given.bind
    cases given.pure
    rfl
  · cases given.pure
    rfl

theorem messageType_names {m : Message} (given : Gives (messageType m) t) :
    ∃ g : FunctionTy, t = g.toTy ∧ g.declaration = some m.node.id := by
  obtain ⟨returns, -, given⟩ := given.bind
  obtain ⟨parameters, -, given⟩ := given.bind
  exact ⟨_, given.pure, rfl⟩

theorem eventType_names {e : Event} (given : Gives (eventType e) t) :
    ∃ g : FunctionTy, t = g.toTy ∧ g.declaration = some e.node.id := by
  obtain ⟨parameters, -, given⟩ := given.bind
  exact ⟨_, given.pure, rfl⟩

/-! ### Through an instance, `super` or a directive -/

theorem instanceMember_offers (given : Gives (instanceMember scope name part) members) :
    ∀ m ∈ members, part.Offers scope m := by
  unfold instanceMember at given
  split at given
  · next f =>
    split at given
    · next shown =>
      obtain ⟨g, typed, given⟩ := given.bind
      cases given.pure
      have visible := Visibility.not_priv_of_isExternallyVisible (Bool.and_eq_true_iff.mp shown).2
      exact forall_mem_singleton.mpr
        ⟨.function f, .self rfl, visible, standsFor_declared (functionType_names typed)⟩
    · cases given.pure
      exact forall_mem_nil _
  · next v =>
    split at given
    · obtain ⟨g, typed, given⟩ := given.bind
      cases given.pure
      exact forall_mem_singleton.mpr
        ⟨.var v, .var rfl (.inl rfl), rfl, standsFor_declared (getterType_names typed)⟩
    · cases given.pure
      exact forall_mem_nil _
  · next message =>
    split at given
    · obtain ⟨t, typed, given⟩ := given.bind
      cases given.pure
      obtain ⟨g, rfl, named⟩ := messageType_names typed
      exact forall_mem_singleton.mpr ⟨.message message, .self rfl, rfl, standsFor_declared named⟩
    · cases given.pure
      exact forall_mem_nil _
  · cases given.pure
    exact forall_mem_nil _

theorem superMember_offers (given : Gives (superMember scope name f) members) :
    ∀ m ∈ members, (ContractPart.function f).Offers scope m := by
  unfold superMember at given
  split at given
  · next shown =>
    obtain ⟨g, typed, given⟩ := given.bind
    cases given.pure
    have visible : (f.visibility == .priv) = false := by
      simp only [Bool.and_eq_true, bne_iff_ne] at shown
      exact beq_false_of_ne shown.1.1.2
    exact forall_mem_singleton.mpr
      ⟨.function f, .self rfl, visible, standsFor_declared (functionType_names typed)⟩
  · cases given.pure
    exact forall_mem_nil _

theorem offered_of_part {k : Contract} {m : Member} (inUnit : .contract k ∈ unit.parts)
    (inside : part ∈ k.parts) (offers : part.Offers k.id m) : m.Offered unit := by
  obtain ⟨item, declares, visible, stands⟩ := offers
  exact ⟨_, .member inUnit inside declares, visible, stands⟩

variable (known : c.declarations = .ofUnit unit)

include known

theorem linearized_mem (run : linearized k c σ = .ok (contracts, τ)) :
    ∀ definition ∈ contracts, .contract definition ∈ unit.parts := by
  cases run
  intro definition mem
  obtain ⟨id, -, looked⟩ := mem_filterMap.mp mem
  exact mem_parts_of_contract? (known ▸ looked)

omit known in
/-- Members that are found one by one in contracts of a unit. -/
theorem flatten_offered {β : Type} {parts : Contract → List β}
    {f : Contract → β → Check (List Member)}
    {lists : List (List (List Member))} (inUnit : ∀ k ∈ contracts, .contract k ∈ unit.parts)
    (each : ∀ k, ∀ x ∈ parts k, ∀ found, Gives (f k x) found →
      ∀ m ∈ found, ∃ part ∈ k.parts, part.Offers k.id m)
    (given : Gives (contracts.mapM fun k => (parts k).mapM (f k)) lists) :
    ∀ m ∈ lists.flatten.flatten, m.Offered unit := by
  intro m mem
  obtain ⟨found, inFound, mem⟩ := mem_flatten.mp mem
  obtain ⟨ofOne, inLists, inFound⟩ := mem_flatten.mp inFound
  obtain ⟨k, inContracts, given⟩ := given.mapM ofOne inLists
  obtain ⟨x, inParts, given⟩ := given.mapM found inFound
  obtain ⟨part, inside, offers⟩ := each k x inParts found given m mem
  exact offered_of_part (inUnit k inContracts) inside offers

/-- No member of an instance or of `super` is private. -/
theorem contractMembers_offered
    (run : (if k.isSuper then superMembers k name else instanceMembers k name)
      c σ = .ok (members, τ)) :
    ∀ m ∈ members, m.Offered unit := by
  split at run
  · obtain ⟨contracts, υ, found, run⟩ := bind_ok.mp run
    obtain ⟨lists, φ, many, run⟩ := bind_ok.mp run
    cases run
    refine flatten_offered (fun k mem => linearized_mem known found k (mem_of_mem_drop mem))
      (fun k f inside found given m mem => ?_) ⟨c, υ, _, many⟩
    exact ⟨_, Contract.mem_functions.mp inside, superMember_offers given m mem⟩
  · obtain ⟨contracts, υ, found, run⟩ := bind_ok.mp run
    obtain ⟨lists, φ, many, run⟩ := bind_ok.mp run
    cases run
    exact flatten_offered (linearized_mem known found)
      (fun k part inside found given m mem => ⟨part, inside, instanceMember_offers given m mem⟩)
      ⟨c, υ, _, many⟩

omit known in
theorem directiveLibrary_run (directive : UsingFor) :
    directiveLibrary directive c σ = .ok (c.directiveLibrary? directive, σ) := rfl

omit known in
/-- A function that fits is attached, and no other one. -/
theorem attachedFunction_ok (run : attachedFunction base library name f c σ = .ok (members, τ)) :
    ¬ f.Fits c σ base name ∧ members = [] ∨
      f.Fits c σ base name ∧ ∃ m, members = [m] ∧
        (ContractPart.function f).Offers library.id m := by
  unfold attachedFunction at run
  split at run
  · next other =>
    cases run
    refine .inl ⟨?_, rfl⟩
    rintro ⟨named, visible, v, rest, self, parameters, -⟩
    simp [named, parameters, visible] at other
  · next shown =>
    simp only [Bool.or_eq_true, bne_iff_ne, ne_eq, beq_iff_eq, not_or, not_not] at shown
    obtain ⟨⟨named, nonempty⟩, visible⟩ := shown
    obtain ⟨g, υ, typed, run⟩ := bind_ok.mp run
    have declares := functionType_names ⟨c, σ, υ, typed⟩
    cases listed : f.parameters with
    | nil => exact absurd (congrArg List.isEmpty listed) nonempty
    | cons v rest =>
      unfold functionType variableTypes at typed
      rw [listed, mapM_cons] at typed
      obtain ⟨types, φ, first, typed⟩ := bind_ok.mp typed
      obtain ⟨self, φ, isSelf, first⟩ := bind_ok.mp first
      obtain ⟨others, ψ, -, first⟩ := bind_ok.mp first
      cases first
      obtain ⟨returns, ψ, -, typed⟩ := bind_ok.mp typed
      cases typed
      cases Looks.variableType v c σ self φ isSelf
      -- The function is not called from outside, so that its parameters are as they are declared.
      have notExternal :
          ((if f.visibility.isExternallyVisible then CallKind.delegateCall else .internal) ==
            .external) = false := by
        cases f.visibility.isExternallyVisible <;> rfl
      simp only [notExternal, Bool.false_eq_true, if_false] at run
      cases converts : base.implicitlyConvertible self with
      | true =>
        rw [converts] at run
        cases run
        exact .inr ⟨⟨named, visible, v, rest, self, listed, isSelf, converts⟩, _, rfl,
          .function f, .self rfl, beq_false_of_ne visible, rfl, _, rfl, declares⟩
      | false =>
        rw [converts] at run
        cases run
        refine .inl ⟨?_, rfl⟩
        rintro ⟨-, -, v', rest', self', parameters, typed, takes⟩
        cases listed.symm.trans parameters
        cases isSelf.symm.trans typed
        cases converts.symm.trans takes

omit known in
theorem libraryFunctions_ok {fs : List Function}
    (run : fs.mapM (attachedFunction base library name) c σ = .ok (lists, τ)) :
    (lists.flatten = [] ↔ ∀ f ∈ fs, ¬ f.Fits c σ base name) ∧
      ∀ m ∈ lists.flatten, ∃ f ∈ fs, (ContractPart.function f).Offers library.id m := by
  induction fs generalizing lists τ with
  | nil =>
    cases run
    exact ⟨iff_of_true rfl (forall_mem_nil _), forall_mem_nil _⟩
  | cons f rest ih =>
    rw [mapM_cons] at run
    obtain ⟨first, υ, one, run⟩ := bind_ok.mp run
    obtain ⟨others, φ, more, run⟩ := bind_ok.mp run
    cases run
    cases Looks.attachedFunction base library name f c σ first υ one
    obtain ⟨nothing, offers⟩ := ih more
    have later :
        ∀ m ∈ others.flatten, ∃ f' ∈ f :: rest, (ContractPart.function f').Offers library.id m := by
      intro m mem
      obtain ⟨f', inside, offered⟩ := offers m mem
      exact ⟨f', mem_cons_of_mem _ inside, offered⟩
    rw [flatten_cons, append_eq_nil_iff, forall_mem_cons, nothing]
    rcases attachedFunction_ok one with ⟨unfit, rfl⟩ | ⟨fits, m, rfl, offered⟩
    · exact ⟨and_congr_left' (iff_of_true rfl unfit), later⟩
    · exact ⟨and_congr_left' (iff_of_false (cons_ne_nil _ _) (not_not.mpr fits)),
        forall_mem_cons.mpr ⟨⟨f, mem_cons_self, offered⟩, later⟩⟩

omit known in
theorem directiveApplies_ok {answer : Bool} (run : directiveApplies u base c σ = .ok (answer, τ)) :
    τ = σ ∧ (answer = true ↔ u.AppliesTo c.declarations base) := by
  unfold directiveApplies at run
  cases named : u.typeName with
  | none =>
    rw [named] at run
    cases run
    refine ⟨rfl, iff_of_true rfl ?_⟩
    intro typeName given
    cases named.symm.trans given
  | some typeName =>
    rw [named] at run
    obtain ⟨result, υ, resolving, run⟩ := bind_ok.mp run
    have resolved : (c.declarations.resolve typeName ⟨.storage, true⟩).run = .ok result :=
      eq_ok_of_ofExcept ⟨c, σ, υ, resolving⟩
    cases Looks.resolve typeName _ c σ result υ resolving
    cases result with
    | error issue =>
      cases run
      refine ⟨rfl, iff_of_false Bool.false_ne_true fun applies => ?_⟩
      obtain ⟨target, given, -⟩ := applies typeName named
      cases resolved.symm.trans given
    | ok target =>
      cases run
      refine ⟨rfl, beq_iff_eq.trans ⟨fun same other given => ?_, fun applies => ?_⟩⟩
      · cases named.symm.trans given
        exact ⟨target, resolved, same⟩
      · obtain ⟨other, given, same⟩ := applies typeName named
        cases resolved.symm.trans given
        exact same

/-- A library that a directive names is found by its own identity. -/
theorem contract?_of_directiveLibrary? (found : c.directiveLibrary? u = some library) :
    (ofUnit unit).contract? library.id = some library := by
  obtain ⟨id, -, looked⟩ := bind_eq_some_iff.mp (filter_eq_some_iff.mp found).1
  rw [known] at looked
  rwa [← (contract?_occurs looked).1]

/-- Nothing is attached if no directive attaches anything, but for libraries that have been attached
before. What is attached is not private. -/
theorem attachedFunctions_ok {us : List UsingFor} {attached : List NodeId}
    (run : attachedFunctions base name us attached c σ = .ok (members, τ)) :
    (members = [] ↔ ∀ u ∈ us, ∀ library f, c.Attaches σ base name u library f →
      library.id ∈ attached) ∧ ∀ m ∈ members, m.Offered unit := by
  induction us generalizing attached members τ with
  | nil =>
    cases run
    exact ⟨iff_of_true rfl (forall_mem_nil _), forall_mem_nil _⟩
  | cons u rest ih =>
    rw [attachedFunctions, bind_run (directiveLibrary_run u)] at run
    rw [forall_mem_cons]
    -- A directive that attaches nothing new is passed over.
    have skipped (run : attachedFunctions base name rest attached c σ = .ok (members, τ))
        (nothing : ∀ library f, c.Attaches σ base name u library f → library.id ∈ attached) :=
      (ih run).imp_left fun others => others.trans (and_iff_right nothing).symm
    cases isLibrary : c.directiveLibrary? u with
    | none =>
      rw [isLibrary] at run
      refine skipped run fun library f attaches => ?_
      cases isLibrary.symm.trans attaches.names
    | some library =>
      rw [isLibrary] at run
      dsimp only at run
      have found := contract?_of_directiveLibrary? known isLibrary
      split at run
      · next before =>
        refine skipped run fun other f attaches => ?_
        cases isLibrary.symm.trans attaches.names
        exact contains_iff_mem.mp before
      next fresh =>
      obtain ⟨answer, υ, asked, run⟩ := bind_ok.mp run
      obtain ⟨rfl, applies⟩ := directiveApplies_ok asked
      cases answer with
      | false =>
        refine skipped run fun other f attaches => ?_
        cases applies.mpr attaches.applies
      | true =>
        obtain ⟨lists, φ, many, run⟩ := bind_ok.mp run
        obtain ⟨others, ψ, more, run⟩ := bind_ok.mp run
        cases run
        cases Looks.mapM (Looks.attachedFunction base library name) c υ lists φ many
        obtain ⟨ofLibrary, offers⟩ := libraryFunctions_ok many
        rw [append_eq_nil_iff, ofLibrary, (ih more).1]
        refine ⟨⟨?_, ?_⟩, forall_mem_append.mpr ⟨fun m mem => ?_, (ih more).2⟩⟩
        · rintro ⟨nothing, others⟩
          refine ⟨fun other f attaches => ?_, fun u' mem other f attaches => ?_⟩
          · cases isLibrary.symm.trans attaches.names
            exact absurd attaches.fits (nothing f attaches.own)
          · refine (mem_cons.mp (others u' mem other f attaches)).resolve_left fun same => ?_
            have again := contract?_of_directiveLibrary? known attaches.names
            rw [same, found] at again
            cases again
            exact nothing f attaches.own attaches.fits
        · rintro ⟨nothing, others⟩
          refine ⟨fun f own fits => fresh (contains_iff_mem.mpr ?_),
            fun u' mem other f attaches => ?_⟩
          · exact nothing library f ⟨isLibrary, applies.mp rfl, own, fits⟩
          · exact mem_cons_of_mem _ (others u' mem other f attaches)
        · obtain ⟨f, inside, offered⟩ := offers m mem
          exact offered_of_part (mem_parts_of_contract? found)
            (Contract.mem_functions.mp inside) offered

omit known

/-! ### Members of a struct -/

/-- The first field of a name is the only member. A mapping outside of storage is invalid. -/
theorem structMember_ok {id : NodeId} {location : DataLocation}
    (run : structMember base id location name span c σ = .ok (members, τ)) :
    ∃ fields, c.declarations.structMembers id location = .ok fields ∧
      (fields.lookup name = none ∧ members = [] ∨ ∃ t u, fields.lookup name = some t ∧
        members = [⟨none, u⟩] ∧
        (u = t ∧ τ = σ ∨ u = .invalid ∧ ∃ key value, t = .mapping key value)) := by
  obtain ⟨fields, υ, typed, run⟩ := bind_ok.mp run
  refine ⟨fields, eq_ok_of_ofExcept ⟨c, σ, υ, typed⟩, ?_⟩
  cases Looks.structMembers id location c σ fields υ typed
  cases found : fields.lookup name with
  | none =>
    rw [found] at run
    cases run
    exact .inl ⟨rfl, rfl⟩
  | some t =>
    rw [found] at run
    refine .inr ⟨t, ?_⟩
    cases t with
    | mapping key value =>
      dsimp only at run
      split at run
      · cases run
        exact ⟨_, rfl, rfl, .inl ⟨rfl, rfl⟩⟩
      · cases run
        exact ⟨_, rfl, rfl, .inr ⟨rfl, key, value, rfl⟩⟩
    | _ =>
      cases run
      exact ⟨_, rfl, rfl, .inl ⟨rfl, rfl⟩⟩

/-! ### Behind the name of a contract -/

theorem typeMember_shown (given : Gives (typeMember definition isBase name part) members) :
    definition.shows isBase name part = false ∧ members = [] ∨
      definition.shows isBase name part = true ∧ ∃ m, members = [m] ∧
        Member.Shows definition.id part m := by
  unfold typeMember at given
  split at given
  · next f =>
    have shows_function :
      definition.shows isBase name (.function f) = ((f.name == name && f.kind == .function) &&
      (kindThroughName? definition isBase f.visibility).isSome) := rfl
    rw [shows_function]
    split at given
    · next named =>
      rw [named]
      split at given
      · next kind through =>
        obtain ⟨g, typed, given⟩ := given.bind
        rw [through]
        exact .inr ⟨rfl, _, given.pure, .function (standsFor_declared (functionType_names typed))⟩
      · next through =>
        rw [through]
        exact .inl ⟨rfl, given.pure⟩
    · next other =>
      rw [Bool.eq_false_iff.mpr other]
      exact .inl ⟨rfl, given.pure⟩
  · next s =>
    split at given
    · next named =>
      obtain ⟨context, -, given⟩ := given.bind
      exact .inr ⟨named, _, given.pure, .struct⟩
    · next other => exact .inl ⟨Bool.eq_false_iff.mpr other, given.pure⟩
  · next e =>
    split at given
    · next named =>
      obtain ⟨t, typed, given⟩ := given.bind
      obtain ⟨g, rfl, isNamed⟩ := eventType_names typed
      exact .inr ⟨named, _, given.pure, .event (standsFor_declared isNamed)⟩
    · next other => exact .inl ⟨Bool.eq_false_iff.mpr other, given.pure⟩
  · next notFunction notStruct notEvent =>
    refine .inl ⟨?_, given.pure⟩
    cases part with
    | function f => exact absurd rfl (notFunction f)
    | struct s => exact absurd rfl (notStruct s)
    | event e => exact absurd rfl (notEvent e)
    | _ => rfl

/-- The parts that are found give one member each, in their order. -/
theorem parts_shown {parts : List ContractPart}
    (run : parts.mapM (typeMember definition isBase name) c σ = .ok (lists, τ)) :
    List.Forall₂ (Member.Shows definition.id) (parts.filter (definition.shows isBase name))
      lists.flatten := by
  induction parts generalizing σ lists with
  | nil =>
    cases run
    exact .nil
  | cons part rest ih =>
    rw [mapM_cons] at run
    obtain ⟨first, υ, one, run⟩ := bind_ok.mp run
    obtain ⟨others, φ, more, run⟩ := bind_ok.mp run
    cases run
    rcases typeMember_shown ⟨c, σ, υ, one⟩ with ⟨hidden, rfl⟩ | ⟨shown, m, rfl, shows⟩
    · rw [filter_cons_of_neg (Bool.eq_false_iff.mp hidden), flatten_cons, nil_append]
      exact ih more
    · rw [filter_cons_of_pos shown]
      exact .cons shows (ih more)

theorem typeMembers_shown (found : c.declarations.contract? k.id = some definition)
    (run : typeMembers k name c σ = .ok (members, τ)) :
    List.Forall₂ (Member.Shows definition.id)
      (definition.parts.filter (definition.shows (c.derivesFrom definition.id) name)) members := by
  unfold typeMembers at run
  rw [read_run, found] at run
  obtain ⟨lists, υ, many, run⟩ := bind_ok.mp run
  cases run
  exact parts_shown many

/-! ## What a member access ends with -/

theorem orReject_ok {result : Except Issue Ty} (run : orReject result span c σ = .ok (t, τ)) :
    t = .invalid ∨ result = .ok t := by
  cases result with
  | ok t =>
    cases run
    exact .inr rfl
  | error issue =>
    cases run
    exact .inl rfl

variable {base : Ty} {arguments : Option Arguments} {span : Span} {t : Ty}

/-- Nothing is chosen, or the only member, or one of several that stand for a declaration. -/
theorem selectMember_ok (run : selectMember members base name arguments span c σ = .ok (t, τ)) :
    t = .invalid ∨ (∃ m, members = [m] ∧ t = m.type) ∨
      Candidate.select name c.contractId? (members.filterMap Member.candidate?)
        arguments = .ok t := by
  unfold selectMember at run
  split at run
  · cases run
    exact .inl rfl
  · cases run
    exact .inr (.inl ⟨_, rfl, rfl⟩)
  · exact (orReject_ok run).imp_right .inr

theorem directives_run : directives c σ = .ok (c.directives, σ) := by
  unfold directives Context.directives
  rw [read_run]
  cases c.scope.contract <;> rfl

/-- What the language gives no member to is looked for among the declarations. -/
theorem memberType_declared (valid : base.isInvalid = false)
    (unsupplied : BuiltinMember.of c arguments base name = none)
    (run : memberType base name arguments span c σ = .ok (t, τ)) :
    ∃ members attached υ φ, declaredMembers base name span c σ = .ok (members, υ) ∧
      (if isTypeType base then pure [] else attachedFunctions base name c.directives [])
        c υ = .ok (attached, φ) ∧
      selectMember (members ++ attached) base name arguments span c φ = .ok (t, τ) := by
  unfold memberType at run
  rw [valid, if_neg Bool.false_ne_true, read_run, unsupplied] at run
  obtain ⟨members, υ, declared, run⟩ := bind_ok.mp run
  refine ⟨members, ?_⟩
  split at run
  · next isType =>
    obtain ⟨attached, φ, found, run⟩ := bind_ok.mp run
    exact ⟨attached, υ, φ, declared, by rw [if_pos isType]; exact found, run⟩
  · next isValue =>
    rw [bind_run directives_run] at run
    obtain ⟨attached, φ, found, run⟩ := bind_ok.mp run
    exact ⟨attached, υ, φ, declared, by rw [if_neg isValue]; exact found, run⟩

theorem memberType_ok (run : memberType base name arguments span c σ = .ok (t, τ)) :
    t = .invalid ∨ base.Supplies t ∨
    ∃ members attached υ φ, declaredMembers base name span c σ = .ok (members, υ) ∧
      (if isTypeType base then pure [] else attachedFunctions base name c.directives [])
        c υ = .ok (attached, φ) ∧
      selectMember (members ++ attached) base name arguments span c φ = .ok (t, τ) := by
  cases valid : base.isInvalid with
  | true =>
    unfold memberType at run
    rw [valid] at run
    cases run
    exact .inl rfl
  | false =>
    cases found : BuiltinMember.of c arguments base name with
    | none => exact .inr (.inr (memberType_declared valid found run))
    | some result =>
      unfold memberType at run
      rw [valid, if_neg Bool.false_ne_true, read_run, found] at run
      refine (orReject_ok run).imp_right fun given => .inl ?_
      exact (BuiltinMember.fits_of c arguments base name).supplies t (given ▸ found)

end Check

end ContractTyping
