import ContractTyping.Proofs.Member.Basic
import ContractTyping.Proofs.Trace.Entered

/-!
# Private functions behind a dot

What is found through an instance, `super` or a directive is not private, and among several members
a private function of another contract is left out. The only member of a name behind the name of a
contract is not looked at again. So a private function of a base can be reached, and there is no
other way to one of another contract (`private_function_reached_iff`).
-/

namespace ContractTyping

open Check List Declarations

/-! ## What is left out -/

/-- What is selected is not hidden. -/
theorem Candidate.not_hidden_of_select {name : String} {contract : Option NodeId}
    {candidates : List Candidate} {arguments : Option Arguments} {t : Ty} {id : NodeId}
    (selected : select name contract candidates arguments = .ok t)
    (named : t.declaration? = some id) :
    ∃ c ∈ candidates, c.isHidden contract = false ∧ t = c.type := by
  -- Candidates that are left out first can as well be left out before.
  have again :
      select name contract (candidates.filter fun c => !c.isHidden contract) arguments = .ok t := by
    unfold select at selected ⊢
    rwa [filter_filter, filter_congr fun c _ => Bool.and_self _]
  rcases mem_of_select again with ⟨c, mem, rfl⟩ | ⟨several, -, rfl⟩
  · obtain ⟨inside, visible⟩ := mem_filter.mp mem
    exact ⟨c, inside, Bool.not_eq_true' _ ▸ visible, rfl⟩
  · cases named

/-- Private functions count among the functions of their contract only behind its own name. -/
theorem Check.isBase_of_kindThroughName? {definition : Contract} {isBase : Bool}
    (through : (kindThroughName? definition isBase .priv).isSome = true) : isBase = true := by
  unfold kindThroughName? at through
  cases isBase with
  | true => rfl
  | false => split at through <;> cases through

/-- A base shows everything that goes by the name. -/
theorem Contract.shows_of_isBase (definition : Contract) (name : String) (part : ContractPart) :
    definition.shows true name part = part.answersTo name := by
  cases part with
  | function f =>
    have through : (kindThroughName? definition true f.visibility).isSome = true := by
      unfold kindThroughName?
      cases definition.isLibrary <;> cases f.visibility <;> rfl
    exact (congrArg _ through).trans (Bool.and_true _)
  | _ => rfl

namespace Declarations

variable {d : Declarations}

/-- Members of structs stand for no declaration. -/
theorem structMembers_isDeclared {id : NodeId} {location : DataLocation}
    {members : List (String × Ty)} (run : d.structMembers id location = .ok members) :
    ∀ member ∈ members, member.2.isDeclared = false := by
  unfold structMembers at run
  split at run
  · cases run
    exact forall_mem_nil _
  refine forall_of_mapM run fun v _ member equal => ?_
  cases named : v.typeName with
  | none =>
    rw [named] at equal
    cases equal
    rfl
  | some typeName =>
    rw [named] at equal
    dsimp only at equal
    unfold orInvalid at equal
    cases resolved : (d.resolve typeName ⟨location, true⟩).run with
    | error fault => rw [resolved] at equal; cases equal
    | ok result =>
      rw [resolved] at equal
      cases equal
      rw [Ty.isDeclared_moveTo]
      cases result with
      | error issue => rfl
      | ok t => exact resolve_isDeclared resolved

end Declarations

namespace Check

variable {unit : SourceUnit} {c : Context} {σ τ : Findings} {base : Ty} {name : String}
  {arguments : Option Arguments} {span : Span} {members : List Member} {t : Ty} {id : NodeId}

/-- Behind a value there is nothing private. -/
theorem declaredMembers_offered (known : c.declarations = .ofUnit unit)
    (isValue : ∀ k, base ≠ .typeType (.contract k))
    (run : declaredMembers base name span c σ = .ok (members, τ)) :
    ∀ m ∈ members, m.type.isDeclared = false ∨ m.Offered unit := by
  unfold declaredMembers at run
  split at run
  · obtain ⟨fields, typed, ⟨-, rfl⟩ | ⟨t, u, found, rfl, isField⟩⟩ := structMember_ok run
    · exact forall_mem_nil _
    · refine forall_mem_singleton.mpr (.inl ?_)
      rcases isField with ⟨rfl, -⟩ | ⟨rfl, -⟩
      · obtain ⟨before, after, rfl, -⟩ := lookup_eq_some_iff.mp found
        exact structMembers_isDeclared typed (name, u) (mem_append_right _ mem_cons_self)
      · rfl
  · exact fun m mem => .inr (contractMembers_offered known run m mem)
  · next k => exact absurd rfl (isValue k)
  · cases run
    exact forall_mem_nil _

/-- A member that is chosen for its declaration is the only one, or it is not hidden. -/
theorem selectMember_declaration
    (run : selectMember members base name arguments span c σ = .ok (t, τ))
    (named : t.declaration? = some id) :
    ∃ m ∈ members, m.type = t ∧ (members = [m] ∨
      ∃ d, m.declaration = some d ∧ (Candidate.mk d t).isHidden c.contractId? = false) := by
  rcases selectMember_ok run with rfl | ⟨m, rfl, rfl⟩ | selected
  · cases named
  · exact ⟨m, mem_singleton_self m, rfl, .inl rfl⟩
  · obtain ⟨candidate, mem, visible, rfl⟩ := Candidate.not_hidden_of_select selected named
    obtain ⟨m, inMembers, isCandidate⟩ := mem_filterMap.mp mem
    obtain ⟨d, declared, rfl⟩ := Option.map_eq_some_iff.mp isCandidate
    exact ⟨m, inMembers, rfl, .inr ⟨d, declared, visible⟩⟩

/-- Nothing is attached to the name of a contract. -/
theorem memberType_ofName {k : ContractTy}
    (run : memberType (.typeType (.contract k)) name arguments span c σ = .ok (t, τ)) :
    ∃ members υ, typeMembers k name c σ = .ok (members, υ) ∧
      selectMember members (.typeType (.contract k)) name arguments span c υ = .ok (t, τ) := by
  have run : (typeMembers k name >>= fun members =>
      selectMember (members ++ []) (.typeType (.contract k)) name arguments span) c σ = .ok (t,
        τ) := run
  obtain ⟨members, υ, found, run⟩ := bind_ok.mp run
  rw [append_nil] at run
  exact ⟨members, υ, found, run⟩

end Check

/-! ## Private functions of other contracts -/

/-- A private function of a contract of a unit. -/
structure SourceUnit.Keeps (unit : SourceUnit) (owner : Contract) (f : Function) : Prop where
  inUnit : .contract owner ∈ unit.parts
  own : .function f ∈ owner.parts
  isPrivate : f.visibility = .priv

namespace SourceUnit.Keeps

variable {unit : SourceUnit} {owner : Contract} {f : Function} {m : Member} {d : Declaration}

variable (keeps : unit.Keeps owner f)

include keeps

theorem declares : unit.Declares ⟨.function f, some owner.id⟩ :=
  .member keeps.inUnit keeps.own (.self rfl)

/-- A member that names the function stands for it. -/
theorem eq_of_standsFor (apart : unit.DeclaresApart) (declares : unit.Declares d)
    (stands : m.StandsFor d) (named : m.type.declaration? = some f.id) :
    d = ⟨.function f, some owner.id⟩ := by
  obtain ⟨g, isFunction, declaration⟩ := stands.function
  rw [isFunction] at named
  have same : some d.item.id = some f.id := declaration.symm.trans named
  exact apart.eq_of_id d _ declares keeps.declares (Option.some.inj same)

theorem not_offered (apart : unit.DeclaresApart) (offered : m.Offered unit) :
    m.type.declaration? ≠ some f.id := by
  intro named
  obtain ⟨d, declares, visible, stands⟩ := offered
  cases keeps.eq_of_standsFor apart declares stands named
  have isPrivate : (f.visibility == .priv) = true := beq_iff_eq.mpr keeps.isPrivate
  cases isPrivate.symm.trans visible

omit keeps

variable {c : Context} {σ τ : Findings} {base t : Ty} {name : String} {arguments : Option Arguments}
  {span : Span} {k : ContractTy}

variable (keeps : unit.Keeps owner f)

include keeps

variable (apart : unit.DeclaresApart)

include apart

variable (known : c.declarations = .ofUnit unit)

include known

/-- Behind the name of a contract, a private function of another one is found as the only part of
its name, and from contracts that derive from its own. -/
theorem shown (foreign : c.contractId? ≠ some owner.id)
    (run : memberType (.typeType (.contract k)) name arguments span c σ = .ok (t, τ))
    (named : t.declaration? = some f.id) :
    k.id = owner.id ∧ c.derivesFrom owner.id = true ∧
    owner.parts.filter (·.answersTo name) = [.function f] := by
  obtain ⟨members, υ, typed, selecting⟩ := memberType_ofName run
  obtain ⟨m, mem, rfl, choice⟩ := selectMember_declaration selecting named
  cases found : c.declarations.contract? k.id with
  | none =>
    unfold typeMembers at typed
    rw [read_run, found] at typed
    cases typed
    cases mem
  | some definition =>
    have shown := typeMembers_shown found typed
    rw [known] at found
    have inUnit := mem_parts_of_contract? found
    obtain ⟨part, among, shows⟩ := forall₂_mem_right shown m mem
    obtain ⟨inParts, isShown⟩ := mem_filter.mp among
    cases shows with
    | struct => cases named
    | event stands =>
      have same := keeps.eq_of_standsFor apart (.member inUnit inParts (.self rfl)) stands named
      cases (Declaration.mk.inj same).1
    | function stands =>
      have same := keeps.eq_of_standsFor apart (.member inUnit inParts (.self rfl)) stands named
      obtain ⟨item, scope⟩ := Declaration.mk.inj same
      cases item
      have isOwner : definition = owner := by
        have own := contract?_of_mem apart inUnit
        rw [Option.some.inj scope, contract?_of_mem apart keeps.inUnit] at own
        exact (Option.some.inj own).symm
      subst isOwner
      have isBase := (Bool.and_eq_true_iff.mp isShown).2
      rw [keeps.isPrivate] at isBase
      replace isBase := isBase_of_kindThroughName? isBase
      refine ⟨(contract?_occurs found).1, isBase, ?_⟩
      rcases choice with rfl | ⟨d, declared, visible⟩
      · rw [isBase, filter_congr fun part _ => definition.shows_of_isBase name part] at shown among
        obtain ⟨only, equal⟩ := length_eq_one_iff.mp shown.length_eq
        rw [equal] at among
        rw [equal, mem_singleton.mp among]
      · cases stands.declaration.symm.trans declared
        have hidden : (f.visibility == .priv && some definition.id != c.contractId?) = true := by
          rw [keeps.isPrivate, Bool.and_eq_true_iff]
          exact ⟨rfl, bne_iff_ne.mpr foreign.symm⟩
        cases hidden.symm.trans visible

/-- The only part of a name is what is found behind the name of a base. -/
theorem named_of_only (ofOwner : k.id = owner.id) (isBase : c.derivesFrom owner.id = true)
    (only : owner.parts.filter (·.answersTo name) = [.function f])
    (run : memberType (.typeType (.contract k)) name arguments span c σ = .ok (t, τ)) :
    t.declaration? = some f.id := by
  obtain ⟨members, υ, typed, selecting⟩ := memberType_ofName run
  have found : c.declarations.contract? k.id = some owner := by
    rw [known, ofOwner]
    exact contract?_of_mem apart keeps.inUnit
  have shown := typeMembers_shown found typed
  rw [isBase, filter_congr fun part _ => owner.shows_of_isBase name part, only] at shown
  cases shown with
  | cons shows rest =>
    cases rest
    cases selecting
    cases shows with
    | function stands =>
      obtain ⟨g, isFunction, declaration⟩ := stands.function
      rw [isFunction]
      exact declaration

/-- Through a value, a private function is not found. -/
theorem not_named (isValue : ∀ k, base ≠ .typeType (.contract k))
    (run : memberType base name arguments span c σ = .ok (t, τ)) : t.declaration? ≠ some f.id := by
  intro named
  rcases memberType_ok run with rfl | supplies | ⟨members, attached, υ, φ, declared,
    attaching, selecting⟩
  · cases named
  · rw [Ty.declaration?_eq_none supplies.isDeclared] at named
    cases named
  · obtain ⟨m, mem, rfl, -⟩ := selectMember_declaration selecting named
    rcases mem_append.mp mem with inDeclared | inAttached
    · rcases declaredMembers_offered known isValue declared m inDeclared with plain | offered
      · rw [Ty.declaration?_eq_none plain] at named
        cases named
      · exact keeps.not_offered apart offered named
    · split at attaching
      · cases attaching
        cases inAttached
      · exact keeps.not_offered apart ((attachedFunctions_ok known attaching).2 m inAttached) named

end SourceUnit.Keeps

/-- **Private functions are reached by the name of a base only.** Where the identities of
declarations differ, a member access outside of the contract of a private function has that
function's type exactly if it stands behind the name of the function's contract, in a contract that
derives from it, and the function is the only part of the name that can stand there. -/
theorem private_function_reached_iff {unit : SourceUnit} {settings : Settings} {report : Report}
    (apart : unit.DeclaresApart) (checked : check unit settings = .ok report) {scope : Scope}
    {node : Node} {base : Expr} {name : String}
    (visits : unit.Visits settings report.annotations scope (.member node base name))
    {owner : Contract} {f : Function} (inUnit : .contract owner ∈ unit.parts)
    (own : .function f ∈ owner.parts)
    (isPrivate : f.visibility = .priv) (foreign : scope.contract.map Contract.id ≠ some owner.id) :
    ∃ t, report.annotations.expression? node.id = some t ∧
      (t.declaration? = some f.id ↔
        (∃ k, report.annotations.expression? base.id = some (.typeType (.contract k)) ∧
          k.id = owner.id) ∧
        (∃ current, scope.contract = some current ∧
          owner.id ∈ (Declarations.ofUnit unit).linearized current) ∧
        owner.parts.filter (·.answersTo name) = [.function f]) := by
  obtain ⟨found, run, rfl⟩ := check_ok.mp checked
  have keeps : unit.Keeps owner f := ⟨inUnit, own, isPrivate⟩
  have elsewhere : ((Ending.mk unit settings found).context scope).contractId? ≠ some owner.id :=
    foreign
  obtain ⟨baseType, t, arguments, σ, τ, front, recorded, -, access⟩ :=
    (visited_of_visits run visits).member
  refine ⟨t, recorded, fun named => ?_, ?_⟩
  · by_cases isName : ∃ k, baseType = .typeType (.contract k)
    · obtain ⟨k, rfl⟩ := isName
      obtain ⟨ofOwner, isBase, only⟩ := keeps.shown apart rfl elsewhere access named
      exact ⟨⟨k, front, ofOwner⟩, Context.derivesFrom_iff.mp isBase, only⟩
    · exact absurd named (keeps.not_named apart rfl (fun k equal => isName ⟨k, equal⟩) access)
  · rintro ⟨⟨k, isName, ofOwner⟩, isBase, only⟩
    cases front.symm.trans isName
    exact keeps.named_of_only apart rfl ofOwner (Context.derivesFrom_iff.mpr isBase) only access

def secretFunction : Function :=
  { (default : Function) with
    node := ⟨⟨3⟩, .unknown⟩, name := "secret", visibility := .priv, body :=
      some (.mk ⟨⟨4⟩, .unknown⟩ [] false) }

/-- A contract with a private function. -/
def vaultContract : Contract :=
  ⟨⟨⟨2⟩, .unknown⟩, "Vault", .contract, false, [], [], [.function secretFunction]⟩

/-- A function that names a private function of a base, as `Vault.secret`. -/
def probeFunction : Function :=
  let access : Expr :=
    .member ⟨⟨11⟩, .unknown⟩ (.identifier ⟨⟨12⟩, .unknown⟩ "Vault" (some ⟨2⟩) []) "secret"
  { (default : Function) with
    node := ⟨⟨8⟩, .unknown⟩, name := "probe"
    body := some (.mk ⟨⟨9⟩, .unknown⟩ [.expression ⟨⟨10⟩, .unknown⟩ access] false) }

def heirContract : Contract :=
  { derivedContract 5 6 7 2 "Heir" with parts := [.function probeFunction] }

def heirUnit : SourceUnit where
  node := ⟨⟨1⟩, .unknown⟩
  path := "heir"
  abiCoder := none
  parts := [.contract heirContract, .contract vaultContract]

/-- The access is visited in the derived contract. -/
theorem heirUnit_visits (a : Annotations) :
    heirUnit.Visits {} a { contract := some heirContract, function := some probeFunction }
      (.member ⟨⟨11⟩, .unknown⟩ (.identifier ⟨⟨12⟩, .unknown⟩ "Vault" (some ⟨2⟩) []) "secret") := by
  refine ⟨.contract heirContract, .head _, ?_, _, .head _, rfl, .head _⟩
  rintro _ ⟨⟩
  exact ⟨[], _, {}, {}, rfl, rfl, rfl⟩

theorem check_heirUnit : ∃ report, check heirUnit {} = .ok report ∧ report.passed = true ∧
    report.annotations.expression? ⟨12⟩ =
      some (.typeType (.contract ⟨⟨2⟩, "Vault", .contract, false, false, [⟨2⟩]⟩)) ∧
    ((report.annotations.expression? ⟨11⟩).bind Ty.declaration?) = some ⟨3⟩ :=
  exists_ok (by decide +kernel)

theorem private_function_reached_iff_heir :
    heirUnit.DeclaresApart ∧ ∃ report t, check heirUnit {} = .ok report ∧
      report.annotations.expression? ⟨11⟩ = some t ∧ t.declaration? = some secretFunction.id := by
  obtain ⟨report, checked, -, front, -⟩ := check_heirUnit
  have apart : heirUnit.DeclaresApart := by decide
  have inUnit : .contract vaultContract ∈ heirUnit.parts := .tail _ (.head _)
  obtain ⟨t, recorded, reached⟩ :=
    private_function_reached_iff apart checked (heirUnit_visits _) inUnit (.head _) rfl (by decide)
  exact ⟨apart, report, t, checked, recorded,
    reached.mpr ⟨⟨_, front, rfl⟩, ⟨_, rfl, by decide +kernel⟩, rfl⟩⟩

/-- A private function can be reached from another contract. -/
theorem private_function_can_leak :
    ¬ ∀ (unit : SourceUnit) (settings : Settings) (report : Report), unit.DeclaresApart →
      check unit settings = .ok report →
        ∀ (scope : Scope) (node : Node) (base : Expr) (name : String),
      unit.Visits settings report.annotations scope (.member node base name) →
        ∀ (owner : Contract) (f : Function),
      .contract owner ∈ unit.parts → .function f ∈ owner.parts → f.visibility = .priv →
      scope.contract.map Contract.id ≠ some owner.id →
        ∀ t, report.annotations.expression? node.id = some t →
      t.declaration? ≠ some f.id := by
  intro kept
  obtain ⟨report, checked, -, -, leaked⟩ := check_heirUnit
  obtain ⟨t, recorded, named⟩ := Option.bind_eq_some_iff.mp leaked
  exact kept heirUnit {} report (by decide) checked _ _ _ _ (heirUnit_visits _)
    vaultContract secretFunction (.tail _ (.head _)) (.head _) rfl (by decide) t recorded named

end ContractTyping
