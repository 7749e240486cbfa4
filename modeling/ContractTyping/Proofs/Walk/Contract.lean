import ContractTyping.Proofs.Walk.Statement

/-!
# Walks through contracts

How the check of a part of a source unit goes through it (`Check.Walks.partBody`), unless the part
is a contract that is left out for an inheritance cycle (`Check.contract_eq`).
-/

namespace ContractTyping

open Check List Inventory

/-! ## What is visited -/

def bodyVisits (scope : Scope) : Option Block → List Visit
  | none => []
  | some body => body.visits scope

/-- A function in a contract or outside of all contracts, whichever the scope is. -/
def Function.visits (f : Function) (scope : Scope) : List Visit :=
  let inside : Scope := { contract := scope.contract, function := some f }
  f.modifiers.flatMap (fun m => visitsOf inside (m.arguments.getD [])) ++ bodyVisits inside f.body

def Modifier.visits (m : Modifier) (scope : Scope) : List Visit :=
  bodyVisits { contract := scope.contract, inModifier := true } m.body

def ContractPart.visits (scope : Scope) : ContractPart → List Visit
  | function f => f.visits scope
  | stateVariable v => visitsOf scope v.value.toList
  | modifier m => m.visits scope
  | event _ | message _ | struct _ | usingFor _ => []

def Contract.visits (c : Contract) : List Visit :=
  let inside : Scope := { contract := some c }
  c.bases.flatMap (fun specifier => visitsOf inside (specifier.arguments.getD [])) ++
    c.parts.flatMap (ContractPart.visits inside)

def UnitPart.visits : UnitPart → List Visit
  | contract c => c.visits
  | function f => f.visits {}
  | struct _ | usingFor _ => []

namespace Check

variable (v : Variable) (c : Contract) (t : Ty)

/-! ## The pieces of a check -/

/-- A constant has a value type or a byte array type. -/
def requireConstantType (v : Variable) (t : Ty) : Check Unit :=
  if v.isConstant && !(t.isValueType || t.isByteArray || t.isInvalid) then
    report (.invalidDeclaration .constantType) v.span
  else pure ()

/-- What is checked of a state variable after the type of a constant. -/
def stateVariableRest (v : Variable) (t : Ty) : Check Unit := do
  let invalid (fault : DeclarationFault) (span : Span) := report (.invalidDeclaration fault) span
  if v.isConstant && v.value.isNone then invalid .constantUninitialized v.span
  if v.isImmutable && !t.isValueType && !t.isInvalid then invalid .immutableType v.span
  if let some value := v.value then
    match t with
    | .mapping .. => if v.traits.isState then invalid .mappingInitialized value.span
    | _ => pure ()
    expect value t

theorem stateVariableValue_eq :
    stateVariableValue v t = requireConstantType v t >>= fun _ => stateVariableRest v t := by
  unfold stateVariableValue requireConstantType stateVariableRest
  cases v.isConstant with
  | false => rfl
  | true => cases t.isValueType || t.isByteArray || t.isInvalid <;> rfl

/-- What is checked of a function after its parameters. -/
def functionRest (f : Function) (contract : Option Contract) : Check Unit := do
  (f.shapeFaults contract).forM fun fault => report (.functionSignature fault) f.span
  let bases ← constructibleBases f
  f.modifiers.forM (modifierCall bases)
  optionalBlock f.body

/-- The getter of a public state variable. -/
def optionalGetter (v : Variable) (t : Ty) : Check Unit :=
  if v.traits.visibility == .pub && !t.isInvalid then getter v else pure ()

/-- What is checked of a part of a contract. A state variable has the first given type. -/
def contractPart (types : List Ty) : ContractPart → Check Unit
  | .stateVariable v => do
    stateVariableValue v (types.head?.getD .invalid)
    optionalGetter v (types.head?.getD .invalid)
  | .function f => function f
  | .event e => event e
  | .message m => message m
  | .modifier m => modifier m
  | .struct s => struct s
  | .usingFor u => usingFor u

/-- The types that are left for the parts that follow. -/
def typesAfter (types : List Ty) : ContractPart → List Ty
  | .stateVariable _ => types.tail
  | _ => types

theorem contractParts_cons (part : ContractPart) (rest : List ContractPart) (types : List Ty) :
    contractParts (part :: rest) types =
      contractPart types part >>= fun _ => contractParts rest (typesAfter types part) := by
  cases part with
  | stateVariable v =>
    rw [contractParts, contractPart, bind_assoc]
    unfold optionalGetter
    cases v.traits.visibility == .pub && !(types.head?.getD .invalid).isInvalid <;> rfl
  | _ => rfl

/-- What is checked of a contract that is not left out. -/
def members (c : Contract) : Check Unit := within { contract := some c } do
  c.bases.forM (baseSpecifier c)
  let types ← declareAll c.stateVariables .state
  contractParts c.parts types
  c.kindIssues.forM fun (issue, span) => report issue span

theorem contract_eq : contract c = (do if (← isCyclic c) then pure () else members c) := rfl

theorem kindIssues_ordinary {c : Contract} {pair : Issue × Span} (mem : pair ∈ c.kindIssues) :
    pair.1.isOrdinary := by
  unfold Contract.kindIssues at mem
  split at mem
  · rcases mem_append.mp mem with inVars | inFunctions
    · obtain ⟨v, -, rfl⟩ := mem_map.mp inVars
      rfl
    · obtain ⟨f, -, inFunction⟩ := mem_flatMap.mp inFunctions
      obtain ⟨issue, inIssues, rfl⟩ := mem_map.mp inFunction
      unfold Function.interfaceIssues at inIssues
      split at inIssues
      · cases mem_singleton.mp inIssues
        rfl
      · rcases mem_append.mp inIssues with visible | implemented
        · split at visible
          · cases mem_singleton.mp visible
            rfl
          · cases visible
        · split at implemented
          · cases mem_singleton.mp implemented
            rfl
          · cases implemented
  · rcases mem_append.mp mem with inVars | inFunctions
    · obtain ⟨v, -, rfl⟩ := mem_map.mp inVars
      rfl
    · obtain ⟨f, -, inFunction⟩ := mem_filterMap.mp inFunctions
      obtain ⟨fault, -, rfl⟩ := Option.map_eq_some_iff.mp inFunction
      rfl
  · split at mem
    · cases mem_singleton.mp mem
      rfl
    · cases mem

/-- What is checked of a part that is not left out. -/
def partBody : UnitPart → Check Unit
  | .contract c => members c
  | part => unitPart part

namespace Walks

variable {v c t} {allowed : Variable → Prop} {context : Context}

/-! ## Functions and modifiers -/

/-- Arguments and a path, and then something that goes through nothing. -/
theorem argumentsThen (arguments : Option (List Expr)) (path : Path)
    {f : Option Arguments → Option Declaration → Check Unit} (next : ∀ given found, (∀ declaration,
      found = some declaration → ∃ id, context.declarations.lookup? id = some declaration) →
        Walks allowed context [] {} (f given found)) :
    Walks allowed context (visitsOf context.scope (arguments.getD []))
      { nodes := argumentNodes arguments, paths := [path] }
      (optionalArguments arguments >>= fun given => Check.followPath path >>= f given) := by
  have first : Walks allowed context (visitsOf context.scope (arguments.getD []))
      { nodes := argumentNodes arguments } (optionalArguments arguments) := by
    cases arguments with
    | none => exact pure _
    | some arguments => exact ((expressions arguments).before fun _ => pure _).map _
  have both := first.bind fun given => followPath path (next given)
  have inventory :
      ({ nodes := argumentNodes arguments } ++ ({ paths := [path] } ++ ({} : Inventory)) :
        Inventory) =
      { nodes := argumentNodes arguments, paths := [path] } :=
    congrArg (Inventory.mk · [] [] [path] []) (append_nil _)
  rwa [append_nil, inventory] at both

theorem passToConstructor {id : NodeId} {scope : Option NodeId}
    (looked : context.declarations.lookup? id = some ⟨.contract c, scope⟩)
    (arguments : Option Arguments)
    (span : Span) : Walks allowed context [] {} (passToConstructor c arguments span) := by
  refine (signatureTypes looked rfl fun v mem => ?_).after fun types => ?_
  · split at mem
    · next f isConstructor =>
      have part := Contract.mem_functions.mp (mem_of_find?_eq_some isConstructor)
      exact mem_flatMap.mpr ⟨_, part, mem_append_left _ mem⟩
    · cases mem
  · split
    · exact .remarks fun _ _ => .passArguments _ _ _ _ _
    · exact pure _

theorem modifierCall (bases : List NodeId) (m : ModifierCall) :
    Walks allowed context (visitsOf context.scope (m.arguments.getD [])) m.inventory
      (modifierCall bases m) := by
  refine argumentsThen m.arguments m.target fun arguments found isFound => ?_
  split
  · exact pure _
  · next declaration =>
    obtain ⟨id, looked⟩ := isFound _ rfl
    obtain ⟨item, scope⟩ := declaration
    dsimp only
    split
    · split
      · exact passToConstructor looked _ _
      · exact report rfl _
    · refine (signatureTypes looked rfl (List.Subset.refl _)).after fun _ => ?_
      exact .remarks fun _ _ => .passArguments _ _ _ _ _
    · exact report rfl _

theorem constructibleBases (f : Function) : Walks allowed context [] {} (constructibleBases f) := by
  refine read (fun _ => rfl) (fun _ alike => by rw [alike.scope, alike.linearized]) ?_
  split
  · split <;> exact pure _
  · exact pure _

theorem optionalBlock (body : Option Block) :
    Walks allowed context (bodyVisits context.scope body) (bodyInventory body)
      (optionalBlock body) := by
  cases body with
  | none => exact pure _
  | some body => exact block body

theorem functionRest (f : Function) (contract : Option Contract) : Walks allowed context
    (f.modifiers.flatMap (fun m => visitsOf context.scope (m.arguments.getD [])) ++
      bodyVisits context.scope f.body)
    (.all ModifierCall.inventory f.modifiers ++ bodyInventory f.body)
      (functionRest f contract) := by
  refine (forEach fun fault _ => report rfl _).after fun _ =>
    (constructibleBases f).after fun bases => ?_
  exact (forM fun m _ => modifierCall bases m).bind fun _ => optionalBlock f.body

theorem function (f : Function) :
    Walks allowed context (f.visits context.scope) f.inventory (function f) := by
  refine read (fun _ => rfl) (fun _ alike => by rw [alike.scope]) (within ?_ ?_)
  · rintro g ⟨⟩
    exact fun v mem => mem_append_right _ (mem_append_left _ mem)
  · exact (declareAll f.parameters _).bind fun _ => (declareAll f.returns _).bind fun _ =>
      functionRest f _

theorem modifier (m : Modifier) :
    Walks allowed context (m.visits context.scope) m.inventory (modifier m) := by
  refine read (fun _ => rfl) (fun _ alike => by rw [alike.scope]) (within ?_ ?_)
  · rintro f ⟨⟩
  · exact (declareAll m.parameters _).bind fun _ => optionalBlock m.body

/-! ## Events, messages, structs and directives -/

/-- Variables that are declared one by one, each followed by something that goes through nothing. -/
theorem declareEach (vars : List Variable) (role : VariableRole) {f : Variable → Ty → Check Unit}
    (next : ∀ v t, Walks allowed context [] {} (f v t)) :
    Walks allowed context [] { vars } (vars.forM fun v => Check.declare v role >>= f v) := by
  induction vars with
  | nil => exact pure _
  | cons v rest ih => exact ((declare v role).before (next v)).bind fun _ => ih

theorem event (e : Event) : Walks allowed context [] { vars := e.parameters } (Check.event e) := by
  refine (declareEach e.parameters _ fun v t => ?_).before fun _ => ?_
  · split
    · exact pure _
    · exact requireCrossing _ _ _ _
  · dsimp only
    split
    · split
      · exact report rfl _
      · exact pure _
    · split
      · exact report rfl _
      · exact pure _

theorem message (m : Message) :
    Walks allowed context [] { vars := m.parameters ++ m.returns } (Check.message m) := by
  refine declareEach (m.parameters ++ m.returns) _ fun v t => ?_
  split
  · exact pure _
  · refine read (fun _ => rfl) (fun _ alike => by rw [alike.containsMapping]) ?_
    split
    · exact report rfl _
    · exact requireCrossing _ _ _ _

theorem struct (s : StructDef) : Walks allowed context [] { fields := s.members } (struct s) := by
  have fields :
      Walks allowed context [] { fields := s.members } (s.members.forM Check.structField) := by
    induction s.members with
    | nil => exact pure _
    | cons v rest ih => exact (structField v).bind fun _ => ih
  unfold Check.struct
  extract_lets membersAndSize
  have rest (u : Unit) : Walks allowed context [] { fields := s.members } (membersAndSize u) := by
    refine fields.before fun _ =>
      read (fun _ => rfl) (fun _ alike => by rw [alike.hasInfiniteSize]) ?_
    split
    · exact report rfl _
    · exact pure _
  split
  · exact (report rfl _).after rest
  · exact rest ()

theorem usingFor (u : UsingFor) : Walks allowed context [] u.inventory (usingFor u) := by
  show Walks allowed context [] ({ paths := [u.library] } ++ { typeNames := u.typeName.toList }) _
  refine followPath u.library fun found _ => ?_
  extract_lets resolveType
  have rest (u' : Unit) :
      Walks allowed context [] { typeNames := u.typeName.toList } (resolveType u') := by
    dsimp only [resolveType]
    cases u.typeName with
    | none => exact pure _
    | some typeName =>
      refine resolve typeName _ fun result ordinary => ?_
      split
      · next issue => exact report (ordinary issue rfl) _
      · exact pure _
  split
  · dsimp only
    split
    · split
      · exact rest ()
      · exact (report rfl _).after rest
    · exact (report rfl _).after rest
  · exact rest ()

/-! ## Contracts -/

theorem baseSpecifier (specifier : BaseSpecifier) :
    Walks allowed context (visitsOf context.scope (specifier.arguments.getD [])) specifier.inventory
      (baseSpecifier c specifier) := by
  refine argumentsThen specifier.arguments specifier.base fun arguments found isFound => ?_
  dsimp only
  split
  · exact pure _
  · next base scope =>
    obtain ⟨id, looked⟩ := isFound _ rfl
    have rest (_ : Unit) : Walks allowed context [] {} (if arguments.isSome then
        if c.isInterface then invalidDeclaration .interfaceArguments specifier.node.span
        else Check.passToConstructor base arguments specifier.node.span
      else Pure.pure ()) := by
      split
      · split
        · exact report rfl _
        · exact passToConstructor looked _ _
      · exact pure _
    split
    · exact (report rfl _).after rest
    · exact rest ()
  · exact report rfl _

theorem stateVariableRest :
    Walks allowed context (visitsOf context.scope v.value.toList) { nodes := optionNodes v.value }
      (stateVariableRest v t) := by
  unfold Check.stateVariableRest
  extract_lets invalid initial immutable
  -- As in the order of the source from its end: each complaint may be made or not.
  have initialWalks (u : Unit) : Walks allowed context (visitsOf context.scope v.value.toList)
      { nodes := optionNodes v.value } (initial u) := by
    dsimp only [initial]
    cases v.value with
    | none => exact pure _
    | some value =>
      dsimp only
      split
      · split
        · exact (report rfl _).after fun _ => expect value _
        · exact expect value _
      · exact expect value _
  have immutableWalks (u : Unit) : Walks allowed context (visitsOf context.scope v.value.toList)
      { nodes := optionNodes v.value } (immutable u) := by
    dsimp only [immutable]
    split
    · exact (report rfl _).after initialWalks
    · exact initialWalks ()
  split
  · exact (report rfl _).after immutableWalks
  · exact immutableWalks ()

theorem requireConstantType : Walks allowed context [] {} (requireConstantType v t) := by
  unfold Check.requireConstantType
  split
  · exact report rfl _
  · exact pure _

theorem stateVariableValue :
    Walks allowed context (visitsOf context.scope v.value.toList) { nodes := optionNodes v.value }
      (stateVariableValue v t) := by
  rw [stateVariableValue_eq]
  exact requireConstantType.after fun _ => stateVariableRest

theorem optionalGetter (readable : allowed v) :
    Walks allowed context [] {} (optionalGetter v t) := by
  unfold Check.optionalGetter
  split
  · exact (getterType readable).after fun _ => forEach fun _ _ => requireCrossing _ _ _ _
  · exact pure _

theorem contractPart {part : ContractPart} (state : ∀ v, part = .stateVariable v → allowed v)
    (types : List Ty) :
    Walks allowed context (part.visits context.scope) part.inventory (contractPart types part) := by
  cases part with
  | stateVariable v => exact stateVariableValue.before fun _ => optionalGetter (state v rfl)
  | function f => exact function f
  | event e => exact event e
  | message m => exact message m
  | modifier m => exact modifier m
  | struct s => exact struct s
  | usingFor u => exact usingFor u

theorem contractParts {parts : List ContractPart}
    (state : ∀ v, .stateVariable v ∈ parts → allowed v)
    (types : List Ty) : Walks allowed context (parts.flatMap (ContractPart.visits context.scope))
      (.all ContractPart.inventory parts) (contractParts parts types) := by
  induction parts generalizing types with
  | nil => exact pure _
  | cons part rest ih =>
    rw [contractParts_cons]
    refine (contractPart (fun v isVariable => ?_) types).bind fun _ => ih (fun v mem => ?_) _
    · exact state v (isVariable ▸ mem_cons_self)
    · exact state v (mem_cons_of_mem _ mem)

theorem kindIssues :
    Walks allowed context [] {} (c.kindIssues.forM fun (issue, span) => Check.report issue span) :=
  forEach fun _ mem => report (kindIssues_ordinary mem) _

theorem members (state : ∀ v ∈ c.stateVariables, allowed v) :
    Walks allowed context c.visits c.inventory (members c) := by
  refine within (by rintro f ⟨⟩) ?_
  refine (forM fun specifier _ => baseSpecifier specifier).bind fun _ =>
    (declareAll c.stateVariables .state).bind fun types => ?_
  refine (contractParts (fun v mem => state v ?_) types).before fun _ => kindIssues
  exact mem_filterMap.mpr ⟨_, mem, rfl⟩

theorem partBody {part : UnitPart} (outside : context.scope = {})
    (readable : ∀ v ∈ part.inventory.vars, allowed v) :
    Walks allowed context part.visits part.inventory (partBody part) := by
  cases part with
  | contract c => exact members fun v mem => readable v (mem_append_right _ (mem_append_left _ mem))
  | struct s => exact struct s
  | function f =>
    have walks : Walks allowed context (f.visits context.scope) f.inventory (Check.function f) :=
      function f
    rwa [outside] at walks
  | usingFor u => exact usingFor u

end Walks

end Check

end ContractTyping
