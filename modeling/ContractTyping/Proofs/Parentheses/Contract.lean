import ContractTyping.Proofs.Parentheses.Statement

/-!
# Contracts with parentheses

Every part of a source unit is checked alike with parentheses and without (`MirrorsBy.unitPart`).
-/

namespace ContractTyping

open Check List Wrapping

/-! ## The shape of declarations -/

namespace Wrapping

variable (W : Wrapping)
variable (f : Function) (c : Contract)

theorem vars_isEmpty (vars : List Variable) : (W.vars vars).isEmpty = vars.isEmpty := by
  rw [vars_eq, isEmpty_map]

theorem isImplemented_function : (W.function f).isImplemented = f.isImplemented :=
  Option.isSome_map ..

theorem shapeFaults_function (contract : Option Contract) :
    (W.function f).shapeFaults (contract.map W.contract) = f.shapeFaults contract := by
  have parameters : (W.function f).parameters.isEmpty = f.parameters.isEmpty :=
    W.vars_isEmpty f.parameters
  have returns : (W.function f).returns.isEmpty = f.returns.isEmpty := W.vars_isEmpty f.returns
  unfold Function.shapeFaults
  rw [parameters, returns, isImplemented_function, Option.any_map, Option.isNone_map]
  rfl

theorem stateVariables_contract : (W.contract c).stateVariables = c.stateVariables.map W.var :=
  filterMap_map_of_commutes c.parts fun part => by cases part <;> rfl

theorem interfaceIssues_function : (W.function f).interfaceIssues = f.interfaceIssues := by
  unfold Function.interfaceIssues
  rw [isImplemented_function]
  rfl

theorem kindIssues_contract : (W.contract c).kindIssues = c.kindIssues := by
  unfold Contract.kindIssues
  have kind : (W.contract c).kind = c.kind := rfl
  have isAbstract : (W.contract c).isAbstract = c.isAbstract := rfl
  rw [stateVariables_contract, functions_contract, kind, isAbstract]
  cases c.kind with
  | interface =>
    rw [map_map, flatMap_map]
    simp only [Function.comp_def, var_span, interfaceIssues_function]
    rfl
  | library =>
    dsimp only
    rw [filter_map, map_map, filterMap_map]
    simp only [Function.comp_def, var_span, var_isConstant]
    rfl
  | contract =>
    rw [any_map]
    simp only [Function.comp_def, isImplemented_function]
    rfl

theorem constructor?_contract : (W.contract c).constructor? = c.constructor?.map W.function := by
  unfold Contract.constructor?
  rw [functions_contract, find?_map]
  rfl

end Wrapping

namespace Enclosure

variable {E : Enclosure}

/-- The same cycle is recorded. -/
theorem Agree.cycleFindings {σ σ' : Findings} (agree : E.Agree σ σ') (c : Contract)
    (cycle : List NodeId) (scope : Scope) : E.Agree (cycleFindings (E.context scope) c cycle σ)
      (cycleFindings (E.there scope) (E.wrapping.contract c) cycle σ') := by
  have anchor :
      (cycle.head?.bind (E.there scope).declarations.contract?).getD (E.wrapping.contract c) =
      E.wrapping.contract ((cycle.head?.bind E.declarations.contract?).getD c) := by
    rw [there_declarations]
    cases cycle.head? with
    | none => rfl
    | some id =>
      rw [Option.bind_some, Option.bind_some, contract?_declarations]
      exact Option.getD_map ..
  refine { agree with diagnostics := ?_, cyclic := ?_ }
  · unfold Check.cycleFindings
    rw [anchor, agree.cyclic, agree.diagnostics]
    rfl
  · exact congrArg (fun known => c.id :: (cycle ++ known)) agree.cyclic

namespace MirrorsBy

/-! ## Functions and modifiers -/

theorem passToConstructor (c : Contract) (arguments : Option Arguments) (span : Span) :
    E.Mirrors (passToConstructor c arguments span)
      (passToConstructor (E.wrapping.contract c) arguments span) := by
  unfold Check.passToConstructor
  rw [constructor?_contract]
  cases c.constructor? with
  | none =>
    refine (variableTypes []).bind fun types => ?_
    split
    · exact (Remarks.passArguments _ _ _ _ _).steady
    · exact Steady.pure _
  | some f =>
    refine (variableTypes f.parameters).bind fun types => ?_
    have names :
      (E.wrapping.function f).parameters.map Variable.name = f.parameters.map Variable.name :=
      E.wrapping.vars_names f.parameters
    dsimp only [Option.map_some]
    rw [names]
    split
    · exact (Remarks.passArguments _ _ _ _ _).steady
    · exact Steady.pure _

theorem optionalArguments {arguments : Option (List Expr)}
    (seen : E.Sees (argumentNodes arguments)) :
    E.Mirrors (optionalArguments arguments)
      (optionalArguments (arguments.map E.wrapping.exprs)) := by
  cases arguments with
  | none => exact Steady.pure _
  | some arguments => exact map (positional seen) fun _ => rfl

theorem modifierCall (bases : List NodeId) {m : ModifierCall} (seen : E.Sees m.inventory.nodes) :
    E.Mirrors (modifierCall bases m) (modifierCall bases (E.wrapping.modifierCall m)) := by
  refine (optionalArguments seen).bind fun arguments => (followPath m.target).bind fun found => ?_
  cases found with
  | none => exact Steady.pure _
  | some declaration =>
    obtain ⟨item, scope⟩ := declaration
    cases item with
    | contract c => exact ite .rfl (passToConstructor c _ _) (Steady.report _ _)
    | modifier definition =>
      have names : (E.wrapping.modifier definition).parameters.map Variable.name =
          definition.parameters.map Variable.name := E.wrapping.vars_names definition.parameters
      refine (variableTypes definition.parameters).bind fun types => ?_
      rw [names]
      exact (Remarks.passArguments _ _ _ _ _).steady
    | _ => exact Steady.report _ _

theorem constructibleBases (f : Function) :
    E.Mirrors (constructibleBases f) (constructibleBases (E.wrapping.function f)) := by
  refine read fun scope => ?_
  rw [there_contract]
  cases (E.context scope).scope.contract with
  | none => exact Steady.pure _
  | some c =>
    dsimp only [Option.map_some]
    rw [there_declarations, linearized_contract]
    exact ite .rfl (Steady.pure _) (Steady.pure _)

theorem optionalBlock {body : Option Block} (seen : E.Sees (bodyInventory body).nodes) :
    E.Mirrors (optionalBlock body) (optionalBlock (body.map E.wrapping.block)) := by
  cases body with
  | none => exact Steady.pure _
  | some body => exact block body seen

theorem function {f : Function} (seen : E.Sees f.inventory.nodes) :
    E.Mirrors (function f) (function (E.wrapping.function f)) := by
  refine read fun scope => within rfl ?_
  have isSome : (E.there scope).scope.contract.isSome = (E.context scope).scope.contract.isSome :=
    Option.isSome_map ..
  have isLibrary : (E.there scope).scope.contract.any Contract.isLibrary =
      (E.context scope).scope.contract.any Contract.isLibrary := Option.any_map ..
  have faults : (E.wrapping.function f).shapeFaults (E.there scope).scope.contract =
      f.shapeFaults (E.context scope).scope.contract :=
      E.wrapping.shapeFaults_function f scope.contract
  rw [isSome, isLibrary, faults]
  refine (declareAll f.parameters _).bind fun _ => (declareAll f.returns _).bind fun _ => ?_
  refine bind (Steady.forM fun fault _ => Steady.report _ _) fun _ =>
    (constructibleBases f).bind fun bases => ?_
  exact bind (forM fun m mem => modifierCall bases (seen.right.right.left.piece mem)) fun _ =>
    optionalBlock seen.right.right.right

theorem modifier {m : Modifier} (seen : E.Sees m.inventory.nodes) :
    E.Mirrors (modifier m) (modifier (E.wrapping.modifier m)) := by
  refine read fun scope => within rfl ?_
  have isLibrary : (E.there scope).scope.contract.any Contract.isLibrary =
      (E.context scope).scope.contract.any Contract.isLibrary := Option.any_map ..
  rw [isLibrary]
  exact (declareAll m.parameters _).bind fun _ => optionalBlock seen

/-! ## Events, messages, structs and directives -/

theorem event (e : Event) : E.Mirrors (event e) (event (E.wrapping.event e)) := by
  have each : E.Mirrors (e.parameters.forM fun v => do
        let t ← Check.declare v .eventParameter
        unless t.isInvalid do requireCrossing t false .event v.span)
      ((E.wrapping.vars e.parameters).forM fun v => do
        let t ← Check.declare v .eventParameter
        unless t.isInvalid do requireCrossing t false .event v.span) := by
    rw [vars_eq]
    refine forM fun v _ => (declare v _).bind fun t => ?_
    rw [var_span]
    exact ite .rfl (Steady.pure _) (Remarks.requireCrossing _ _ _ _).steady
  have indexed : ((E.wrapping.event e).parameters.filter fun v => v.traits.indexed).length =
      (e.parameters.filter fun v => v.traits.indexed).length := by
    show ((E.wrapping.vars e.parameters).filter _).length = _
    rw [vars_eq, filter_map, length_map]
    simp only [Function.comp_def, var_traits]
  refine each.bind fun _ => ?_
  rw [indexed]
  exact ite .rfl (ite .rfl (Steady.report _ _) (Steady.pure _))
    (ite .rfl (Steady.report _ _) (Steady.pure _))

theorem message (m : Message) : E.Mirrors (message m) (message (E.wrapping.message m)) := by
  unfold Check.message
  have mapped : (E.wrapping.message m).parameters ++ (E.wrapping.message m).returns =
      (m.parameters ++ m.returns).map E.wrapping.var := by
    show E.wrapping.vars m.parameters ++ E.wrapping.vars m.returns = _
    rw [vars_eq, vars_eq, map_append]
  rw [mapped]
  refine forM fun v _ => (declare v _).bind fun t => ite .rfl (Steady.pure _) (read fun scope => ?_)
  rw [there_structs, var_span]
  exact ite .rfl (Steady.report _ _) (Remarks.requireCrossing _ _ _ _).steady

theorem structField (v : Variable) :
    E.Mirrors (structField v) (structField (E.wrapping.var v)) := by
  unfold Check.structField
  rw [var_typeName, var_span, var_id]
  cases v.typeName with
  | none => exact bind (Steady.reject _ _) fun t => Steady.annotateVariable _ _
  | some typeName =>
    refine (resolve typeName _).bind fun result => ?_
    rw [typeName_span]
    exact bind (Steady.orReject _ _) fun t => Steady.annotateVariable _ _

theorem struct (s : StructDef) : E.Mirrors (struct s) (struct (E.wrapping.struct s)) := by
  have fields : E.Mirrors (s.members.forM Check.structField)
      ((E.wrapping.struct s).members.forM Check.structField) := by
    show E.Mirrors _ ((E.wrapping.vars s.members).forM _)
    rw [vars_eq]
    exact forM fun v _ => structField v
  have isEmpty : (E.wrapping.struct s).members.isEmpty = s.members.isEmpty :=
    E.wrapping.vars_isEmpty s.members
  unfold Check.struct
  rw [isEmpty]
  have rest : E.Mirrors (s.members.forM Check.structField >>= fun _ => do
        if (← MonadReader.read).structs.hasInfiniteSize s.node.id then
          invalidDeclaration .infiniteStruct s.node.span)
      ((E.wrapping.struct s).members.forM Check.structField >>= fun _ => do
        if (← MonadReader.read).structs.hasInfiniteSize s.node.id then
          invalidDeclaration .infiniteStruct s.node.span) := by
    refine fields.bind fun _ => read fun scope => ?_
    rw [there_structs]
    exact ite .rfl (Steady.report _ _) (Steady.pure _)
  exact ite .rfl (bind (Steady.report _ _) fun _ => rest) rest

theorem usingFor (u : UsingFor) : E.Mirrors (usingFor u) (usingFor (E.wrapping.usingFor u)) := by
  refine (followPath u.library).bind fun found => ?_
  extract_lets resolveType resolveType'
  have rest (done : Unit) : E.Mirrors (resolveType done) (resolveType' done) := by
    have typeName : (E.wrapping.usingFor u).typeName = u.typeName.map E.wrapping.typeName := rfl
    dsimp only [resolveType, resolveType']
    rw [typeName]
    cases u.typeName with
    | none => exact Steady.pure _
    | some typeName =>
      refine (resolve typeName _).bind fun result => ?_
      rw [typeName_span]
      cases result with
      | ok t => exact Steady.pure _
      | error issue => exact Steady.report _ _
  cases found with
  | none => exact rest ()
  | some declaration =>
    obtain ⟨item, scope⟩ := declaration
    cases item with
    | contract c => exact ite .rfl (rest ()) (bind (Steady.report _ _) rest)
    | _ => exact bind (Steady.report _ _) rest

/-! ## Contracts -/

theorem baseSpecifier (c : Contract) {specifier : BaseSpecifier}
    (seen : E.Sees specifier.inventory.nodes) : E.Mirrors (baseSpecifier c specifier)
      (baseSpecifier (E.wrapping.contract c) (E.wrapping.baseSpecifier specifier)) := by
  refine (optionalArguments seen).bind fun arguments =>
    (followPath specifier.base).bind fun found => ?_
  cases found with
  | none => exact Steady.pure _
  | some declaration =>
    obtain ⟨item, scope⟩ := declaration
    cases item with
    | contract base =>
      have fault :
        (E.wrapping.contract c).baseFault? (E.wrapping.contract base) = c.baseFault? base := rfl
      have rest := ite (E := E) (Iff.rfl (a := arguments.isSome = true))
          (ite (Iff.rfl (a := c.isInterface = true))
          (Steady.report (.invalidDeclaration .interfaceArguments) specifier.node.span)
          (passToConstructor base arguments specifier.node.span)) (Steady.pure ())
      dsimp only [Option.map_some, Wrapping.declaration, Wrapping.item]
      rw [fault]
      cases c.baseFault? base with
      | none => exact rest
      | some fault => exact bind (Steady.report _ _) fun _ => rest
    | _ => exact Steady.report _ _

theorem getter (v : Variable) : E.Mirrors (getter v) (getter (E.wrapping.var v)) := by
  refine (getterType v).bind fun f => ?_
  rw [var_span]
  exact Steady.forM fun t _ => (Remarks.requireCrossing _ _ _ _).steady

theorem optionalGetter (v : Variable) (t : Ty) :
    E.Mirrors (optionalGetter v t) (optionalGetter (E.wrapping.var v) t) := by
  unfold Check.optionalGetter
  rw [var_traits]
  exact ite .rfl (getter v) (Steady.pure _)

theorem stateVariableValue {v : Variable} (seen : E.Sees (optionNodes v.value)) (t : Ty) :
    E.Mirrors (stateVariableValue v t) (stateVariableValue (E.wrapping.var v) t) := by
  unfold Check.stateVariableValue
  rw [var_isConstant, var_isImmutable, var_span, var_traits, var_value]
  -- What follows each complaint is named, and compared from the last to the first.
  extract_lets invalid initial immutable uninitialized initial' immutable' uninitialized'
  have initial_mirrors (done : Unit) : E.Mirrors (initial done) (initial' done) := by
    dsimp only [initial, initial']
    cases given : v.value with
    | none => exact Steady.pure _
    | some value =>
      rw [given] at seen
      have value_mirrors := expect (E := E) seen t
      have span := E.wrapping.expr_span value
      dsimp only [Option.map_some]
      cases t with
      | mapping =>
        rw [span]
        exact ite .rfl (bind (Steady.report _ _) fun _ => value_mirrors) value_mirrors
      | _ => exact value_mirrors
  have immutable_mirrors (done : Unit) : E.Mirrors (immutable done) (immutable' done) :=
    ite .rfl (bind (Steady.report _ _) initial_mirrors) (initial_mirrors ())
  have uninitialized_mirrors (done : Unit) :
      E.Mirrors (uninitialized done) (uninitialized' done) := by
    dsimp only [uninitialized, uninitialized']
    rw [Option.isNone_map]
    exact ite .rfl (bind (Steady.report _ _) immutable_mirrors) (immutable_mirrors ())
  refine ite .rfl ?_ (immutable_mirrors ())
  exact ite .rfl (uninitialized_mirrors ()) (bind (Steady.report _ _) uninitialized_mirrors)

theorem contractParts {parts : List ContractPart}
    (seen : E.Sees (Inventory.all ContractPart.inventory parts).nodes) (types : List Ty) :
    E.Mirrors (contractParts parts types)
      (contractParts (parts.map E.wrapping.contractPart) types) := by
  induction parts generalizing types with
  | nil => exact Steady.pure _
  | cons part rest ih =>
    have others := ih seen.right
    cases part with
    | stateVariable v =>
      rw [map_cons, contractParts_cons, contractParts_cons]
      exact ((stateVariableValue seen.left _).bind fun _ => optionalGetter v _).bind
        fun _ => others _
    | function f => exact (function seen.left).bind fun _ => others types
    | event e => exact (event e).bind fun _ => others types
    | message m => exact (message m).bind fun _ => others types
    | modifier m => exact (modifier seen.left).bind fun _ => others types
    | struct s => exact (struct s).bind fun _ => others types
    | usingFor u => exact (usingFor u).bind fun _ => others types

theorem isCyclic (c : Contract) : E.Mirrors (isCyclic c) (isCyclic (E.wrapping.contract c)) where
  grows _ _ _ _ run := (isCyclic_extends run).1
  run σ σ' agree scope a τ run later isOpen := by
    -- The graph of bases is the same, and so are the contracts that were marked before.
    have there := isCyclic_run (c := E.there scope) (σ := σ') (E.wrapping.contract c)
    have id : (E.wrapping.contract c).id = c.id := rfl
    rw [agree.cyclic, id, there_declarations, cycle?_contract] at there
    rw [isCyclic_run] at run
    split at run
    · next known =>
      cases run
      exact ⟨σ', there.trans (if_pos known), agree, .refl rfl⟩
    next unknown =>
    rw [if_neg unknown] at there
    cases found : (E.context scope).declarations.cycle? c with
    | none =>
      rw [found] at run there
      cases run
      exact ⟨σ', there, agree, .refl rfl⟩
    | some cycle =>
      rw [found] at run there
      cases run
      exact ⟨_, there, agree.cycleFindings c cycle scope, .refl rfl⟩

theorem contract {c : Contract} (seen : E.Sees c.inventory.nodes) :
    E.Mirrors (contract c) (contract (E.wrapping.contract c)) := by
  refine (isCyclic c).bind fun cyclic => ite .rfl (Steady.pure _) (within rfl ?_)
  refine bind (forM fun specifier mem => baseSpecifier c (seen.left.piece mem)) fun _ => ?_
  rw [stateVariables_contract, kindIssues_contract, ← vars_eq]
  refine (declareAll c.stateVariables _).bind fun types =>
    (contractParts seen.right types).bind fun _ => ?_
  exact Steady.forM fun issue _ => Steady.report _ _

/-- A part of a source unit is checked alike. -/
theorem unitPart {part : UnitPart} (seen : E.Sees part.inventory.nodes) :
    E.Mirrors (unitPart part) (unitPart (E.wrapping.part part)) := by
  cases part with
  | contract c => exact contract seen
  | struct s => exact struct s
  | function f => exact function seen
  | usingFor u => exact usingFor u

end MirrorsBy

end Enclosure

end ContractTyping
