import ContractTyping.Proofs.Parentheses.Source

/-!
# What is declared, with parentheses

Everything that is declared stays the same but for the parentheses inside it (`ofUnit_unit`), so
that constants have the same values (`evaluate_expr`), contracts have the same bases
(`linearized_contract`, `cycle?_contract`) and type names resolve to the same types
(`resolve_typeName`).
-/

namespace ContractTyping

open List Declarations

/-- What is picked from a list with parentheses is what is picked without, with parentheses. -/
theorem filterMap_map_of_commutes {α β : Type} {wrap : α → α} {pick : α → Option β}
    {wrapped : β → β} (xs : List α) (same : ∀ x, pick (wrap x) = (pick x).map wrapped) :
    (xs.map wrap).filterMap pick = (xs.filterMap pick).map wrapped := by
  rw [filterMap_map, map_filterMap]
  exact congrArg (List.filterMap · xs) (funext same)

namespace Wrapping

variable (W : Wrapping)

/-! ## Variables inside declarations -/

mutual

theorem withInner_var (v : Variable) : (W.var v).withInner = v.withInner.map W.var := by
  match v with
  | .mk traits none value => rfl
  | .mk traits (some declared) value =>
    rw [var, Variable.withInner, Variable.withInner, innerVariables_typeName declared,
      map_cons, var]

theorem innerVariables_typeName (t : TypeName) :
    (W.typeName t).innerVariables = t.innerVariables.map W.var := by
  match t with
  | .elementary .. | .userDefined .. => rfl
  | .mapping _ key value =>
    rw [typeName, TypeName.innerVariables, TypeName.innerVariables, innerVariables_typeName key,
      innerVariables_typeName value, map_append]
  | .array _ base length =>
    rw [typeName, TypeName.innerVariables, TypeName.innerVariables, innerVariables_typeName base]
  | .function _ parameters returns _ _ =>
    rw [typeName, TypeName.innerVariables, TypeName.innerVariables, withInner_vars parameters,
      withInner_vars returns, map_append]

theorem withInner_vars (vars : List Variable) :
    variablesWithInner (W.vars vars) = (variablesWithInner vars).map W.var := by
  match vars with
  | [] => rfl
  | v :: rest =>
    rw [Wrapping.vars, variablesWithInner, variablesWithInner, withInner_var v,
      withInner_vars rest, map_append]

end

theorem withInner_declared (vars : List (Option Variable)) :
    variablesWithInner ((vars.map (Option.map W.var)).filterMap id) =
      (variablesWithInner (vars.filterMap id)).map W.var := by
  rw [← withInner_vars, vars_eq]
  exact congrArg variablesWithInner (filterMap_map_of_commutes vars fun _ => rfl)

mutual

theorem vars_statement (s : Statement) : (W.statement s).vars = s.vars.map W.var := by
  match s with
  | .block _ body => exact vars_block body
  | .ifElse _ _ yes none =>
    rw [statement, optionalStatement, Statement.vars, Statement.vars,
      vars_statement yes, map_append]
    rfl
  | .ifElse _ _ yes (some no) =>
    rw [statement, optionalStatement, Statement.vars, Statement.vars,
      vars_statement yes, map_append]
    exact congrArg _ (vars_statement no)
  | .whileLoop _ _ body _ => exact vars_statement body
  | .forLoop _ none _ _ body => exact vars_statement body
  | .forLoop _ (some initial) _ _ body =>
    rw [statement, optionalStatement, Statement.vars, Statement.vars,
      vars_statement body, map_append]
    exact congrArg (· ++ _) (vars_statement initial)
  | .declare _ vars _ => exact W.withInner_declared vars
  | .tryCatch _ _ clauses => exact vars_catchClauses clauses
  | .placeholder _ | .continueLoop _ | .breakLoop _ | .returnValue .. | .emit .. | .expression .. =>
    rfl

theorem vars_block (b : Block) : (W.block b).vars = b.vars.map W.var := by
  match b with
  | .mk _ body _ => exact vars_statements body

theorem vars_statements (body : List Statement) :
    statementsVariables (W.statements body) = (statementsVariables body).map W.var := by
  match body with
  | [] => rfl
  | s :: rest =>
    rw [statements, statementsVariables, statementsVariables, vars_statement s,
      vars_statements rest, map_append]

theorem vars_catchClauses (clauses : List CatchClause) :
    clausesVariables (W.catchClauses clauses) = (clausesVariables clauses).map W.var := by
  match clauses with
  | [] => rfl
  | .mk _ _ parameters body :: rest =>
    have shared : (parameters.map W.vars).getD [] = W.vars (parameters.getD []) := by
      cases parameters <;> rfl
    rw [catchClauses, clausesVariables, clausesVariables, shared, withInner_vars, vars_block body,
      vars_catchClauses rest, map_append, map_append]

end

theorem bodyVariables_map (body : Option Block) :
    bodyVariables (body.map W.block) = (bodyVariables body).map W.var := by
  cases body with
  | none => rfl
  | some body => exact W.vars_block body

/-! ## Declarations -/

def entry (e : NodeId × Declaration) : NodeId × Declaration := (e.1, W.declaration e.2)

def declarations (d : Declarations) : Declarations :=
  ⟨d.entries.map W.entry, d.contracts.map W.contract⟩

theorem variableDeclarations_map (scope : Option NodeId) (vars : List Variable) :
    variableDeclarations scope (vars.map W.var) =
      (variableDeclarations scope vars).map W.entry := by
  unfold variableDeclarations
  rw [map_map, map_map]
  refine map_congr_left fun v _ => ?_
  show ((W.var v).id, (⟨.var (W.var v), scope⟩ : Declaration)) = (v.id, ⟨.var (W.var v), scope⟩)
  rw [var_id]

theorem declarations_function (f : Function) (scope : Option NodeId) :
    (W.function f).declarations scope = (f.declarations scope).map W.entry := by
  have vars :
      variablesWithInner (W.function f).parameters ++ variablesWithInner (W.function f).returns ++
      bodyVariables (W.function f).body = (variablesWithInner f.parameters ++
        variablesWithInner f.returns ++ bodyVariables f.body).map W.var := by
    rw [map_append, map_append, ← withInner_vars, ← withInner_vars, ← bodyVariables_map]
    rfl
  rw [Function.declarations, vars, variableDeclarations_map]
  rfl

theorem declarations_struct (s : StructDef) (scope : Option NodeId) :
    (W.struct s).declarations scope = (s.declarations scope).map W.entry := by
  have vars : variablesWithInner (W.struct s).members = (variablesWithInner s.members).map W.var :=
    W.withInner_vars s.members
  rw [StructDef.declarations, vars, variableDeclarations_map]
  rfl

theorem declarations_contractPart (scope : Option NodeId) (part : ContractPart) :
    (W.contractPart part).declarations scope = (part.declarations scope).map W.entry := by
  cases part with
  | function f => exact W.declarations_function f scope
  | struct s => exact W.declarations_struct s scope
  | usingFor u => rfl
  | stateVariable v =>
    show variableDeclarations scope (W.var v).withInner = _
    rw [withInner_var, variableDeclarations_map]
    rfl
  | event e =>
    show (e.node.id, _) :: variableDeclarations scope (variablesWithInner (W.vars e.parameters)) = _
    rw [withInner_vars, variableDeclarations_map]
    rfl
  | message m =>
    show (m.node.id, _) :: variableDeclarations scope (variablesWithInner (W.vars m.parameters) ++
      variablesWithInner (W.vars m.returns)) = _
    rw [withInner_vars, withInner_vars, ← map_append, variableDeclarations_map]
    rfl
  | modifier m =>
    show (m.node.id, _) :: variableDeclarations scope (variablesWithInner (W.vars m.parameters) ++
      bodyVariables (m.body.map W.block)) = _
    rw [withInner_vars, bodyVariables_map, ← map_append, variableDeclarations_map]
    rfl

theorem declarations_part (part : UnitPart) :
    (W.part part).declarations = part.declarations.map W.entry := by
  cases part with
  | struct s => exact W.declarations_struct s none
  | function f => exact W.declarations_function f none
  | usingFor u => rfl
  | contract c =>
    show (c.id, _) :: (c.parts.map W.contractPart).flatMap
      (ContractPart.declarations (some c.id)) = _
    rw [flatMap_map]
    simp only [declarations_contractPart]
    rw [← map_flatMap]
    rfl

/-- What is declared is the same, but for the parentheses in it. -/
theorem ofUnit_unit (u : SourceUnit) : ofUnit (W.unit u) = W.declarations (ofUnit u) := by
  have entries : (u.parts.map W.part).flatMap UnitPart.declarations =
      (u.parts.flatMap UnitPart.declarations).map W.entry := by
    rw [flatMap_map]
    simp only [declarations_part]
    rw [← map_flatMap]
  unfold ofUnit declarations
  congr 1
  · exact (congrArg List.reverse entries).trans map_reverse.symm
  · exact filterMap_map_of_commutes u.parts fun part => by cases part <;> rfl

section Lookup

variable (d : Declarations)

variable (id : NodeId)

include id

theorem find?_declarations : (W.declarations d).find? id = (d.find? id).map W.declaration := by
  show (d.entries.map W.entry).lookup id = (d.entries.lookup id).map W.declaration
  induction d.entries with
  | nil => rfl
  | cons e rest ih =>
    obtain ⟨key, declared⟩ := e
    show List.lookup id ((key, W.declaration declared) :: rest.map W.entry) = _
    rw [lookup_cons, lookup_cons, ih]
    cases id == key <;> rfl

theorem lookup?_declarations :
    (W.declarations d).lookup? id = (d.lookup? id).map W.declaration := by
  unfold lookup?
  split
  · cases Global.ofId? id <;> rfl
  · exact W.find?_declarations d id

theorem contract?_declarations :
    (W.declarations d).contract? id = (d.contract? id).map W.contract := by
  unfold contract?
  rw [find?_declarations]
  rcases d.find? id with _ | ⟨item, scope⟩
  · rfl
  · cases item <;> rfl

theorem struct?_declarations :
    (W.declarations d).struct? id = (d.struct? id).map fun found =>
      (W.struct found.1, found.2) := by
  unfold struct?
  rw [find?_declarations]
  rcases d.find? id with _ | ⟨item, scope⟩
  · rfl
  · cases item <;> rfl

theorem var?_declarations : (W.declarations d).var? id = (d.var? id).map W.var := by
  unfold var?
  rw [lookup?_declarations]
  rcases d.lookup? id with _ | ⟨item, scope⟩
  · rfl
  · cases item <;> rfl

end Lookup

/-! ## Constants -/

/-- Calls and assignments have no value, with parentheses or without. -/
theorem evaluateWith_expr (constant : (node target : NodeId) → Evaluation (Option Fraction))
    (e : Expr) : (W.expr e).evaluateWith constant = e.evaluateWith constant := by
  match e with
  | .identifier .. | .elementaryType .. | .literal .. | .assignment .. | .conditional .. | .call ..
  | .callOptions .. | .create .. | .await .. | .member .. | .index .. | .slice .. => rfl
  | .unary _ op _ operand =>
    cases op with
    | negate => rw [expr, Expr.evaluateWith, Expr.evaluateWith, evaluateWith_expr constant operand]
    | _ => rfl
  | .binary _ op left right =>
    rw [expr, Expr.evaluateWith, Expr.evaluateWith, evaluateWith_expr constant left]
    simp only [evaluateWith_expr constant right]
  | .tuple _ [some inner] false =>
    rw [expr, slots, slots, Expr.evaluateWith, Expr.evaluateWith, evaluateWith_expr constant inner]
  | .tuple _ [] _ | .tuple _ [none] _ | .tuple _ [some _] true | .tuple _ (none :: none :: _) _
  | .tuple _ (none :: some _ :: _) _ | .tuple _ (some _ :: none :: _) _
  | .tuple _ (some _ :: some _ :: _) _ => rfl

theorem constantValue_declarations (d : Declarations) (depth : Nat) (active : List NodeId)
    (node target : NodeId) :
    (W.declarations d).constantValue depth active node target = d.constantValue depth active node
      target := by
  induction depth generalizing active node target with
  | zero => rfl
  | succ depth ih =>
    have same : (W.declarations d).constantValue depth (target :: active) =
        d.constantValue depth (target :: active) := by
      funext node target
      exact ih _ node target
    unfold constantValue
    rw [lookup?_declarations]
    rcases d.lookup? target with _ | ⟨item, scope⟩
    · rfl
    · cases item with
      | var v =>
        dsimp only [Option.map_some, declaration, item]
        rw [var_isConstant, var_value, same]
        cases v.isConstant with
        | false => rfl
        | true =>
          cases v.value with
          | none => rfl
          | some value =>
            dsimp only [Option.map_some]
            rw [evaluateWith_expr]
      | _ => rfl

theorem evaluate_expr (d : Declarations) (e : Expr) :
    (W.declarations d).evaluate (W.expr e) = d.evaluate e := by
  have size : (W.declarations d).entries.length = d.entries.length := length_map ..
  unfold evaluate evaluateRemembering
  rw [evaluateWith_expr, size]
  congr 3
  funext node target
  exact W.constantValue_declarations d _ _ node target

/-! ## Inheritance -/

section Inheritance

variable (d : Declarations)

theorem directBases_contract (c : Contract) :
    (W.declarations d).directBases (W.contract c) = d.directBases c := by
  have targets : (W.contract c).bases.filterMap (fun specifier => specifier.base.target) =
      c.bases.filterMap fun specifier => specifier.base.target := by
    show (c.bases.map W.baseSpecifier).filterMap _ = _
    rw [filterMap_map]
    rfl
  unfold directBases
  congr 1
  funext id
  rw [contract?_declarations, Option.isSome_map]

theorem basesOf_declarations : (W.declarations d).basesOf = d.basesOf := by
  funext id
  unfold basesOf
  rw [contract?_declarations]
  cases d.contract? id with
  | none => rfl
  | some c => exact W.directBases_contract d c

theorem basesOfBackwards_declarations :
    (W.declarations d).basesOfBackwards = d.basesOfBackwards := by
  funext id
  unfold basesOfBackwards
  rw [basesOf_declarations]

theorem contractIds_declarations : (W.declarations d).contractIds = d.contractIds := by
  show (d.contracts.map W.contract).map Contract.id = d.contracts.map Contract.id
  rw [map_map]
  rfl

variable (c : Contract)

include c

theorem linearized_contract : (W.declarations d).linearized (W.contract c) = d.linearized c := by
  unfold linearized
  rw [directBases_contract, basesOfBackwards_declarations, contractIds_declarations]
  rfl

theorem cycle?_contract : (W.declarations d).cycle? (W.contract c) = d.cycle? c := by
  have size : (W.declarations d).contracts.length = d.contracts.length := length_map ..
  unfold cycle?
  rw [directBases_contract, basesOf_declarations, size]
  rfl

theorem functions_contract : (W.contract c).functions = c.functions.map W.function :=
  filterMap_map_of_commutes c.parts fun part => by cases part <;> rfl

omit c in
theorem filterMap_contract? (ids : List NodeId) :
    ids.filterMap (W.declarations d).contract? = (ids.filterMap d.contract?).map W.contract := by
  rw [map_filterMap]
  congr 1
  funext id
  exact W.contract?_declarations d id

theorem canReceive_contract : (W.declarations d).canReceive (W.contract c) = d.canReceive c := by
  unfold canReceive
  rw [linearized_contract, filterMap_contract?, any_map]
  congr 1
  funext base
  show (W.contract base).functions.any _ = _
  rw [functions_contract, any_map]
  rfl

theorem contractTy_contract : (W.declarations d).contractTy (W.contract c) = d.contractTy c := by
  unfold contractTy
  rw [canReceive_contract, linearized_contract]
  rfl

end Inheritance

/-! ## Type names -/

section Types

variable (d : Declarations)

theorem structTy_struct (s : StructDef) (scope : Option NodeId) (place : Place) :
    (W.declarations d).structTy (W.struct s) scope place = d.structTy s scope place := by
  unfold structTy
  cases scope with
  | none => rfl
  | some id =>
    rw [Option.bind_some, Option.bind_some, contract?_declarations]
    cases d.contract? id <;> rfl

theorem arrayLength_optional (length : Option Expr) :
    (W.declarations d).arrayLength (W.optional length) = d.arrayLength length := by
  cases length with
  | none => rfl
  | some e =>
    unfold arrayLength
    dsimp only [optional]
    rw [evaluate_expr]

theorem resolvePath_declarations (path : Path) (place : Place) :
    (W.declarations d).resolvePath path place = d.resolvePath path place := by
  unfold resolvePath
  cases path.target with
  | none => rfl
  | some id =>
    dsimp only
    rw [lookup?_declarations]
    rcases d.lookup? id with _ | ⟨item, scope⟩
    · rfl
    · cases item with
      | contract c =>
        dsimp only [Option.map_some, declaration, Wrapping.item]
        rw [contractTy_contract]
      | struct s =>
        dsimp only [Option.map_some, declaration, Wrapping.item]
        rw [structTy_struct]
      | _ => rfl

mutual

theorem resolve_typeName (t : TypeName) (place : Place) :
    (W.declarations d).resolve (W.typeName t) place = d.resolve t place := by
  match t with
  | .elementary .. => rfl
  | .userDefined _ path =>
    rw [typeName, resolve, resolve, resolvePath_declarations]
  | .mapping _ key value =>
    rw [typeName, resolve, resolve, resolve_typeName key]
    simp only [resolve_typeName value]
  | .array _ base length =>
    rw [typeName, resolve, resolve, resolve_typeName base, arrayLength_optional]
  | .function _ parameters returns _ _ =>
    rw [typeName, resolve, resolve, declaredTypes_vars parameters, declaredTypes_vars returns]

theorem declaredType_var (v : Variable) :
    (W.declarations d).declaredType (W.var v) = d.declaredType v := by
  match v with
  | .mk _ none _ => rfl
  | .mk traits (some declared) _ =>
    rw [var, declaredType, declaredType, resolve_typeName declared]

theorem declaredTypes_vars (vars : List Variable) :
    (W.declarations d).declaredTypes (W.vars vars) = d.declaredTypes vars := by
  match vars with
  | [] => rfl
  | v :: rest =>
    rw [Wrapping.vars, declaredTypes, declaredTypes, declaredType_var v, declaredTypes_vars rest]

end

theorem structMembers_declarations (id : NodeId) (location : DataLocation) :
    (W.declarations d).structMembers id location = d.structMembers id location := by
  unfold structMembers
  rw [struct?_declarations]
  rcases d.struct? id with _ | ⟨s, scope⟩
  · rfl
  · show (W.vars s.members).mapM _ = _
    rw [vars_eq, mapM_map]
    congr 1
    funext member
    dsimp only [Function.comp_apply]
    rw [var_typeName, var_name]
    cases member.typeName with
    | none => rfl
    | some declared =>
      dsimp only [Option.map_some]
      rw [resolve_typeName]

theorem structTable_declarations : (W.declarations d).structTable = d.structTable := by
  unfold structTable
  congr 1
  show (d.entries.map W.entry).filterMap _ = _
  rw [filterMap_map]
  congr 1
  funext entry
  obtain ⟨id, item, scope⟩ := entry
  cases item with
  | struct s =>
    dsimp only [Function.comp_apply, Wrapping.entry, declaration, Wrapping.item]
    rw [structMembers_declarations]
  | _ => rfl

end Types

end Wrapping

end ContractTyping
