import ContractTyping.Check.Unit
import ContractTyping.Proofs.Effect.Declaration
import ContractTyping.Proofs.Trace.Standard

/-!
# Walks through statements

`Check.Walks` tells step by step how a check goes through a piece of source: which expressions it
visits by themselves (`Statement.visits`), what it goes through of an inventory, and what it asks
its context. Other modules say what a walk finds, what it types, and how it goes under other
settings, each by one induction over the steps.
-/

namespace ContractTyping

open Check List

/-! ## What is visited -/

/-- Expressions in a scope. -/
def visitsOf (scope : Scope) (es : List Expr) : List Visit := es.map fun e => { expr := e, scope }

mutual

/-- The expressions that stand by themselves in a statement. -/
def Statement.visits (scope : Scope) : Statement → List Visit
  | .block _ body => body.visits scope
  | .placeholder _ | .continueLoop _ | .breakLoop _ => []
  | .ifElse _ condition yes no =>
    visitsOf scope [condition] ++ (yes.visits scope ++ optionalVisits scope no)
  | .whileLoop _ condition body _ => visitsOf scope [condition] ++ body.visits scope
  | .forLoop _ initial condition step body =>
    optionalVisits scope initial ++ (visitsOf scope condition.toList ++
      (visitsOf scope step.toList ++ body.visits scope))
  | .returnValue _ value => visitsOf scope value.toList
  | .emit _ event => [{ expr := event, scope, emitted := true }]
  | .expression _ e => visitsOf scope [e]
  | .declare _ _ initial => visitsOf scope initial.toList
  | .tryCatch _ call clauses => visitsOf scope [call] ++ clausesVisits scope clauses

def Block.visits (scope : Scope) : Block → List Visit
  | .mk _ body _ => statementsVisits scope body

def statementsVisits (scope : Scope) : List Statement → List Visit
  | [] => []
  | s :: rest => s.visits scope ++ statementsVisits scope rest

def optionalVisits (scope : Scope) : Option Statement → List Visit
  | none => []
  | some s => s.visits scope

def clausesVisits (scope : Scope) : List CatchClause → List Visit
  | [] => []
  | .mk _ _ _ body :: rest => body.visits scope ++ clausesVisits scope rest

end

theorem Inventory.append_empty (I : Inventory) : I ++ ({} : Inventory) = I := by
  show Inventory.mk (_ ++ []) (_ ++ []) (_ ++ []) (_ ++ []) (_ ++ []) = I
  simp only [append_nil]

namespace Check

variable {α β : Type}

/-- Something that is checked only where the target machine has a feature. -/
def withFeature (feature : Feature) (available : EvmVersion → Bool) (span : Span) (m : Check Unit) :
    Check Unit := do
  match (← read).requireFeature feature available with
  | .error issue => report issue span
  | .ok _ => m

theorem followPath_found {c : Context} {σ τ : Findings} {path : Path} {found : Option Declaration}
    (run : followPath path c σ = .ok (found, τ)) :
    ∀ declaration, found = some declaration →
      ∃ id, c.declarations.lookup? id = some declaration := by
  rintro declaration rfl
  unfold followPath at run
  cases target : path.target with
  | none =>
    simp only [target] at run
    obtain ⟨_, υ, -, run⟩ := bind_ok.mp run
    cases run
  | some id =>
    simp only [target] at run
    rw [read_run] at run
    cases looked : c.declarations.lookup? id with
    | none => simp only [looked] at run; cases run
    | some other => simp only [looked] at run; cases run; exact ⟨id, looked⟩

/-- How a check in a context goes through a piece of source, with the expressions that it visits. Of
the variables that it does not declare, it asks for the types of those that are allowed, of what the
function returns that it is in, and of the parameters of what it has looked up. -/
inductive Walks (allowed : Variable → Prop) :
    {α : Type} → Context → List Visit → Inventory → Check α → Prop
  | remarks {α : Type} {c : Context} {m : Check α} (remarks : ∀ asks looks, Remarks asks looks m) :
    Walks allowed c [] {} m
  | bind {α β : Type} [Nonempty α] {c : Context} {m : Check α} {f : α → Check β}
      {visits visits' : List Visit} {I J : Inventory}
      (first : Walks allowed c visits I m) (next : ∀ a, Walks allowed c visits' J (f a)) :
    Walks allowed c (visits ++ visits') (I ++ J) (m >>= f)
  | read {α : Type} {c : Context} {f : Context → Check α} {visits : List Visit} {I : Inventory}
      (settings : ∀ settings, f { c with settings } = f c) (alike : ∀ c', c.Alike c' → f c' = f c)
      (next : Walks allowed c visits I (f c)) :
    Walks allowed c visits I (read >>= f)
  | within {α : Type} {c : Context} {scope : Scope} {m : Check α} {visits : List Visit}
      {I : Inventory} (returns : ∀ f, scope.function = some f → f.returns ⊆ I.vars)
      (inner : Walks allowed { c with scope } visits I m) :
    Walks allowed c visits I (within scope m)
  | requireCrossing {c : Context} (t : Ty) (isLibrary : Bool) (crossing : Crossing) (span : Span) :
    Walks allowed c [] {} (requireCrossing t isLibrary crossing span)
  | withFeature {c : Context} (feature : Feature) {available : EvmVersion → Bool}
      (lasting : EvmVersion.Lasting available) (span : Span) {m : Check Unit}
      (next : Walks allowed c [] {} m) :
    Walks allowed c [] {} (withFeature feature available span m)
  | expression {c : Context} (e : Expr) :
      Walks allowed c (visitsOf c.scope [e]) { nodes := e.nodes } (expression e {})
  | calleeKind {α : Type} {c : Context} (e : Expr) {f : Ty → Option CallKind → Check α}
      (next : ∀ t kind, Walks allowed c [] {} (f t kind)) :
    Walks allowed c (visitsOf c.scope [e]) { nodes := e.nodes }
      (expression e {} >>= fun t => calleeKind? e >>= f t)
  | emitStatement {c : Context} (e : Expr) :
    Walks allowed c [{ expr := e, scope := c.scope, emitted := true }] { nodes := e.nodes }
      (emitStatement e)
  | declare {c : Context} (v : Variable) (role : VariableRole) :
      Walks allowed c [] { vars := [v] } (declare v role)
  | structField {c : Context} (v : Variable) : Walks allowed c [] { fields := [v] } (structField v)
  | returnTypes {c : Context} {f : Function} (inside : c.scope.function = some f) :
    Walks allowed c [] {} (variableTypes f.returns)
  | signatureTypes {c : Context} {id : NodeId} {declaration : Declaration} {vars : List Variable}
      (looked : c.declarations.lookup? id = some declaration)
      (noVariable : declaration.item.var? = none) (inside : vars ⊆ declaration.item.signature) :
    Walks allowed c [] {} (variableTypes vars)
  | getterType {c : Context} {v : Variable} (readable : allowed v) :
      Walks allowed c [] {} (getterType v)
  | followPath {α : Type} {c : Context} (path : Path) {f : Option Declaration → Check α}
      {visits : List Visit}
      {I : Inventory} (next : ∀ found, (∀ declaration, found = some declaration →
        ∃ id, c.declarations.lookup? id = some declaration) → Walks allowed c visits I (f found)) :
    Walks allowed c visits ({ paths := [path] } ++ I) (followPath path >>= f)
  | resolve {α : Type} {c : Context} (typeName : TypeName) (place : Place)
      {f : Except Issue Ty → Check α}
      (next : ∀ result, (∀ issue, result = .error issue → issue.isOrdinary) →
        Walks allowed c [] {} (f result)) :
    Walks allowed c [] { typeNames := [typeName] } (resolve typeName place >>= f)

namespace Walks

variable {allowed : Variable → Prop} {c : Context} {visits visits' : List Visit} {I J : Inventory}
variable {m : Check α} {f : α → Check β} {xs : List α}

/-! ## Putting pieces together -/

theorem pure (a : α) : Walks allowed c [] {} (pure a) := .remarks fun _ _ => .pure a

theorem report {issue : Issue} (ordinary : issue.isOrdinary) (span : Span) :
    Walks allowed c [] {} (report issue span) :=
  .remarks fun _ _ => .report ordinary span

/-- What goes through nothing may come before. -/
theorem after [Nonempty α] (first : Walks allowed c [] {} m)
    (next : ∀ a, Walks allowed c visits I (f a)) : Walks allowed c visits I (m >>= f) :=
  first.bind next

/-- What goes through nothing may come after. -/
theorem before [Nonempty α] (first : Walks allowed c visits I m)
    (next : ∀ a, Walks allowed c [] {} (f a)) : Walks allowed c visits I (m >>= f) := by
  have both := first.bind next
  rwa [append_nil, Inventory.append_empty] at both

theorem map [Nonempty α] (walks : Walks allowed c visits I m) (f : α → β) :
    Walks allowed c visits I (f <$> m) := by
  exact walks.before fun a => pure (f a)

theorem forM {f : α → Check PUnit} {visits : α → List Visit} {inventory : α → Inventory}
    (each : ∀ x ∈ xs, Walks allowed c (visits x) (inventory x) (f x)) :
    Walks allowed c (xs.flatMap visits) (.all inventory xs) (xs.forM f) := by
  induction xs with
  | nil => exact pure _
  | cons x rest ih =>
    obtain ⟨first, others⟩ := forall_mem_cons.mp each
    exact first.bind fun _ => ih others

/-- Several pieces that go through nothing. -/
theorem forEach {f : α → Check PUnit} (each : ∀ x ∈ xs, Walks allowed c [] {} (f x)) :
    Walks allowed c [] {} (xs.forM f) := by
  induction xs with
  | nil => exact pure _
  | cons x rest ih =>
    obtain ⟨first, others⟩ := forall_mem_cons.mp each
    exact first.after fun _ => ih others

/-! ## Expressions and variables -/

theorem expect (e : Expr) (expected : Ty) :
    Walks allowed c (visitsOf c.scope [e]) { nodes := e.nodes } (expect e expected) :=
  (expression e).before fun _ => .remarks fun _ _ => .requireConvertible _ _ _

theorem expressions (es : List Expr) :
    Walks allowed c (visitsOf c.scope es) { nodes := listNodes es } (expressions es) := by
  induction es with
  | nil => exact pure _
  | cons e rest ih => exact (expression e).bind fun _ => ih.before fun _ => pure _

theorem declareAll (vars : List Variable) (role : VariableRole) :
    Walks allowed c [] { vars } (declareAll vars role) := by
  unfold Check.declareAll
  induction vars with
  | nil => exact pure _
  | cons v rest ih =>
    rw [mapM_cons]
    exact (declare v role).bind fun _ => ih.before fun _ => pure _

/-! ## Statements -/

theorem returnStatement (value : Expr) (span : Span) :
    Walks allowed c (visitsOf c.scope [value]) { nodes := value.nodes }
      (Check.returnStatement value span) := by
  refine read (fun _ => rfl) (fun _ alike => by rw [alike.scope]) ?_
  split
  · exact (expression value).before fun _ => report rfl _
  · next f inside =>
    refine (returnTypes inside).after fun expected => (expression value).before fun actual => ?_
    split
    · exact pure _
    · exact .remarks fun _ _ => .matchReturn _ _ _ _

theorem expressionStatement (e : Expr) :
    Walks allowed c (visitsOf c.scope [e]) { nodes := e.nodes } (Check.expressionStatement e) := by
  refine calleeKind e fun _ kind => ?_
  split
  · exact .remarks fun _ _ => .warn rfl
  · exact pure _

theorem declareSlots (slots : List (Option Variable)) :
    Walks allowed c [] { vars := slots.filterMap id } (declareSlots slots) := by
  induction slots with
  | nil => exact pure _
  | cons slot rest ih =>
    cases slot with
    | none => exact ih.before fun _ => pure _
    | some v => exact (declare v _).bind fun t => ih.before fun _ => pure _

theorem declarationStatement (vars : List (Option Variable)) (initial : Option Expr) (span : Span) :
    Walks allowed c (visitsOf c.scope initial.toList)
      ({ vars := vars.filterMap id } ++ { nodes := optionNodes initial })
      (Check.declarationStatement vars initial span) := by
  refine (declareSlots vars).bind fun declared => ?_
  cases initial with
  | none => exact .remarks fun _ _ => .requireInitial _
  | some initial =>
    refine (expression initial).before fun t => ?_
    dsimp only
    split
    · exact pure _
    · split
      all_goals
        split
        · exact report rfl _
        · exact .remarks fun _ _ => .matchInitial _ _ _

theorem tryCall (call : Expr) :
    Walks allowed c (visitsOf c.scope [call]) { nodes := call.nodes } (Check.tryCall call) := by
  refine calleeKind call fun t kind => ?_
  split
  · split <;> exact pure _
  · split <;> exact pure _
  · exact (report rfl _).after fun _ => pure _

theorem successParameters (parameters : Option (List Variable)) (returned : List Ty) (span : Span) :
    Walks allowed c [] { vars := parameters.getD [] }
      (successParameters parameters returned span) := by
  refine (declareAll _ _).before fun declared => ?_
  split
  · split
    · exact report rfl _
    · refine forEach fun pair _ => ?_
      obtain ⟨parameter, t⟩ := pair
      dsimp only
      split
      · exact pure _
      · exact report rfl _
  · exact pure _

theorem catchParameters (errorName : String) (parameters : Option (List Variable)) (span : Span) :
    Walks allowed c [] { vars := parameters.getD [] }
      (catchParameters errorName parameters span) := by
  refine (declareAll _ _).before fun declared => ?_
  split
  · refine withFeature _ (EvmVersion.lasting_atLeast _) span ?_
    split
    · exact pure _
    · exact report rfl _
  · split
    · split
      · exact pure _
      · exact report rfl _
    · exact report rfl _

mutual

theorem statement (s : Statement) :
    Walks allowed c (s.visits c.scope) s.inventory (statement s) := by
  match s with
  | .block _ body => exact block body
  | .placeholder node =>
    refine read (fun _ => rfl) (fun _ alike => by rw [alike.scope]) ?_
    split
    · exact pure _
    · exact report rfl _
  | .ifElse _ condition yes no =>
    exact (expect condition .bool).bind fun _ => (statement yes).bind fun _ => optionalStatement no
  | .whileLoop _ condition body _ => exact (expect condition .bool).bind fun _ => statement body
  | .forLoop _ initial condition step body =>
    refine (optionalStatement initial).bind fun _ => ?_
    extract_lets stepAndBody conditional
    have bodyWalks (u : Unit) :
      Walks allowed c (body.visits c.scope) body.inventory (stepAndBody u) := statement body
    have stepWalks (u : Unit) :
        Walks allowed c (visitsOf c.scope step.toList ++ body.visits c.scope)
        ({ nodes := optionNodes step } ++ body.inventory) (conditional u) := by
      cases step with
      | none => exact bodyWalks ()
      | some step => exact (expression step).bind fun _ => bodyWalks ()
    cases condition with
    | none => exact stepWalks ()
    | some condition => exact (expect condition .bool).bind stepWalks
  | .continueLoop _ | .breakLoop _ => exact pure _
  | .returnValue node value =>
    cases value with
    | none => exact pure _
    | some value => exact returnStatement value node.span
  | .emit _ event => exact emitStatement event
  | .declare node vars initial => exact declarationStatement vars initial node.span
  | .expression _ e => exact expressionStatement e
  | .tryCatch node call clauses =>
    refine (tryCall call).bind fun returned => (tryClauses returned clauses).before fun _ => ?_
    split
    · exact report rfl _
    · exact pure _

theorem block (b : Block) : Walks allowed c (b.visits c.scope) b.inventory (block b) := by
  match b with
  | .mk _ body _ => exact statements body

theorem statements (body : List Statement) :
    Walks allowed c (statementsVisits c.scope body) (statementsInventory body)
      (statements body) := by
  match body with
  | [] => exact pure _
  | s :: rest => exact (statement s).bind fun _ => statements rest

theorem optionalStatement (s : Option Statement) :
    Walks allowed c (optionalVisits c.scope s) (optionalInventory s) (optionalStatement s) := by
  match s with
  | none => exact pure _
  | some s => exact statement s

theorem tryClauses (returned : List Ty) (clauses : List CatchClause) :
    Walks allowed c (clausesVisits c.scope clauses) (clausesInventory clauses)
      (tryClauses returned clauses) := by
  match clauses with
  | [] => exact pure _
  | .mk node _ parameters body :: rest =>
    exact (successParameters parameters returned node.span).bind fun _ =>
      (block body).bind fun _ => catchClauses rest []

theorem catchClauses (clauses : List CatchClause) (before : List String) :
    Walks allowed c (clausesVisits c.scope clauses) (clausesInventory clauses)
      (catchClauses clauses before) := by
  match clauses with
  | [] => exact pure _
  | .mk node errorName parameters body :: rest =>
    have own (u : Unit) := (catchParameters errorName parameters node.span).bind fun _ =>
      (block body).bind fun _ => catchClauses rest (errorName :: before)
    rw [Check.catchClauses]
    split
    · exact (report rfl _).after own
    · exact own ()

end

end Walks

end Check

end ContractTyping
