import ContractTyping.Check.Contract

/-!
# Checks that only make remarks

Much of a check types nothing. It works out a result from the types that it is given, and what it
has to say about them it says in diagnostics. `Check.Remarks` says this of a piece of a check by how
the piece is put together.

What holds of the few operations that are left and is kept when checks are put together holds of all
these pieces (`Remarks.advances`, `Remarks.grows`, `Remarks.follows`, `Remarks.quiet`,
`Remarks.steady`). So they are taken apart here, and not again for each of the properties of checks.
-/

namespace ContractTyping

open Check

variable {c : Context} {issue : Issue}

/-! ## Ordinary diagnostics -/

/-- Whether a diagnostic has the severity of its category and is not about inheritance cycles, which
only contracts as a whole are checked for. -/
def Diagnostic.isOrdinary (d : Diagnostic) : Bool :=
  match d.issue with
  | .inheritanceCycle _ => false
  | issue => d.severity == if issue.category == .warning then .warning else .error

/-- Whether an issue is ordinary as an error. -/
def Issue.isOrdinary (issue : Issue) : Bool := (⟨issue, .unknown, .error⟩ : Diagnostic).isOrdinary

theorem Context.requireFeature_ordinary {feature : Feature} {available : EvmVersion → Bool}
    (refused : c.requireFeature feature available = .error issue) : issue.isOrdinary := by
  unfold requireFeature at refused
  split at refused <;> cases refused
  rfl

/-- Whether two contexts have the same rules for types: settings, and structs to be used alike. -/
structure Context.SameRules (c c' : Context) : Prop where
  settings : c'.settings = c.settings
  abiCoder : c'.abiCoder = c.abiCoder
  isEncodable : c'.structs.isEncodable = c.structs.isEncodable
  isLegacyEncodable : c'.structs.isLegacyEncodable = c.structs.isLegacyEncodable
  containsMapping : c'.structs.containsMapping = c.structs.containsMapping

namespace Check

theorem encodingIssue?_ordinary {packed : Bool} {argument : Ty}
    (found : encodingIssue? c packed argument = some issue) : issue.isOrdinary := by
  unfold encodingIssue? at found
  split at found
  · repeat' split at found
    all_goals cases found
    all_goals rfl
  · split at found
    · cases found
    · obtain ⟨encoded, -, found⟩ := Option.bind_eq_some_iff.mp found
      repeat' split at found
      all_goals cases found
      all_goals rfl

theorem setOption_ordinary {f : FunctionTy} {name : String}
    (refused : setOption c f name = .error issue) : issue.isOrdinary := by
  simp only [setOption, Bind.bind, Except.bind] at refused
  repeat' split at refused
  all_goals cases refused
  all_goals first | rfl | exact Context.requireFeature_ordinary ‹_›

theorem crossingIssue?_ordinary {t : Ty} {isLibrary : Bool} {crossing : Crossing}
    (found : crossingIssue? c t isLibrary crossing = some issue) : issue.isOrdinary := by
  unfold crossingIssue? at found
  repeat' split at found
  all_goals cases found
  all_goals rfl

/-! ## How remarks are made -/

/-- A check that types nothing, and whose diagnostics are ordinary. It may ask for the rules of its
context, and it may look at what has been typed or declared and fail where something is missing, if
it is allowed to. -/
inductive Remarks (asks looks : Prop) : {α : Type} → Check α → Prop
  | pure {α : Type} (a : α) : Remarks asks looks (pure a)
  | bind {α β : Type} {m : Check α} {f : α → Check β} (first : Remarks asks looks m)
      (next : ∀ a, Remarks asks looks (f a)) : Remarks asks looks (m >>= f)
  | record {issue : Issue} {span : Span} {severity : Severity}
      (ordinary : (⟨issue, span, severity⟩ : Diagnostic).isOrdinary) :
      Remarks asks looks (record issue span severity)
  | ask {β : Type} {f : Context → Check β} (allowed : asks)
      (same : ∀ c c' : Context, c.SameRules c' → f c' = f c)
      (next : ∀ c, Remarks asks looks (f c)) : Remarks asks looks (read >>= f)
  | structMembers (allowed : asks) (id : NodeId) (location : DataLocation) :
      Remarks asks looks (structMembers id location)
  | look {β : Type} {f : Context → Check β} (allowed : looks)
      (same : ∀ c c' : Context, c'.scope = c.scope → c'.declarations = c.declarations → f c' = f c)
      (next : ∀ c, Remarks asks looks (f c)) : Remarks asks looks (read >>= f)
  | expression? (allowed : looks) (id : NodeId) : Remarks asks looks (expression? id)
  | fail {α : Type} (allowed : looks) (fault : Fault) : Remarks asks looks (fail fault : Check α)

namespace Remarks

variable {α β : Type} {asks looks : Prop}
variable (f : FunctionTy) (t : Ty) (arguments : Arguments) (context : CallContext)
  (span : Span) (e : Expr)

theorem report (ordinary : issue.isOrdinary) (span : Span) :
    Remarks asks looks (report issue span) :=
  record ordinary

theorem warn {span : Span} (ordinary : (⟨issue, span, .warning⟩ : Diagnostic).isOrdinary) :
    Remarks asks looks (warn issue span) :=
  record ordinary

theorem reject (ordinary : issue.isOrdinary) (span : Span) :
    Remarks asks looks (reject issue span) :=
  (report ordinary span).bind fun _ => pure _

theorem mapM {f : α → Check β} {xs : List α} (each : ∀ x ∈ xs, Remarks asks looks (f x)) :
    Remarks asks looks (xs.mapM f) := by
  induction xs with
  | nil => exact pure []
  | cons x rest ih =>
    obtain ⟨first, others⟩ := List.forall_mem_cons.mp each
    rw [List.mapM_cons]
    exact first.bind fun y => (ih others).bind fun ys => pure (y :: ys)

theorem forM {f : α → Check PUnit} {xs : List α} (each : ∀ x ∈ xs, Remarks asks looks (f x)) :
    Remarks asks looks (xs.forM f) := by
  induction xs with
  | nil => exact pure _
  | cons x rest ih =>
    obtain ⟨first, others⟩ := List.forall_mem_cons.mp each
    exact first.bind fun _ => ih others

theorem requireConvertible (received expected : Ty) (span : Span) :
    Remarks asks looks (requireConvertible received expected span) := by
  unfold Check.requireConvertible
  split
  · exact pure _
  · exact report rfl _

/-! ## Assignments -/

theorem reportFault (fault : Option AssignmentFault) (span : Span) :
    Remarks asks looks (reportFault fault span) := by
  unfold Check.reportFault
  split
  · exact report rfl _
  · exact pure _

theorem requireAssignable_of_ne_tuple {e : Expr}
    (shape : ∀ node components isInlineArray, e ≠ .tuple node components isInlineArray)
    (ordinary : Bool) : Remarks asks True (requireAssignable ordinary e) := by
  rw [requireAssignable]
  · refine (expression? trivial _).bind fun found => ?_
    split
    · split
      · exact pure _
      · split
        · refine look trivial (fun c c' scope declarations => ?_) fun _ => (pure _).bind fun _ =>
            reportFault _ _
          rw [identifierFault?, identifierFault?, scope, declarations]
        · exact (expression? trivial _).bind fun _ => (pure _).bind fun _ => reportFault _ _
        · exact (expression? trivial _).bind fun _ => (pure _).bind fun _ => reportFault _ _
        · exact (pure _).bind fun _ => reportFault _ _
    · exact fail trivial _
  · exact fun node components isInlineArray equal => shape _ _ _ equal

mutual

theorem requireAssignable (ordinary : Bool) (e : Expr) :
    Remarks asks True (requireAssignable ordinary e) := by
  match e with
  | .tuple node components isInlineArray =>
    refine (expression? trivial _).bind fun found => ?_
    split
    · split
      · exact pure _
      · split
        · exact report rfl _
        · exact requireComponents ordinary components
    · exact fail trivial _
  | .identifier .. | .elementaryType .. | .literal .. | .unary .. | .binary .. | .assignment ..
  | .conditional .. | .call .. | .callOptions .. | .create .. | .await .. | .member .. | .index ..
  | .slice .. =>
    refine requireAssignable_of_ne_tuple ?_ ordinary
    exact fun _ _ _ => nofun

theorem requireComponents (ordinary : Bool) (components : List (Option Expr)) :
    Remarks asks True (requireComponents ordinary components) := by
  match components with
  | [] => exact pure _
  | none :: rest => exact requireComponents ordinary rest
  | some e :: rest =>
    exact (requireAssignable ordinary e).bind fun _ => requireComponents ordinary rest

end

theorem evaluate : Remarks asks True (evaluate e) := by
  refine look trivial (fun c c' _ declarations => ?_) fun c => ?_
  · rw [declarations]
  · cases c.declarations.evaluate e with
    | error fault => exact fail trivial fault
    | ok value => exact pure value

theorem storagePath (steps : List PathStep) : Remarks asks True (Check.storagePath steps e) := by
  fun_induction Check.storagePath steps e with
  | case1 steps _ base name ih => exact ih
  | case2 steps node base next index ih => exact (evaluate _).bind ih
  | case3 steps node base next ih => exact (pure _).bind ih
  | case4 steps node inner ih => exact ih
  | case5 steps node name target overloads =>
    refine look trivial (fun c c' _ declarations => ?_) fun c => ?_
    · rw [declarations]
    split
    · exact pure _
    · refine (expression? trivial _).bind fun found => ?_
      split <;> exact pure _
  | case6 => exact pure _

theorem targetComponents (components : List (Option Expr)) (sources : List (Option Ty)) :
    Remarks asks True (targetComponents components sources) := by
  induction components generalizing sources with
  | nil => exact pure _
  | cons slot rest ih =>
    cases slot with
    | none => exact ih _
    | some e =>
      have first (source : Option Ty) : Remarks asks True (targetComponent e source) := by
        refine (expression? trivial _).bind fun found => ?_
        split
        · exact (storagePath e []).bind fun _ => pure _
        · exact fail trivial _
      exact (first _).bind fun _ => (ih _).bind fun _ => pure _

theorem guardStorage (target : Expr) (source : Ty) (span : Span) :
    Remarks asks True (guardStorage target source span) := by
  unfold Check.guardStorage
  split
  · refine (targetComponents _ _).bind fun found => ?_
    split
    · exact warn rfl
    · exact pure _
  · exact pure _

theorem assignTuple (isCompound : Bool) (components : List (Option Ty)) (target source : Expr)
    (right : Ty) (span : Span) :
    Remarks asks True (assignTuple isCompound components target source right span) := by
  unfold Check.assignTuple
  dsimp only
  split
  · exact report rfl _
  · split
    · exact report rfl _
    · split
      · exact report rfl _
      · exact guardStorage _ _ _

/-! ## Passing arguments -/

theorem passPositional (types parameters : List Ty) (spans : List Span) :
    Remarks asks looks (passPositional context span types parameters spans) := by
  induction types generalizing parameters spans with
  | nil => exact pure _
  | cons t types ih =>
    cases parameters with
    | nil => exact pure _
    | cons parameter parameters =>
      unfold Check.passPositional
      split
      · exact ih _ _
      · exact (report rfl _).bind fun _ => ih _ _

theorem passNamed (parameters : List Ty) (parameterNames names : List String) (types : List Ty)
    (spans : List Span) (before : List String) :
    Remarks asks looks
      (passNamed context span parameters parameterNames names types spans before) := by
  induction names generalizing types spans before with
  | nil => exact pure _
  | cons name names ih =>
    cases types with
    | nil => exact pure _
    | cons t types =>
      have rest :
        ∀ _ : Unit, Remarks asks looks (Check.passNamed context span parameters parameterNames
        names types spans.tail (name :: before)) := fun _ => ih _ _ _
      unfold Check.passNamed
      split
      · exact (report rfl _).bind rest
      · split
        · exact (report rfl _).bind rest
        · split
          · split
            · exact rest ()
            · exact (report rfl _).bind rest
          · exact rest ()

theorem passArguments (parameters : List Ty) (parameterNames : List String) (arguments : Arguments)
    (span : Span) :
    Remarks asks looks (passArguments context parameters parameterNames arguments span) := by
  unfold Check.passArguments
  split
  · exact report rfl _
  · split
    · exact passPositional _ _ _ _ _
    · exact passNamed _ _ _ _ _ _ _ _

theorem requireNames (node : NodeId) (names values : Nat) :
    Remarks asks True (requireNames node names values) := by
  unfold Check.requireNames
  split
  · exact fail trivial _
  · exact pure _

/-! ## Calls -/

theorem encodeArguments (packed : Bool) (span : Span) (types : List Ty) (spans : List Span) :
    Remarks True looks (encodeArguments packed span types spans) := by
  induction types generalizing spans with
  | nil => exact pure _
  | cons t rest ih =>
    refine ask trivial (fun c c' same => ?_) fun c => ?_
    · have issue : encodingIssue? c' packed t = encodingIssue? c packed t := by
        unfold encodingIssue?
        rw [same.isEncodable, same.isLegacyEncodable, same.abiCoder]
      rw [issue]
    · split
      · next found => exact (report (encodingIssue?_ordinary found) _).bind fun _ => ih _
      · exact ih _

theorem encodeCall : Remarks True looks (encodeCall f arguments span) := by
  unfold Check.encodeCall
  dsimp only
  split
  · exact report rfl _
  · split
    · exact report rfl _
    · exact (passPositional _ _ _ _ _).bind fun _ => encodeArguments _ _ _ _

theorem constructStruct (id : NodeId) (arguments : Arguments) (span : Span) :
    Remarks True looks (constructStruct t id arguments span) := by
  refine ask trivial (fun c c' same => ?_) fun c => ?_
  · rw [same.containsMapping]
  · split
    · exact (report rfl _).bind fun _ => pure _
    · exact (structMembers trivial _ _).bind fun _ => (passArguments _ _ _ _ _).bind fun _ => pure _

theorem convert (target : Ty) (arguments : Arguments) (span : Span) :
    Remarks asks looks (convert target arguments span) := by
  unfold Check.convert
  split
  · split
    · exact pure _
    · dsimp only
      split
      · exact pure _
      · exact (report rfl _).bind fun _ => pure _
  · exact (report rfl _).bind fun _ => pure _

theorem metaTypeOf : Remarks asks looks (metaTypeOf arguments span) := by
  unfold Check.metaTypeOf
  split
  · exact pure _
  · exact pure _
  · exact pure _
  · exact reject rfl _
  · exact reject rfl _

theorem decodedType : Remarks True looks (decodedType t span) := by
  refine ask trivial (fun c c' same => ?_) fun c => ?_
  · rw [same.isEncodable]
  · split
    · exact pure _
    · exact reject rfl _

theorem decodeCall : Remarks True looks (decodeCall arguments span) := by
  unfold Check.decodeCall
  split
  · dsimp only
    split
    case' isFalse => refine (report rfl _).bind fun _ => ?_
    all_goals
      split
      · exact pure _
      · split
        · exact reject rfl _
        · exact (mapM fun actual _ => decodedType actual _).bind fun _ => pure _
  · exact reject rfl _
  · exact reject rfl _

theorem callFunction : Remarks True looks (callFunction f arguments span) := by
  refine (passArguments _ _ _ _ _).bind fun _ => ?_
  split
  · refine ask trivial (fun c c' same => ?_) fun c => ?_
    · rw [Context.requireFeature, Context.requireFeature, same.settings]
    · split
      · next refused =>
        exact (report (Context.requireFeature_ordinary refused) _).bind fun _ => pure _
      · exact pure _
  · exact pure _

theorem call (emitted : Bool) (span : Span) :
    Remarks True looks (call f arguments emitted span) := by
  unfold Check.call
  split
  · exact (encodeCall _ _ _).bind fun _ => pure _
  · exact (encodeCall _ _ _).bind fun _ => pure _
  · exact (encodeCall _ _ _).bind fun _ => pure _
  · exact (encodeCall _ _ _).bind fun _ => pure _
  · exact decodeCall _ _
  · exact metaTypeOf _ _
  · split
    · exact callFunction _ _ _
    · exact (report rfl _).bind fun _ => callFunction _ _ _
  · exact (warn rfl).bind fun _ => callFunction _ _ _
  · exact callFunction _ _ _

theorem callType (callee : Ty) (arguments : Arguments) (emitted : Bool) (span : Span) :
    Remarks True looks (callType callee arguments emitted span) := by
  unfold Check.callType
  split
  · exact pure _
  · exact pure _
  · exact constructStruct _ _ _ _
  · exact convert _ _ _
  · exact call _ _ _ _
  · exact reject rfl _

theorem setOptions (options : List (String × Ty × Span)) (before : List String) :
    Remarks True looks (setOptions f options before) := by
  induction options generalizing f before with
  | nil => exact pure _
  | cons option rest ih =>
    obtain ⟨name, t, span⟩ := option
    unfold setOptions
    split
    · exact (report rfl _).bind fun _ => ih _ _
    · refine ask trivial (fun c c' same => ?_) fun c => ?_
      · have option : setOption c' f name = setOption c f name := by
          unfold setOption Context.requireFeature
          rw [same.settings]
        rw [option]
      · split
        · next refused => exact (report (setOption_ordinary refused) _).bind fun _ => ih _ _
        · exact (requireConvertible _ _ _).bind fun _ => ih _ _

theorem callOptionsType (callee : Ty) (options : List (String × Ty × Span)) (span : Span) :
    Remarks True looks (callOptionsType callee options span) := by
  unfold Check.callOptionsType
  split
  · exact pure _
  · split
    · exact (setOptions _ _ _).bind fun _ => pure _
    · exact reject rfl _
  · exact reject rfl _

/-! ## Single expressions -/

theorem unaryType (op : UnaryOp) (operand : Ty) (span : Span) :
    Remarks asks looks (unaryType op operand span) := by
  unfold Check.unaryType
  split
  · exact pure _
  · split
    · exact pure _
    · exact reject rfl _

theorem binaryType (op : BinaryOp) (left right : Ty) (span : Span) :
    Remarks asks looks (binaryType op left right span) := by
  unfold Check.binaryType
  split
  · exact pure _
  · split
    · exact pure _
    · exact reject rfl _

theorem conditionalType (yes no : Ty) (span : Span) :
    Remarks asks looks (conditionalType yes no span) := by
  unfold Check.conditionalType
  split
  · exact pure _
  · split
    · exact pure _
    · exact reject rfl _

theorem requireBelow (index : Ty) (length : Option Nat) (span : Span) :
    Remarks asks looks (requireBelow index length span) := by
  unfold Check.requireBelow
  split
  · exact report rfl _
  · exact pure _

theorem arrayTypeType (actual : Ty) (length : Option Nat) (isTarget : Bool) (span : Span) :
    Remarks asks looks (arrayTypeType actual length isTarget span) := by
  unfold Check.arrayTypeType
  split
  · exact (report rfl _).bind fun _ => pure _
  · exact pure _

theorem elementType (base index : Ty) (span : Span) :
    Remarks asks looks (elementType base index span) := by
  unfold Check.elementType
  split
  · exact reject rfl _
  · exact pure _
  · exact (requireBelow _ _ _).bind fun _ => pure _
  · exact pure _
  · exact (requireBelow _ _ _).bind fun _ => pure _
  · exact pure _
  · exact reject rfl _

theorem sliceType (base : Ty) (span : Span) : Remarks asks looks (sliceType base span) := by
  unfold Check.sliceType
  split
  · exact pure _
  · exact pure _
  · exact pure _
  · exact reject rfl _

theorem awaitType (handle : Ty) (span : Span) : Remarks asks looks (awaitType handle span) := by
  unfold Check.awaitType
  split
  · exact pure _
  · exact pure _
  · exact reject rfl _

theorem inlineArrayType (length : Nat) (found : Option (Option Ty × Bool)) (span : Span) :
    Remarks asks looks (inlineArrayType length found span) := by
  unfold Check.inlineArrayType
  split
  · exact reject rfl _
  · exact pure _
  · exact pure _
  · exact reject rfl _

/-! ## Variables and statements -/

theorem requireCrossing (isLibrary : Bool) (crossing : Crossing) (span : Span) :
    Remarks True looks (requireCrossing t isLibrary crossing span) := by
  refine ask trivial (fun c c' same => ?_) fun c => ?_
  · rw [crossingIssue?, crossingIssue?, same.isEncodable, same.isLegacyEncodable, same.abiCoder]
  · split
    · next found => exact report (crossingIssue?_ordinary found) _
    · exact pure _

theorem requireParameter (role : VariableRole) (t : Ty) (span : Span) :
    Remarks True looks (requireParameter role t span) := by
  unfold Check.requireParameter
  split
  · split
    · exact requireCrossing _ _ _ _
    · exact pure _
  · exact pure _

theorem calleeKind : Remarks asks True (calleeKind? e) := by
  unfold calleeKind?
  split
  · refine (expression? trivial _).bind fun found => ?_
    split <;> exact pure _
  · exact pure _

theorem matchReturn (expected : List Ty) (actual : Ty) (value : Expr) (span : Span) :
    Remarks asks looks (matchReturn expected actual value span) := by
  unfold Check.matchReturn
  split
  · exact report rfl _
  · exact requireConvertible _ _ _
  · split
    · exact report rfl _
    · exact requireConvertible _ _ _
  · exact report rfl _

theorem requireInitial (declared : List (Option (Variable × Ty))) :
    Remarks asks looks (requireInitial declared) := by
  refine forM fun slot _ => ?_
  obtain ⟨v, t⟩ := slot
  dsimp only
  split
  · exact report rfl _
  · split
    · exact report rfl _
    · exact pure _

theorem matchInitial (declared : List (Option (Variable × Ty))) (values : List (Option Ty))
    (initial : Expr) : Remarks asks looks (matchInitial declared values initial) := by
  refine forM fun pair _ => ?_
  obtain ⟨slot, value⟩ := pair
  dsimp only
  split
  · exact requireConvertible _ _ _
  · exact pure _

end Remarks

end Check

end ContractTyping
