import ContractTyping.Proofs.Member.Basic
import ContractTyping.Proofs.Passing.Unit

/-!
# Writes to constants

What is written is the last step of a path of members and elements, and only this step is looked at.
In a check that passes without an invalid type, a constant is never written by its name. A constant
of a contract has a value type or a byte array type, and no step from such a type leads back to data
that can be written, but for the bytes of a byte array (`Ty.isPlain`): all that is written through a
constant of a contract are single bytes of the constant itself, or of the code of an address
(`constant_written_only_by_byte`).
-/

namespace ContractTyping

open Check List Option

variable {c : Context} {σ τ : Findings} {base : Ty} {name : String} {span : Span} {t : Ty}
  {arguments : Option Arguments}
variable {members : List Member} {t' : Ty}

/-! ## Targets -/

mutual

/-- What is written along with an expression: of a tuple, each of its components. -/
def Expr.leaves : Expr → List Expr
  | .tuple _ components false => slotLeaves components
  | e => [e]

def slotLeaves : List (Option Expr) → List Expr
  | [] => []
  | none :: rest => slotLeaves rest
  | some e :: rest => e.leaves ++ slotLeaves rest

end

/-- What an expression writes to: targets of an assignment or of an operator that changes one. -/
def Expr.written : Expr → List Expr
  | .assignment _ _ left _ => left.leaves
  | .unary _ op _ operand => if op.isModifying then operand.leaves else []
  | _ => []

/-- Where a path of members and elements starts. -/
def Expr.root : Expr → Expr
  | .member _ base _ | .index _ base _ => base.root
  | .tuple _ [some e] false => e.root
  | e => e

/-- An expression without the parentheses around it. -/
def Expr.bare : Expr → Expr
  | .tuple _ [some e] false => e.bare
  | e => e

/-- Whether a path can only be a byte array as the start itself or as the code of an address. -/
def Annotations.IsBytesFrom (a : Annotations) (start e : Expr) : Prop :=
  e.bare = start ∨ ∃ node base payable, e.bare = .member node base "code" ∧
    a.expression? base.id = some (.address payable)

/-- Whether a target is a single byte of such a byte array outside of calldata. -/
def Annotations.IsByteFrom (a : Annotations) (start w : Expr) : Prop :=
  ∃ node base index place, w = .index node base index ∧
    a.expression? base.id = some (.byteArray false place) ∧ place.location ≠ .calldata ∧
      a.IsBytesFrom start base

/-- Whether no data behind a type can be written in parts, but for the bytes of a byte array. -/
def Ty.isPlain : Ty → Bool
  | overloaded _ => true
  | t => t.isValueType || t.isByteArray

namespace Ty

variable {t : Ty}

theorem isPlain_of_isValueType (isValue : t.isValueType = true) : t.isPlain = true := by
  cases t <;> first | rfl | cases isValue

theorem isByteArray_of_isValueType (isValue : t.isValueType = true) : t.isByteArray = false := by
  cases t <;> first | rfl | cases isValue

theorem isInvalid_of_isPlain (plain : t.isPlain = true) : t.isInvalid = false := by
  cases t <;> first | rfl | cases plain

end Ty

/-! ## Members of plain types -/

/-- Whether a member is a function. -/
def Member.IsFunction (m : Member) : Prop := ∃ f : FunctionTy, m.type = f.toTy

theorem Member.Offered.isFunction {unit : SourceUnit} {m : Member} (offered : m.Offered unit) :
    m.IsFunction := by
  obtain ⟨d, -, -, stands⟩ := offered
  obtain ⟨f, isFunction, -⟩ := stands.function
  exact ⟨f, isFunction⟩

theorem Check.declaredMembers_function {unit : SourceUnit} (known : c.declarations = .ofUnit unit)
    (plain : base.isPlain = true) (run : declaredMembers base name span c σ = .ok (members, τ)) :
    ∀ m ∈ members, m.IsFunction := by
  unfold declaredMembers at run
  split at run
  · cases plain
  · exact fun m mem => (contractMembers_offered known run m mem).isFunction
  · cases plain
  · cases run
    exact forall_mem_nil _

/-- What a step from a plain type leads to. Byte arrays are found as the code of an address only. -/
def Ty.FollowsMember (base : Ty) (name : String) (t : Ty) : Prop :=
  t.isPlain = true ∧ (t.isByteArray = true → name = "code" ∧ ∃ payable, base = .address payable)

theorem Ty.FollowsMember.function (base : Ty) (name : String) (f : FunctionTy) :
    base.FollowsMember name f.toTy :=
  ⟨rfl, nofun⟩

theorem Ty.FollowsMember.ofValue (isValue : t.isValueType = true) : base.FollowsMember name t := by
  refine ⟨isPlain_of_isValueType isValue, fun isBytes => ?_⟩
  rw [isByteArray_of_isValueType isValue] at isBytes
  cases isBytes

namespace BuiltinMember

variable {context : Context}

theorem gated_ok {feature : Feature} {available : EvmVersion → Bool}
    (found : gated context feature available t = some (.ok t')) : t' = t := by
  unfold gated Context.requireFeature at found
  split at found <;> cases found
  rfl

theorem ofAddress_follows {payable : Bool} (found : ofAddress context payable name = some (.ok t)) :
    (Ty.address payable).FollowsMember name t := by
  unfold ofAddress at found
  split at found
  · cases found; exact .ofValue rfl
  · cases found; exact ⟨rfl, fun _ => ⟨rfl, _, rfl⟩⟩
  · cases gated_ok found; exact .ofValue rfl
  · split at found <;> cases found
    exact .ofValue rfl
  · split at found <;> cases found
    exact .ofValue rfl
  · cases found; exact .ofValue rfl
  · cases found; exact .ofValue rfl
  · cases gated_ok found; exact .ofValue rfl
  · cases found

theorem ofArray_follows {array : Ty} (found : ofArray arguments array name = some (.ok t)) :
    array.FollowsMember name t := by
  unfold ofArray at found
  extract_lets growing at found
  clear_value growing
  split at found
  · cases found; exact .ofValue rfl
  · cases found; exact .ofValue rfl
  · split at found <;> cases found <;> exact .ofValue rfl
  · cases found

theorem ofFunction_follows {kind : CallKind} (found : ofFunction kind name = some (.ok t)) :
    base.FollowsMember name t := by
  unfold ofFunction at found
  split at found
  · split at found <;> cases found
    exact .ofValue rfl
  · split at found <;> cases found
    exact .ofValue rfl
  · split at found <;> cases found
  · split at found <;> cases found
  · cases found

/-- What the language gives to a plain type is plain. -/
theorem of_follows (plain : base.isPlain = true)
    (found : of context arguments base name = some (.ok t)) : base.FollowsMember name t := by
  unfold of at found
  split at found
  · exact ofAddress_follows found
  · exact ofArray_follows found
  · exact ofArray_follows found
  · split at found <;> cases found
    exact .ofValue rfl
  · exact ofFunction_follows found
  · cases plain
  · cases plain
  · cases found

end BuiltinMember

namespace Ending

variable {E : Ending} {scope : Scope}

open Check (Advances Remarks)
variable {v : Variable} {target : NodeId}
variable {e w : Expr} {demand : Demand}

/-- One member is taken, or several that go by one name. -/
theorem Ends.selectMember (passes : E.Passes) (functions : ∀ m ∈ members, m.IsFunction)
    (ends : E.Ends scope (selectMember members base name arguments span) t) :
    base.FollowsMember name t := by
  unfold Check.selectMember at ends
  split at ends
  · exact absurd ends (not_reject passes)
  · cases ends.pure
    obtain ⟨f, isFunction⟩ := functions _ mem_cons_self
    rw [isFunction]
    exact .function base name f
  · have selected := ends.read.orReject passes
    rcases Candidate.mem_of_select selected with ⟨candidate, mem, rfl⟩ | ⟨several, -, rfl⟩
    · obtain ⟨m, inMembers, isCandidate⟩ := mem_filterMap.mp mem
      obtain ⟨declaration, -, rfl⟩ := map_eq_some_iff.mp isCandidate
      obtain ⟨f, isFunction⟩ := functions m inMembers
      rw [isFunction]
      exact .function base name f
    · exact ⟨rfl, nofun⟩

theorem Ends.memberType (passes : E.Passes) (plain : base.isPlain = true)
    (ends : E.Ends scope (memberType base name arguments span) t) : base.FollowsMember name t := by
  unfold Check.memberType at ends
  rw [Ty.isInvalid_of_isPlain plain] at ends
  replace ends := ends.read
  split at ends
  · next found =>
    rw [ends.orReject passes] at found
    exact BuiltinMember.of_follows plain found
  · obtain ⟨members, declared, ends⟩ := ends.bind (.declaredMembers _ _ _) fun _ => by
      split
      · exact (Advances.pure _).bind fun _ => .selectMember _ _ _ _ _
      · exact Advances.directives.bind fun _ => (Advances.attachedFunctions _ _ _ _).bind
          fun _ => .selectMember _ _ _ _ _
    obtain ⟨σ, τ, -, run, -⟩ := declared
    have declaredFunctions := declaredMembers_function rfl plain run
    split at ends
    · obtain ⟨attached, none, ends⟩ := ends.bind (.pure _) fun _ => .selectMember _ _ _ _ _
      cases none.pure
      rw [append_nil] at ends
      exact ends.selectMember passes declaredFunctions
    · obtain ⟨attached, ⟨σ, τ, -, run, -⟩, ends⟩ := ends.bind (.attachedFunctions _ _ _ _)
        fun _ => .selectMember _ _ _ _ _
      exact ends.selectMember passes (forall_mem_append.mpr
        ⟨declaredFunctions, fun m mem => ((attachedFunctions_ok rfl run).2 m mem).isFunction⟩)

/-- An element of a plain type is a byte. -/
theorem Ends.elementType (passes : E.Passes) {index : Ty} (plain : base.isPlain = true)
    (ends : E.Ends scope (elementType base index span) t) :
    t = .fixedBytes 1 ∧ (base.isByteArray = true → ∃ place, base = .byteArray false place) := by
  unfold Check.elementType at ends
  split at ends
  · exact absurd ends (not_reject passes)
  · exact ⟨ends.pure, fun _ => ⟨_, rfl⟩⟩
  · cases plain
  · cases plain
  · obtain ⟨_, -, ends⟩ := ends.bind (Remarks.requireBelow _ _ _).advances fun _ => .pure _
    exact ⟨ends.pure, nofun⟩
  · cases plain
  · exact absurd ends (not_reject passes)

theorem Ends.index (passes : E.Passes) {node : Node} {base : Expr} {index : Option Expr}
    {demand : Demand}
    {t : Ty} (ends : E.Ends scope (expression (.index node base index) demand) t) :
    ∃ baseType, E.Ends scope (expression base {}) baseType ∧ (baseType.isPlain = true →
      t = .fixedBytes 1 ∧
      (baseType.isByteArray = true → ∃ place, baseType = .byteArray false place)) := by
  cases index with
  | none =>
    obtain ⟨baseType, visit, ends⟩ := ends.bind (.expression _ _) fun _ => by
      split
      · exact (Remarks.arrayTypeType _ _ _ _).advances.thenAnnotate _
      · split
        · exact (Advances.reject rfl _).thenAnnotate _
        · exact (Remarks.elementType _ _ _).advances.thenAnnotate _
    refine ⟨baseType, visit, fun plain => ?_⟩
    split at ends
    · cases plain
    · split at ends
      · exact absurd ends.thenAnnotate (not_reject passes)
      · exact ends.thenAnnotate.elementType passes plain
  | some index =>
    obtain ⟨baseType, visit, ends⟩ := ends.bind (.expression _ _) fun baseType =>
      (Advances.expression _ _).bind fun indexType => by
        split
        · refine (Advances.lengthOfIndex _ _).bind fun length => ?_
          split
          · exact .annotate _ _
          · exact (Remarks.arrayTypeType _ _ _ _).advances.thenAnnotate _
        · exact (Remarks.requireConvertible _ _ _).advances.bind fun _ =>
            (Remarks.elementType _ _ _).advances.thenAnnotate _
        · exact (Remarks.elementType _ _ _).advances.thenAnnotate _
    refine ⟨baseType, visit, fun plain => ?_⟩
    obtain ⟨indexType, -, ends⟩ := ends.bind (.expression _ _) fun indexType => by
      split
      · cases plain
      · exact (Remarks.requireConvertible _ _ _).advances.bind fun _ =>
          (Remarks.elementType _ _ _).advances.thenAnnotate _
      · exact (Remarks.elementType _ _ _).advances.thenAnnotate _
    split at ends
    · cases plain
    · obtain ⟨_, -, ends⟩ := ends.bind (Remarks.requireConvertible _ _ _).advances fun _ =>
        (Remarks.elementType _ _ _).advances.thenAnnotate _
      exact ends.thenAnnotate.elementType passes plain
    · exact ends.thenAnnotate.elementType passes plain

/-! ## Paths -/

/-- All steps from a plain start are plain. -/
theorem path_plain (passes : E.Passes) {start : Expr}
    (plain : ∀ scope demand t, E.Ends scope (expression start demand) t → t.isPlain = true)
    (e : Expr) (isRoot : e.root = start) {demand : Demand} {t : Ty}
    (ends : E.Ends scope (expression e demand) t) :
    t.isPlain = true ∧ (t.isByteArray = true → E.found.annotations.IsBytesFrom start e) := by
  match e with
  | .member node base name =>
    obtain ⟨baseType, visit, ends⟩ := ends.bind (.expression _ _) fun _ =>
      (Advances.memberType _ _ _ _).thenAnnotate _
    obtain ⟨isPlain, isCode⟩ :=
      ends.thenAnnotate.memberType passes (path_plain passes plain base isRoot visit).1
    refine ⟨isPlain, fun isBytes => ?_⟩
    obtain ⟨rfl, payable, rfl⟩ := isCode isBytes
    exact .inr ⟨node, base, payable, rfl, visit.recorded⟩
  | .index node base index =>
    obtain ⟨baseType, visit, isByte⟩ := ends.index passes
    rw [(isByte (path_plain passes plain base isRoot visit).1).1]
    exact ⟨rfl, nofun⟩
  | .tuple node [some inner] false =>
    obtain ⟨types, visits, ends⟩ := ends.bind (.components _ _ _) fun _ => .annotate _ _
    cases ends.annotate
    obtain ⟨type, visit, visits⟩ := visits.bind (.expression _ _) fun _ =>
      (Advances.components _ _ _).bind fun _ => .pure _
    obtain ⟨rest, none, visits⟩ := visits.bind (.components _ _ _) fun _ => .pure _
    cases none.pure
    cases visits.pure
    exact path_plain passes plain inner isRoot visit
  | .identifier .. | .elementaryType .. | .literal .. | .unary .. | .binary .. | .assignment ..
  | .conditional .. | .call .. | .callOptions .. | .create .. | .await .. | .slice ..
  | .tuple _ [] false
  | .tuple _ [none] false =>
    cases isRoot
    exact ⟨plain _ _ _ ends, fun _ => .inl rfl⟩
  | .tuple _ _ true | .tuple _ (_ :: _ :: _) false =>
    rw [Expr.root] at isRoot
    · cases isRoot
      exact ⟨plain _ _ _ ends, fun _ => .inl (by rw [Expr.bare]; nofun)⟩
    all_goals nofun

/-! ## What can be written -/

/-- Whether nothing was found against writing to an expression. -/
def Assigned (E : Ending) (scope : Scope) : Expr → Prop
  | .identifier _ _ target _ => identifierFault? (E.context scope) target = none
  | .member _ base name => memberFault? (E.found.expression? base.id) name = none
  | .index _ base _ => elementFault? (E.found.expression? base.id) = none
  | _ => False

theorem reportFault_none (passes : E.Passes) {fault : Option AssignmentFault}
    (run : reportFault fault span (E.context scope) σ = .ok ((), τ)) (later : τ.Extends E.found) :
    fault = none := by
  cases fault with
  | none => rfl
  | some fault =>
    cases run
    cases passes.errors _ (later.diagnostics (mem_append_right _ (mem_singleton_self _)))

/-- What would be a fault of a type that is missing was none of one that is there. -/
theorem fault_none_later (before : σ.Extends τ) (fault : Option Ty → Option AssignmentFault)
    (isFault : fault none ≠ none) {id : NodeId} (free : fault (σ.expression? id) = none) :
    fault (τ.expression? id) = none := by
  cases known : σ.expression? id with
  | none =>
    rw [known] at free
    exact absurd free isFault
  | some t =>
    rw [known] at free
    rwa [before.expression _ _ known]

theorem Ends.assigned (passes : E.Passes) (valid : E.Valid) {ordinary : Bool}
    (shape : ∀ node components isInlineArray, e ≠ .tuple node components isInlineArray)
    (ends : E.Ends scope (requireAssignable ordinary e) ()) : E.Assigned scope e := by
  obtain ⟨σ, τ, -, run, later⟩ := ends
  have before : σ.Extends E.found :=
    ((Remarks.requireAssignable ordinary e).advances _ σ () τ run).toExtends.trans later
  rw [requireAssignable] at run
  · obtain ⟨found, σ', asked, run⟩ := bind_ok.mp run
    rw [expression?_run, Except.ok.injEq, Prod.mk.injEq] at asked
    obtain ⟨asked, rfl⟩ := asked
    split at run
    · next t =>
      rw [valid _ _ (before.expression _ _ asked)] at run
      cases e with
      | identifier node name target overloads =>
        exact (or_eq_none_iff.mp (reportFault_none passes run later)).1
      | member node base name =>
        have free := (or_eq_none_iff.mp (reportFault_none passes run later)).1
        exact fault_none_later before (memberFault? · name) (some_ne_none _) free
      | index node base index =>
        have free := (or_eq_none_iff.mp (reportFault_none passes run later)).1
        exact fault_none_later before elementFault? (some_ne_none _) free
      | tuple => exact absurd rfl (shape _ _ _)
      | _ =>
        have free : (some AssignmentFault.notLvalue).or (mappingFault? t ordinary) = none :=
          reportFault_none passes run later
        cases free
    · cases run
  · exact fun node components isInlineArray equal => shape _ _ _ equal

/-- The components of a tuple are written one by one. An inline array is not written. -/
theorem Ends.requireComponents (passes : E.Passes) (valid : E.Valid) {node : Node}
    {components : List (Option Expr)} {isInlineArray ordinary : Bool}
    (ends : E.Ends scope (requireAssignable ordinary (.tuple node components isInlineArray)) ()) :
    isInlineArray = false ∧ E.Ends scope (requireComponents ordinary components) () := by
  obtain ⟨σ, τ, calm, run, later⟩ := ends
  have before : σ.Extends E.found :=
    ((Remarks.requireAssignable ordinary _).advances _ σ () τ run).toExtends.trans later
  obtain ⟨found, σ', asked, run⟩ := bind_ok.mp run
  rw [expression?_run, Except.ok.injEq, Prod.mk.injEq] at asked
  obtain ⟨asked, rfl⟩ := asked
  split at run
  · rw [valid _ _ (before.expression _ _ asked)] at run
    cases isInlineArray with
    | false => exact ⟨rfl, σ, τ, calm, run, later⟩
    | true => exact absurd ⟨σ, τ, calm, run, later⟩ (not_report passes)
  · cases run

mutual

/-- Every target behind an expression that is written has been visited and can be written. -/
theorem Ends.leaves (passes : E.Passes) (valid : E.Valid) {e : Expr} {demand : Demand} {t : Ty}
    {ordinary : Bool} (visit : E.Ends scope (expression e demand) t)
    (ends : E.Ends scope (requireAssignable ordinary e) ()) :
    ∀ w ∈ e.leaves, E.Assigned scope w ∧ ∃ demand t, E.Ends scope (expression w demand) t := by
  match e with
  | .tuple node components false =>
    obtain ⟨types, visits, -⟩ := visit.bind (.components _ _ _) fun _ => .annotate _ _
    exact visits.slotLeaves passes valid (ends.requireComponents passes valid).2
  | .tuple node components true => cases (ends.requireComponents passes valid).1
  | .identifier .. | .elementaryType .. | .literal .. | .unary .. | .binary .. | .assignment ..
  | .conditional .. | .call .. | .callOptions .. | .create .. | .await .. | .member .. | .index ..
  | .slice .. =>
    exact forall_mem_singleton.mpr ⟨ends.assigned passes valid (fun _ _ _ => nofun), _, _, visit⟩

theorem Ends.slotLeaves (passes : E.Passes) (valid : E.Valid) {slots : List (Option Expr)}
    {isTarget : Bool} {span : Span} {types : List (Option Ty)} {ordinary : Bool}
    (visits : E.Ends scope (components isTarget span slots) types)
    (ends : E.Ends scope (Check.requireComponents ordinary slots) ()) :
    ∀ w ∈ slotLeaves slots, E.Assigned scope w ∧
      ∃ demand t, E.Ends scope (expression w demand) t := by
  match slots with
  | [] => exact forall_mem_nil _
  | none :: rest =>
    have others (slot : Option Ty) := (Advances.components isTarget span rest).bind fun slots =>
      .pure (slot :: slots)
    rw [components] at visits
    split at visits
    · obtain ⟨more, visits, -⟩ := visits.bind (.components _ _ _) fun _ => .pure _
      exact visits.slotLeaves passes valid ends
    · obtain ⟨_, -, visits⟩ := visits.bind ((Advances.reject rfl _).map _) others
      obtain ⟨more, visits, -⟩ := visits.bind (.components _ _ _) fun _ => .pure _
      exact visits.slotLeaves passes valid ends
  | some e :: rest =>
    obtain ⟨t, visit, visits⟩ := visits.bind (.expression _ _) fun _ =>
      (Advances.components _ _ _).bind fun _ => .pure _
    obtain ⟨others, more, -⟩ := visits.bind (.components _ _ _) fun _ => .pure _
    obtain ⟨_, first, ends⟩ := ends.bind (Remarks.requireAssignable _ _).advances fun _ =>
      (Remarks.requireComponents _ _).advances
    exact forall_mem_append.mpr ⟨visit.leaves passes valid first, more.slotLeaves passes valid ends⟩

end

/-- What an expression writes to has been visited and can be written. -/
theorem Ran.written (passes : E.Passes) (valid : E.Valid) (ran : E.Ran e) (mem : w ∈ e.written) :
    ∃ scope, E.Assigned scope w ∧ ∃ demand t, E.Ends scope (expression w demand) t := by
  obtain ⟨scope, demand, t, ends⟩ := ran
  refine ⟨scope, ?_⟩
  unfold Expr.written at mem
  split at mem
  · obtain ⟨leftType, visit, ends⟩ := ends.bind (.expression _ _) fun _ =>
      (Remarks.requireAssignable _ _).advances.bind fun _ => (Advances.expression _ _).bind fun _ =>
        (Advances.assignmentType _ _ _ _ _ _).thenAnnotate _
    obtain ⟨_, required, -⟩ := ends.bind (Remarks.requireAssignable _ _).advances fun _ =>
      (Advances.expression _ _).bind fun _ => (Advances.assignmentType _ _ _ _ _ _).thenAnnotate _
    exact visit.leaves passes valid required w mem
  · next node op _ operand =>
    split at mem
    · next modifies =>
      rw [expression, modifies] at ends
      obtain ⟨type, visit, ends⟩ := ends.bind (.expression _ _) fun _ =>
        (Remarks.requireAssignable _ _).advances.bind fun _ =>
          (Remarks.unaryType _ _ _).advances.thenAnnotate _
      obtain ⟨_, required, -⟩ := ends.bind (Remarks.requireAssignable _ _).advances fun _ =>
        (Remarks.unaryType _ _ _).advances.thenAnnotate _
      exact visit.leaves passes valid required w mem
    · cases mem
  · cases mem

/-! ## Constants of a contract -/

/-- A state variable of a contract is declared, and its value is checked for its type. -/
theorem Reached.stateVariable (reached : E.Reached) (passes : E.Passes) {c : Contract}
    (inUnit : .contract c ∈ E.unit.parts) (mem : v ∈ c.stateVariables) :
    ∃ scope t, (E.declarations.declaredType v).run = .ok (.ok t) ∧ E.found.var? v.id = some t ∧
      E.Ends scope (stateVariableValue v t) () := by
  obtain ⟨part, inParts, isVariable⟩ := mem_filterMap.mp mem
  obtain ⟨given, ends, typed⟩ := reached.contractPart passes inUnit inParts
  cases part <;> cases isVariable
  obtain ⟨t, isFirst, declare⟩ := typed v rfl
  rw [Check.contractPart, isFirst] at ends
  obtain ⟨_, value, -⟩ := ends.split (.of_walks fun _ => .stateVariableValue) fun _ =>
    .of_walks fun _ => .optionalGetter trivial
  obtain ⟨typed, recorded⟩ := declare.declareType passes
  exact ⟨_, t, typed, recorded, value⟩

theorem Ends.constantType (passes : E.Passes) (isConstant : v.isConstant = true)
    (valid : t.isInvalid = false) (ends : E.Ends scope (stateVariableValue v t) ()) :
    t.isPlain = true := by
  rw [stateVariableValue_eq] at ends
  obtain ⟨_, required, -⟩ := ends.split (.of_walks fun _ => .requireConstantType) fun _ =>
    .of_walks fun _ => .stateVariableRest
  unfold requireConstantType at required
  rw [isConstant, valid] at required
  split at required
  · exact absurd required (not_report passes)
  · next fits =>
    cases t <;> first | rfl | exact absurd rfl fits

theorem followAll_one {node : NodeId} {declaration : Declaration}
    (found : c.declarations.lookup? target = some declaration) :
    followAll node [target] c σ = .ok ([declaration], σ) := by
  unfold followAll
  rw [read_run, mapM_cons, found]
  rfl

/-- Where a constant of a contract is all that a name stands for, its type is found. -/
theorem Ends.identifier {node : Node} (declared : E.declarations.var? target = some v)
    (typed : (E.declarations.declaredType v).run = .ok (.ok t))
    (recorded : E.found.var? v.id = some t)
    (ends : E.Ends scope (expression (.identifier node name (some target) []) demand) t') :
    t' = t := by
  obtain ⟨⟨item, owner⟩, found, isVar⟩ := bind_eq_some_iff.mp declared
  cases item <;> cases isVar
  obtain ⟨σ, τ, -, run, later⟩ := ends.thenAnnotate
  have followed : followAll node.id [target] (E.context scope) σ = .ok ([⟨.var v, owner⟩], σ) :=
    followAll_one found
  have asVariable : variableType v (E.context scope) σ = .ok (t', τ) :=
    (bind_run followed).symm.trans run
  rw [variableType_run] at asVariable
  cases known : σ.var? v.id with
  | some t =>
    rw [known] at asVariable
    cases asVariable
    exact some.inj ((later.var _ _ known).symm.trans recorded)
  | none =>
    have resolved :
      Declarations.orInvalid ((E.context scope).declarations.declaredType v) = .ok t :=
      congrArg (fun result => Except.map (fun r : Except Issue Ty => r.toOption.getD .invalid)
        result) typed
    rw [known] at asVariable
    rw [resolved] at asVariable
    cases asVariable
    rfl

theorem memberFault?_isSome (plain : t.isPlain = true) (name : String) :
    memberFault? (some t) name ≠ none := by
  unfold memberFault?
  split
  · next equal => cases equal; cases plain
  · split <;> nofun
  · split <;> nofun
  · nofun

theorem elementFault?_none (plain : t.isPlain = true) (free : elementFault? (some t) = none) :
    ∃ isString place, t = .byteArray isString place ∧ place.location ≠ .calldata := by
  unfold elementFault? at free
  split at free
  · next equal =>
    cases equal
    refine ⟨_, _, rfl, fun inCalldata => ?_⟩
    rw [inCalldata] at free
    cases free
  · next equal => cases equal; cases plain
  · next equal => cases equal; cases plain
  · cases free
  · cases free

theorem identifierFault?_constant (declared : c.declarations.var? target = some v)
    (isConstant : v.isConstant = true) :
    identifierFault? c (some target) = some .constant := by
  unfold identifierFault?
  rw [bind_some, declared]
  exact if_pos isConstant

/-- What can be written through a plain start, if not the start itself, is a byte. -/
theorem Assigned.isByteFrom (passes : E.Passes) {start : Expr}
    (plain : ∀ scope demand t, E.Ends scope (expression start demand) t → t.isPlain = true)
    (isRoot : w.root = start) (differs : w ≠ start) (assigned : E.Assigned scope w)
    (ends : E.Ends scope (expression w demand) t) : E.found.annotations.IsByteFrom start w := by
  cases w with
  | member node base name =>
    obtain ⟨baseType, visit, -⟩ := ends.bind (.expression _ _) fun _ =>
      (Advances.memberType _ _ _ _).thenAnnotate _
    have isPlain := (path_plain passes plain base isRoot visit).1
    have free : memberFault? (E.found.expression? base.id) name = none := assigned
    rw [visit.recorded] at free
    exact absurd free (memberFault?_isSome isPlain name)
  | index node base index =>
    obtain ⟨baseType, visit, isByte⟩ := ends.index passes
    obtain ⟨isPlain, isBytes⟩ := path_plain passes plain base isRoot visit
    have free : elementFault? (E.found.expression? base.id) = none := assigned
    rw [visit.recorded] at free
    obtain ⟨isString, place, rfl, outside⟩ := elementFault?_none isPlain free
    obtain ⟨_, equal⟩ := (isByte isPlain).2 rfl
    cases equal
    exact ⟨node, base, index, place, rfl, visit.recorded, outside, isBytes rfl⟩
  | identifier => exact absurd isRoot differs
  | _ => cases assigned

end Ending

/-- A constant is not written by its name. Through a constant of a contract that is all its name
stands for, single bytes are written at most. -/
theorem constant_written_only_by_byte {unit : SourceUnit} {settings : Settings} {report : Report}
    (checked : check unit settings = .ok report) (passed : report.passed = true)
    (pure : ¬ report.annotations.Poisoned) {e w : Expr} (mem : e ∈ unit.inventory.nodes)
    (written : w ∈ e.written) {node : Node} {name : String} {target : NodeId}
    {overloads : List NodeId}
    {v : Variable} (isRoot : w.root = .identifier node name (some target) overloads)
    (declared : (Declarations.ofUnit unit).var? target = some v)
    (isConstant : v.isConstant = true) : w ≠ w.root ∧
      (overloads = [] → (∃ c, .contract c ∈ unit.parts ∧ v ∈ c.stateVariables) →
        report.annotations.IsByteFrom w.root w) := by
  obtain ⟨found, rfl, reached, passes⟩ := exists_reached checked passed
  have valid : (Ending.mk unit settings found).Valid := fun id t recorded =>
    Bool.eq_false_iff.mpr fun isInvalid => pure (.inl ⟨id, t, recorded, isInvalid⟩)
  have ran : (Ending.mk unit settings found).Ran e := by
    refine (reached.ran passes valid mem).resolve_right ?_
    rintro ⟨_, _, _, _, rfl⟩
    cases written
  obtain ⟨scope, assigned, demand, t, ends⟩ := ran.written passes valid written
  have declared' : (Ending.mk unit settings found).declarations.var? target = some v := declared
  have differs : w ≠ w.root := by
    intro equal
    rw [equal, isRoot] at assigned
    cases (Ending.identifierFault?_constant declared' isConstant).symm.trans assigned
  refine ⟨differs, ?_⟩
  rintro rfl ⟨c, inUnit, inContract⟩
  obtain ⟨_, tv, typed, recorded, value⟩ := reached.stateVariable passes inUnit inContract
  have isPlain := value.constantType passes isConstant
    (Bool.eq_false_iff.mpr fun isInvalid => pure (.inr ⟨v.id, tv, recorded, isInvalid⟩))
  refine assigned.isByteFrom passes (fun scope demand t visit => ?_) rfl differs ends
  rw [isRoot] at visit
  rwa [visit.identifier declared' typed recorded]

/-- A byte of a constant in parentheses. -/
def constantByte : Expr :=
  let node (id : Int64) : Node := ⟨⟨id⟩, .unknown⟩
  .index (node 20) (.tuple (node 21) [some (.identifier (node 22) "blob" (some ⟨7⟩) [])] false)
    (some (.member (node 23) (.identifier (node 24) "data" (some ⟨3⟩) []) "length"))

def constantByteWrite : Expr :=
  .assignment ⟨⟨13⟩, .unknown⟩ none constantByte
    (.identifier ⟨⟨14⟩, .unknown⟩ "first" (some ⟨5⟩) [])

/-- A contract with a constant byte array and a function that writes a byte of it. -/
def constantUnit : SourceUnit :=
  let node (id : Int64) : Node := ⟨⟨id⟩, .unknown⟩
  let var (id type : Int64) (name typeName : String) (changeability : Changeability)
      (value : Option Expr) : ContractPart :=
    .stateVariable (.mk { node := node id, name, changeability, isState := true }
      (some (.elementary (node type) typeName false)) value)
  { node := node 1
    path := "constant"
    abiCoder := none
    parts := [.contract ⟨node 2, "Store", .contract, false, [], [],
      [var 3 4 "data" "bytes" .mutable none,
        var 5 6 "first" "byte" .mutable none,
        var 7 8 "blob" "bytes" .constant (some (.identifier (node 9) "data" (some ⟨3⟩) [])),
        .function { (default : Function) with
          node := node 10, name := "write"
          body := some (.mk (node 11) [.expression (node 12) constantByteWrite] false) }]⟩] }

theorem check_constantUnit :
    ∃ report, check constantUnit {} = .ok report ∧ report.passed = true ∧
      ¬ report.annotations.Poisoned := by
  obtain ⟨report, checked, passed, expressions, vars⟩ :
      ∃ report, check constantUnit {} = .ok report ∧
      report.passed = true ∧ (∀ entry ∈ report.annotations.expressions, entry.2.isInvalid = false) ∧
        ∀ entry ∈ report.annotations.vars, entry.2.isInvalid = false :=
    exists_ok (by decide +kernel)
  exact ⟨report, checked, passed, Annotations.not_poisoned expressions vars⟩

theorem constant_written_only_by_byte_blob :
    ∃ report, check constantUnit {} = .ok report ∧ report.passed = true ∧
      ¬ report.annotations.Poisoned ∧ constantByte ≠ constantByte.root ∧
        report.annotations.IsByteFrom constantByte.root constantByte := by
  obtain ⟨report, checked, passed, pure⟩ := check_constantUnit
  obtain ⟨differs, isByte⟩ := constant_written_only_by_byte checked passed pure
    (.tail _ (.head _) : constantByteWrite ∈ constantUnit.inventory.nodes) (.head _) rfl rfl rfl
  exact ⟨report, checked, passed, pure, differs,
    isByte rfl ⟨_, .head _, .tail _ (.tail _ (.head _))⟩⟩

/-- A constant can be written. -/
theorem constant_may_be_written :
    ¬ ∀ unit settings report, check unit settings = .ok report → report.passed = true →
      ¬ report.annotations.Poisoned → ∀ e ∈ unit.inventory.nodes, ∀ w ∈ e.written,
        ∀ node name target overloads v, w.root = .identifier node name (some target) overloads →
          (Declarations.ofUnit unit).var? target = some v → v.isConstant = false := by
  intro never
  obtain ⟨report, checked, passed, pure⟩ := check_constantUnit
  have isWritten :=
    never constantUnit {} report checked passed pure constantByteWrite (.tail _ (.head _))
    constantByte (.head _) _ _ _ _ _ rfl rfl
  cases isWritten

end ContractTyping
