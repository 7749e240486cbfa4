import ContractTyping.Proofs.Effect.Expression
import ContractTyping.Proofs.Trace.Declaration

/-!
# Expressions

The type of every expression keeps to every standard, and it is recorded (`Upholds.expression`). So
the check of an expression goes on from the findings before it (`Advances.expression`), and the type
that it ends with is the one that it has recorded (`Records.expression`).
-/

namespace ContractTyping

open Check List Option

namespace Standard.Upholds

variable {S : Standard}

open Check (Remarks)

section

variable {σ : Findings}
variable {arguments : Arguments} {f : FunctionTy} {left : Ty}

/-! ## Calls -/

theorem constructStruct {t : Ty} (good : S.Good σ t) (id : NodeId) (arguments : Arguments)
    (span : Span) : S.Upholds σ (constructStruct t id arguments span) S.Good := by
  have result := (S.hereditary σ).moveTo good .memory
  refine read rfl ?_
  split
  · exact afterPure (.report rfl _) fun _ => result
  · refine (structMembers _ _).bind fun υ members later _ => ?_
    exact afterPure (.remarks (Remarks.passArguments _ _ _ _ _)) fun _ => S.later later result

theorem convert {target : Ty} (good : S.Good σ target) (arguments : Arguments) (span : Span) :
    S.Upholds σ (convert target arguments span) S.Good := by
  have result (argument : Ty) := (S.hereditary σ).conversionTarget good argument
  unfold Check.convert
  split
  · split
    · exact pure good
    · dsimp only
      split
      · exact pure (result _)
      · exact afterPure (.report rfl _) fun _ => result _
  · exact afterPure (.report rfl _) fun _ => good

theorem metaTypeOf (good : ∀ t ∈ arguments.types, S.Good σ t) (span : Span) :
    S.Upholds σ (metaTypeOf arguments span) S.Good := by
  unfold Check.metaTypeOf
  split
  · next equal => exact pure (good _ (equal ▸ mem_cons_self))
  · exact pure ((S.hereditary σ).metaType.mpr ((S.hereditary σ).contract _))
  · next equal =>
    have actual := (S.hereditary σ).typeType.mp (good _ (equal ▸ mem_cons_self))
    exact pure ((S.hereditary σ).metaType.mpr actual)
  · exact reject rfl _
  · exact reject rfl _

theorem decodedType {t : Ty} (good : S.Good σ t) (span : Span) :
    S.Upholds σ (decodedType t span) S.Good := by
  refine read rfl ?_
  split
  · exact pure ((S.hereditary σ).moveTo good _)
  · exact reject rfl _

theorem decodeCall (good : ∀ t ∈ arguments.types, S.Good σ t) (span : Span) :
    S.Upholds σ (decodeCall arguments span) S.Good := by
  unfold Check.decodeCall
  split
  · next data types equal _ =>
    have typesGood : S.Good σ types := good types (equal ▸ mem_cons_of_mem _ mem_cons_self)
    dsimp only
    split
    case' isFalse =>
      refine after (.report rfl _) fun υ _ later => ?_
      replace typesGood := S.later later typesGood
    all_goals
      split
      · next isInvalid => exact pure (eq_of_beq isInvalid ▸ typesGood)
      · split
        · exact reject rfl _
        · next actuals found =>
          refine .bind (mapM (R := S.Good) S.later fun actual mem φ later => ?_)
            fun τ results _ resultsGood => ?_
          · have good := (S.hereditary _).actuals? typesGood found actual mem
            exact decodedType (S.later later good) _
          · exact pure ((S.hereditary τ).resultOf resultsGood)
  · exact reject rfl _
  · exact reject rfl _

theorem callFunction (good : S.Good σ f.toTy) (arguments : Arguments) (span : Span) :
    S.Upholds σ (callFunction f arguments span) S.Good := by
  refine after (.remarks (Remarks.passArguments _ _ _ _ _)) fun υ _ later => ?_
  have result : S.Good υ f.callResult :=
    (S.hereditary υ).resultOf ((S.hereditary υ).function.mp (S.later later good)).2
  split
  · refine gate ?_ ?_
    · rcases S.companion.feature .dynamicReturn EvmVersion.supportsReturndata
        (EvmVersion.lasting_atLeast _) with
        same | ⟨issue, failed, fatal⟩
      · rw [Companion.there, same]
        exact .inl rfl
      · rw [failed]
        exact .inr ⟨issue, span, fun _ => Pure.pure _, fatal, rfl,
          fun φ _ => S.companion.remarks φ (.pure _)⟩
    split
    · next refused =>
      exact afterPure (.report (Context.requireFeature_ordinary refused) _) fun _ => result
    · exact pure result
  · exact pure result

theorem call (good : S.Good σ f.toTy) (argumentsGood : ∀ t ∈ arguments.types, S.Good σ t)
    (emitted : Bool) (span : Span) : S.Upholds σ (call f arguments emitted span) S.Good := by
  have data : S.Good σ .bytesMemory := (S.hereditary σ).basic rfl
  unfold Check.call
  split
  · exact afterPure (.encodeCall _ _ _) fun _ => data
  · exact afterPure (.encodeCall _ _ _) fun _ => data
  · exact afterPure (.encodeCall _ _ _) fun _ => data
  · exact afterPure (.encodeCall _ _ _) fun _ => data
  · exact decodeCall argumentsGood _
  · exact metaTypeOf argumentsGood _
  · split
    · exact callFunction good arguments span
    · exact after (.report rfl _) fun _ _ later => callFunction (S.later later good) arguments span
  · exact after (.remarks (.warn rfl)) fun _ _ later =>
      callFunction (S.later later good) arguments span
  · exact callFunction good arguments span

/-- Only the call of an overloaded name makes an invalid type from good ones without an error. -/
theorem callType {callee : Ty} (good : S.Good σ callee)
    (argumentsGood : ∀ t ∈ arguments.types, S.Good σ t) (emitted : Bool) (span : Span) :
    S.Upholds σ (callType callee arguments emitted span) fun τ t =>
      S.Good τ t ∨ t = .invalid ∧ ∃ candidates, callee = .overloaded candidates := by
  unfold Check.callType
  split
  · exact pure (.inl good)
  · exact pure (.inr ⟨rfl, _, rfl⟩)
  · exact (constructStruct ((S.hereditary σ).struct _ _ _) _ _ _).mono fun _ _ _ => .inl
  · exact (convert ((S.hereditary σ).typeType.mp good) _ _).mono fun _ _ _ => .inl
  · exact (call (by exact good) argumentsGood _ _).mono fun _ _ _ => .inl
  · exact (reject rfl _).mono fun _ _ _ => .inl

theorem setOptions (good : S.Good σ f.toTy) (options : List (String × Ty × Span))
    (before : List String) :
    S.Upholds σ (setOptions f options before) fun τ g => S.Good τ g.toTy := by
  induction options generalizing σ f before with
  | nil => exact pure good
  | cons option rest ih =>
    obtain ⟨name, t, span⟩ := option
    unfold setOptions
    split
    · exact after (.report rfl _) fun _ _ later => ih (S.later later good) _
    · refine gate ?_ ?_
      · rcases S.companion.setOption f name with same | ⟨issue, failed, fatal⟩
        · rw [same]
          exact .inl rfl
        · rw [failed]
          exact .inr ⟨issue, span, _, fatal, rfl, fun _ later => (ih (S.later later good) _).also⟩
      split
      · next refused =>
        exact after (.report (setOption_ordinary refused) _) fun _ _ later =>
          ih (S.later later good) _
      · next g expected set =>
        refine after (.remarks (Remarks.requireConvertible _ _ _)) fun υ _ later => ih ?_ _
        exact (S.hereditary υ).setOption set (S.later later good)

theorem callOptionsType {callee : Ty} (good : S.Good σ callee) (options : List (String × Ty × Span))
    (span : Span) : S.Upholds σ (callOptionsType callee options span) S.Good := by
  unfold Check.callOptionsType
  split
  · exact pure good
  · split
    · exact (setOptions (by exact good) _ _).bind fun _ _ _ result => pure result
    · exact reject rfl _
  · exact reject rfl _

/-! ## Single expressions -/

theorem unaryType (op : UnaryOp) {operand : Ty} (good : S.Good σ operand) (span : Span) :
    S.Upholds σ (unaryType op operand span) S.Good := by
  unfold Check.unaryType
  split
  · next isInvalid => exact pure (S.invalid good isInvalid)
  · split
    · next found => exact pure ((S.hereditary σ).unaryResult? good found)
    · exact reject rfl _

/-- What is made from two types is invalid if one of them is. -/
theorem eitherInvalid {right : Ty} (leftGood : S.Good σ left) (rightGood : S.Good σ right)
    (isInvalid : (left.isInvalid || right.isInvalid) = true) : S.Good σ .invalid :=
  (Bool.or_eq_true_iff.mp isInvalid).elim (S.invalid leftGood) (S.invalid rightGood)

theorem binaryType (op : BinaryOp) {right : Ty} (leftGood : S.Good σ left)
    (rightGood : S.Good σ right)
    (span : Span) : S.Upholds σ (binaryType op left right span) S.Good := by
  unfold Check.binaryType
  split
  · next isInvalid => exact pure (eitherInvalid leftGood rightGood isInvalid)
  · split
    · next found => exact pure ((S.hereditary σ).binaryResult? leftGood rightGood found)
    · exact reject rfl _

theorem conditionalType {yes no : Ty} (yesGood : S.Good σ yes) (noGood : S.Good σ no)
    (span : Span) : S.Upholds σ (conditionalType yes no span) S.Good := by
  unfold Check.conditionalType
  split
  · next isInvalid => exact pure (eitherInvalid yesGood noGood isInvalid)
  · split
    · next found => exact pure ((S.hereditary σ).common? yesGood noGood found)
    · exact reject rfl _

theorem assignmentType (op : Option BinaryOp) (target source : Expr) (good : S.Good σ left)
    (right : Ty)
    (span : Span) : S.Upholds σ (assignmentType op target source left right span) S.Good := by
  unfold Check.assignmentType
  split
  · exact pure good
  split
  · exact afterPure (.remarks (Remarks.assignTuple _ _ _ _ _ _)) fun _ => good
  · exact afterPure (.remarks (Remarks.requireConvertible _ _ _)) fun _ => good
  · split
    · exact afterPure (.report rfl _) fun _ => good
    · exact pure good

theorem arrayTypeType {actual : Ty} (good : S.Good σ (.typeType actual)) {length : Option Nat}
    (positive : ∀ n, length = some n → 1 ≤ n) (isTarget : Bool) (span : Span) :
    S.Upholds σ (arrayTypeType actual length isTarget span) S.Good := by
  have array := (S.hereditary σ).arrayOf ((S.hereditary σ).typeType.mp good) positive .memory
  have result := (S.hereditary σ).typeType.mpr array
  unfold Check.arrayTypeType
  split
  · exact afterPure (.report rfl _) fun _ => result
  · exact pure result

/-- A length that cannot be found is reported. -/
theorem lengthOfIndex (index : Expr) {indexType : Ty} (good : S.Good σ indexType) :
    S.Upholds σ (lengthOfIndex index indexType) fun τ length =>
      (length = none → S.Good τ .invalid) ∧ ∀ n, length = some n → 1 ≤ n := by
  refine .bind (read rfl (ofExcept fun _ => id) : S.Upholds σ (evaluate index) fun _ value =>
    S.context.declarations.evaluate index = .ok value) fun υ value later evaluated => ?_
  have positive (n : Nat)
      (found : ((value.filter (!·.isZero)).bind Fraction.toWord?).map UInt64.toNat = some n) :
      1 ≤ n := by
    obtain ⟨word, bounded, rfl⟩ := map_eq_some_iff.mp found
    obtain ⟨x, kept, fits⟩ := bind_eq_some_iff.mp bounded
    obtain ⟨rfl, nonzero⟩ := filter_eq_some_iff.mp kept
    have admissible := Declarations.evaluate_admissible evaluated
    exact Fraction.toWord?_pos admissible.lowest fits (by simpa using nonzero)
  dsimp only
  split
  · exact (report rfl _).bind fun τ _ _ rejected => pure ⟨fun _ => rejected, positive⟩
  · next found =>
    refine pure ⟨fun missing => S.invalid (S.later later good) ?_, positive⟩
    rw [map_eq_none_iff.mp missing] at found
    simpa using found

theorem elementType {base : Ty} (good : S.Good σ base) (index : Ty) (span : Span) :
    S.Upholds σ (elementType base index span) S.Good := by
  have byte : S.Good σ (.fixedBytes 1) := (S.hereditary σ).basic rfl
  unfold Check.elementType
  split
  · exact reject rfl _
  · exact pure byte
  · refine afterPure (.remarks (Remarks.requireBelow _ _ _)) fun _ => ?_
    exact (S.hereditary σ).moveTo ((S.hereditary σ).element good) _
  · exact pure ((S.hereditary σ).moveTo ((S.hereditary σ).mapping good).2 _)
  · exact afterPure (.remarks (Remarks.requireBelow _ _ _)) fun _ => byte
  · exact pure good
  · exact reject rfl _

theorem sliceType {base : Ty} (good : S.Good σ base) (span : Span) :
    S.Upholds σ (sliceType base span) S.Good := by
  unfold Check.sliceType
  split
  · exact pure good
  · exact pure good
  · exact pure good
  · exact reject rfl _

theorem awaitType {handle : Ty} (good : S.Good σ handle) (span : Span) :
    S.Upholds σ (awaitType handle span) S.Good := by
  unfold Check.awaitType
  split
  · exact pure good
  · exact pure ((S.hereditary σ).resultOf ((S.hereditary σ).handle.mp good))
  · exact reject rfl _

theorem contractCreation {c : ContractTy}
    (created : S.context.declarations.contract? c.id = none → S.Good σ .invalid) (span : Span) :
    S.Upholds σ (contractCreation c span) S.Good := by
  have contract {τ : Findings} : ∀ t ∈ [Ty.contract c], S.Good τ t :=
    forall_mem_singleton.mpr ((S.hereditary τ).contract c)
  refine read rfl ?_
  split
  · next missing => exact pure (created missing)
  · next definition looked =>
    split
    · exact reject rfl _
    split
    · exact reject rfl _
    split
    · exact reject rfl _
    split
    · exact reject rfl _
    split
    · next f equal =>
      have mem : f ∈ definition.functions := mem_of_find?_eq_some equal
      refine (functionType (S.part looked (Contract.mem_functions.mp mem)) _).bind
        fun τ type _ good => pure ?_
      exact (S.hereditary τ).function.mpr ⟨((S.hereditary τ).function.mp good).1, contract⟩
    · exact pure ((S.hereditary σ).function.mpr ⟨forall_mem_nil _, contract⟩)

theorem creationType (typeName : TypeName) (span : Span) :
    S.Upholds σ (creationType typeName span) S.Good := by
  refine (resolve _ _).bind fun υ result _ resolved => ?_
  have array {t : Ty} (good : S.Good υ t) : S.Good υ (arrayCreation t) :=
    (S.hereditary υ).function.mpr
      ⟨forall_mem_singleton.mpr (S.hereditary υ).uint256, forall_mem_singleton.mpr good⟩
  split
  · exact reject (Declarations.resolve_ordinary typeName _ _ resolved) _
  · exact contractCreation (S.created υ resolved) _
  · exact pure (array ((S.hereditary υ).resolve typeName resolved))
  · exact pure (array ((S.hereditary υ).resolve typeName resolved))
  · exact reject rfl _
  · exact reject rfl _

theorem inlineArrayType {length : Nat} {found : Option (Option Ty × Bool)}
    (good : ∀ element, found = some (some element, true) → S.Good σ element ∧ 1 ≤ length)
    (broken : ∀ common, found = some (common, false) → S.Good σ .invalid) (span : Span) :
    S.Upholds σ (inlineArrayType length found span) S.Good := by
  unfold Check.inlineArrayType
  split
  · exact reject rfl _
  · next element =>
    obtain ⟨elementGood, positive⟩ := good element rfl
    exact pure ((S.hereditary σ).arrayOf elementGood (fun n equal => some.inj equal ▸ positive) _)
  · exact pure (broken _ rfl)
  · exact reject rfl _

/-- Parentheses around nothing are the only tuple of good types that is not good. -/
theorem annotateTuple {node : Node} {slots : List (Option Expr)}
    (visited : S.visits (.tuple node slots false))
    {types : List (Option Ty)} (good : ∀ t, some t ∈ types → S.Good σ t)
    (empty : types = [none] → slots = [none]) :
    S.Upholds σ (Check.annotate node.id (Check.tupleType types)) (S.Typed node.id) := by
  refine annotate fun τ later recorded => ?_
  revert recorded
  unfold tupleType
  split
  · exact fun _ => S.later later (good _ mem_cons_self)
  · exact fun recorded => S.silent visited (Expr.silent_tuple.mpr ⟨empty rfl, rfl⟩) recorded
  · exact fun _ => S.later later ((S.hereditary σ).tuple.mpr good)

end

/-! ## All expressions -/

mutual

theorem expression {σ : Findings} (e : Expr) (visits : ∀ n ∈ e.nodes, S.visits n)
    (demand : Demand) : S.Upholds σ (expression e demand) (S.Typed e.id) := by
  match e with
  | .identifier node name target overloads =>
    exact (identifierType _ _ _ _ _).thenAnnotate _
  | .elementaryType node name payable =>
    rw [Check.expression]
    split
    · next found =>
        exact annotateGood ((S.hereditary σ).typeType.mpr ((S.hereditary σ).elementary found))
    · exact (reject rfl _).thenAnnotate _
  | .literal node kind text unit =>
    rw [Check.expression]
    split
    · next found => exact annotateGood ((S.hereditary σ).literal found)
    · exact (reject rfl _).thenAnnotate _
  | .unary node op isPrefix operand =>
    simp only [Expr.nodes, forall_mem_cons] at visits
    refine (expression operand visits.2 _).bind fun υ t _ typed => ?_
    split
    · refine after (.remarks (Remarks.requireAssignable _ _)) fun τ _ later => ?_
      exact (unaryType _ (S.later later typed.2) _).thenAnnotate _
    · exact (unaryType _ typed.2 _).thenAnnotate _
  | .binary node op left right =>
    simp only [Expr.nodes, forall_mem_cons, forall_mem_append] at visits
    refine (expression left visits.2.1 _).bind fun υ leftType _ leftTyped => ?_
    refine (expression right visits.2.2 _).bind fun τ rightType later rightTyped => ?_
    exact (binaryType _ (S.later later leftTyped.2) rightTyped.2 _).thenAnnotate _
  | .assignment node op left right =>
    simp only [Expr.nodes, forall_mem_cons, forall_mem_append] at visits
    refine (expression left visits.2.1 _).bind fun υ leftType _ leftTyped => ?_
    refine after (.remarks (Remarks.requireAssignable _ _)) fun φ _ later => ?_
    refine (expression right visits.2.2 _).bind fun τ rightType later' _ => ?_
    exact (assignmentType _ _ _ (S.later (later.trans later') leftTyped.2) _ _).thenAnnotate _
  | .conditional node condition yes no =>
    simp only [Expr.nodes, forall_mem_cons, forall_mem_append] at visits
    refine (expression condition visits.2.1 _).bind fun _ conditionType _ _ => ?_
    refine after (.remarks (Remarks.requireConvertible _ _ _)) fun _ _ _ => ?_
    refine (expression yes visits.2.2.1 _).bind fun υ yesType _ yesTyped => ?_
    refine (expression no visits.2.2.2 _).bind fun τ noType later noTyped => ?_
    exact (conditionalType (S.later later yesTyped.2) noTyped.2 _).thenAnnotate _
  | .tuple node slots true =>
    simp only [Expr.nodes, forall_mem_cons] at visits
    have nothing : ∀ t, (none : Option Ty) = some t → S.Good σ t := nofun
    refine (elements slots visits.2 nothing true).bind fun υ found _ outcome => ?_
    refine (inlineArrayType (fun element equal => ?_) (fun common equal => ?_) _).thenAnnotate _
    · -- Without components there would be no common type.
      obtain ⟨elementGood, last⟩ := (outcome _ _ equal).1 element rfl
      exact ⟨elementGood, length_pos_iff.mpr fun empty => nomatch last empty⟩
    · exact ((outcome _ _ equal).2 rfl).resolve_left nofun
  | .tuple node slots false =>
    simp only [Expr.nodes, forall_mem_cons] at visits
    refine (components _ _ slots visits.2).bind fun υ types _ outcome => ?_
    exact annotateTuple visits.1 outcome.1 outcome.2.2
  | .call node callee arguments names =>
    simp only [Expr.nodes, forall_mem_cons, forall_mem_append] at visits
    rw [Check.expression]
    split
    case' isFalse => refine after (.remarks (Remarks.requireNames _ _ _)) fun _ _ _ => ?_
    all_goals
      refine after .takeEmitPending fun _ emitted _ => ?_
      refine (expressions arguments visits.2.1).bind fun υ types _ argumentsGood => ?_
      refine (expression callee visits.2.2 _).bind fun φ calleeType later calleeTyped => ?_
      refine (callType calleeTyped.2 (fun t mem => S.later later (argumentsGood t mem)) _ _).bind ?_
      intro ψ result later' outcome
      refine annotate fun τ last recorded => ?_
      rcases outcome with good | ⟨rfl, candidates, rfl⟩
      · exact S.later last good
      · exact S.silent visits.1 ⟨candidates, (later'.trans last).expression _ _ calleeTyped.1⟩
          recorded
  | .callOptions node callee names options =>
    simp only [Expr.nodes, forall_mem_cons, forall_mem_append] at visits
    refine after (.remarks (Remarks.requireNames _ _ _)) fun _ _ _ => ?_
    refine (expression callee visits.2.1 _).bind fun υ calleeType _ calleeTyped => ?_
    refine (expressions options visits.2.2).bind fun τ types later _ => ?_
    exact (callOptionsType (S.later later calleeTyped.2) _ _).thenAnnotate _
  | .create node typeName =>
    exact (creationType _ _).thenAnnotate _
  | .await node handle =>
    simp only [Expr.nodes, forall_mem_cons] at visits
    exact (expression handle visits.2 _).bind fun _ _ _ typed =>
      (awaitType typed.2 _).thenAnnotate _
  | .member node base name =>
    simp only [Expr.nodes, forall_mem_cons] at visits
    exact (expression base visits.2 _).bind fun _ _ _ typed =>
      (memberType typed.2 _ _ _).thenAnnotate _
  | .index node base none =>
    simp only [Expr.nodes, forall_mem_cons, forall_mem_append] at visits
    refine (expression base visits.2.1 _).bind fun υ baseType _ typed => ?_
    split
    · refine (arrayTypeType typed.2 (fun n equal => ?_) _ _).thenAnnotate _
      exact nomatch equal
    · split
      · exact (reject rfl _).thenAnnotate _
      · exact (elementType typed.2 _ _).thenAnnotate _
  | .index node base (some index) =>
    simp only [Expr.nodes, optionNodes, forall_mem_cons, forall_mem_append] at visits
    refine (expression base visits.2.1 _).bind fun υ baseType _ baseTyped => ?_
    refine (expression index visits.2.2 _).bind fun φ indexType later indexTyped => ?_
    have good := S.later later baseTyped.2
    split
    · refine (lengthOfIndex _ indexTyped.2).bind fun τ length later' outcome => ?_
      split
      · exact annotateGood (outcome.1 rfl)
      · exact (arrayTypeType (S.later later' good) outcome.2 _ _).thenAnnotate _
    · refine after (.remarks (Remarks.requireConvertible _ _ _)) fun τ _ later' => ?_
      exact (elementType (S.later later' good) _ _).thenAnnotate _
    · exact (elementType good _ _).thenAnnotate _
  | .slice node base start stop =>
    simp only [Expr.nodes, forall_mem_cons, forall_mem_append] at visits
    refine (expression base visits.2.1 _).bind fun υ baseType _ typed => ?_
    refine (bound start visits.2.2.1).bind fun φ _ later _ =>
      (bound stop visits.2.2.2).bind fun τ _ later' _ => ?_
    exact (sliceType (S.later (later.trans later') typed.2) _).thenAnnotate _

theorem expressions {σ : Findings} (es : List Expr) (visits : ∀ n ∈ listNodes es, S.visits n) :
    S.Upholds σ (expressions es) fun τ types => ∀ t ∈ types, S.Good τ t := by
  match es with
  | [] => exact pure (forall_mem_nil _)
  | e :: rest =>
    rw [listNodes, forall_mem_append] at visits
    refine (expression e visits.1 _).bind fun υ t _ typed =>
      (expressions rest visits.2).bind fun τ types later more => ?_
    exact pure (forall_mem_cons.mpr ⟨S.later later typed.2, more⟩)

theorem bound {σ : Findings} (limit : Option Expr) (visits : ∀ n ∈ optionNodes limit, S.visits n) :
    S.Upholds σ (bound limit) fun _ _ => True := by
  match limit with
  | none => exact pure trivial
  | some e =>
    exact (expression e visits _).bind fun υ _ _ _ =>
      Passes.remarks (Remarks.requireConvertible _ _ _) υ

/-- There is a type for each component, but for those that are left out. -/
theorem components {σ : Findings} (isTarget : Bool) (span : Span) (slots : List (Option Expr))
    (visits : ∀ n ∈ slotNodes slots, S.visits n) :
    S.Upholds σ (Check.components isTarget span slots) fun τ types =>
      (∀ t, some t ∈ types → S.Good τ t) ∧
      types.length = slots.length ∧ (types = [none] → slots = [none]) := by
  match slots with
  | [] => exact pure ⟨nofun, rfl, nofun⟩
  | none :: rest =>
    rw [Check.components]
    have others (υ : Findings) (slot : Option Ty) (good : ∀ t, slot = some t → S.Good υ t) :
        S.Upholds υ (do return slot :: (← Check.components isTarget span rest)) fun τ types =>
          (∀ t, some t ∈ types → S.Good τ t) ∧ types.length = (none :: rest).length ∧
            (types = [none] → none :: rest = [none]) := by
      refine (components isTarget span rest visits).bind fun τ types later outcome =>
        pure ⟨?_, ?_, ?_⟩
      · intro t mem
        rcases mem_cons.mp mem with same | inRest
        · exact S.later later (good t same.symm)
        · exact outcome.1 t inRest
      · exact congrArg Nat.succ outcome.2.1
      · intro equal
        rw [(List.cons.inj equal).2] at outcome
        rw [length_eq_zero_iff.mp outcome.2.1.symm]
    split
    · exact bind (Q := fun υ slot => ∀ t, slot = some t → S.Good υ t) (pure nofun) fun υ slot _ =>
        others υ slot
    · refine bind (Q := fun υ slot => ∀ t, slot = some t → S.Good υ t)
        (map ((reject rfl _).mono fun τ t _ good => ?_)) fun υ slot _ => others υ slot
      exact fun t' equal => some.inj equal ▸ good
  | some e :: rest =>
    rw [slotNodes, forall_mem_append] at visits
    refine (expression e visits.1 _).bind fun υ t _ typed => ?_
    refine (components isTarget span rest visits.2).bind fun τ types later outcome =>
      pure ⟨?_, ?_, nofun⟩
    · intro t' mem
      rcases mem_cons.mp mem with same | inRest
      · exact some.inj same ▸ S.later later typed.2
      · exact outcome.1 t' inRest
    · exact congrArg Nat.succ outcome.2.1

/-- A common type is good, and without further elements it is the one found before. Elements are
given up only where one of them is invalid. -/
theorem elements {σ : Findings} (slots : List (Option Expr))
    (visits : ∀ n ∈ slotNodes slots, S.visits n)
    {common : Option Ty} (good : ∀ t, common = some t → S.Good σ t) (valid : Bool) :
    S.Upholds σ (elements slots common valid) fun τ found =>
      ∀ joined valid', found = some (joined, valid') →
      (∀ t, joined = some t → S.Good τ t ∧ (slots = [] → common = some t)) ∧
        (valid' = false → valid = false ∨ S.Good τ .invalid) := by
  match slots with
  | [] =>
    refine pure fun joined valid' equal => ?_
    cases equal
    exact ⟨fun t found => ⟨good t found, fun _ => found⟩, .inl⟩
  | none :: rest =>
    exact pure nofun
  | some e :: rest =>
    rw [slotNodes, forall_mem_append] at visits
    refine (expression e visits.1 _).bind fun υ t start typed => ?_
    have common' : ∀ t, common = some t → S.Good υ t := fun t found => S.later start (good t found)
    split
    · next isInvalid =>
      refine (elements rest visits.2 common' false).mono
        fun τ found later outcome joined valid' equal => ?_
      refine ⟨fun t found => ⟨((outcome _ _ equal).1 t found).1, nofun⟩, ?_⟩
      exact fun _ => .inr (S.later later (S.invalid typed.2 isInvalid))
    · split
      · refine pure fun joined valid' equal => ?_
        cases equal
        exact ⟨nofun, .inl⟩
      · refine (elements rest visits.2 (fun t' found => ?_) _).mono
          fun τ found _ outcome joined valid' equal => ?_
        · exact (S.hereditary υ).joinElement common' typed.2 found
        · exact ⟨fun t found => ⟨((outcome _ _ equal).1 t found).1, nofun⟩, (outcome _ _ equal).2⟩

end

end Standard.Upholds

namespace Check

/-! ## How findings go on -/

namespace Advances

theorem assignmentType (op : Option BinaryOp) (target source : Expr) (left right : Ty)
    (span : Span) : Advances (assignmentType op target source left right span) :=
  of_upholds fun _ _ => .assignmentType op target source trivial right span

theorem lengthOfIndex (index : Expr) (indexType : Ty) : Advances (lengthOfIndex index indexType) :=
  of_upholds fun _ _ => .lengthOfIndex index trivial

theorem expression (e : Expr) (demand : Demand) : Advances (expression e demand) :=
  of_upholds fun _ _ => .expression e (fun _ _ => trivial) demand

theorem expressions (es : List Expr) : Advances (expressions es) :=
  of_upholds fun _ _ => .expressions es fun _ _ => trivial

theorem components (isTarget : Bool) (span : Span) (slots : List (Option Expr)) :
    Advances (components isTarget span slots) :=
  of_upholds fun _ _ => .components isTarget span slots fun _ _ => trivial

theorem elements (slots : List (Option Expr)) (common : Option Ty) (valid : Bool) :
    Advances (elements slots common valid) :=
  of_upholds fun _ _ => .elements slots (fun _ _ => trivial) (fun _ _ => trivial) valid

end Advances

/-! ## What is recorded for an expression -/

/-- Whether a check ends with the type that it has recorded for an expression. -/
def Records (id : NodeId) (m : Check Ty) : Prop :=
  ∀ c σ t τ, m c σ = .ok (t, τ) → τ.expression? id = some t

namespace Records

theorem annotate (id : NodeId) (t : Ty) : Records id (annotate id t) :=
  fun _ _ _ _ => annotate_recorded

/-- The type of an expression is recorded, in whatever way it was found. -/
theorem expression (e : Expr) (demand : Demand) : Records e.id (expression e demand) :=
  fun c _ t τ run =>
    ((Standard.Upholds.expression (S := .any c) e (fun _ _ => trivial) demand).result t τ run).2.1

end Records

end Check

end ContractTyping
