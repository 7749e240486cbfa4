import ContractTyping.Proofs.Effect.Declaration

/-!
# Effects of checking expressions

Checking an expression types each of its nodes at most once, and it is known which ones have a type
in the end: the expression itself and, if it is a tuple, its components. That is what assignments
rely on.
-/

namespace ContractTyping

open Check List

variable {e : Expr}

mutual

/-- The nodes that have a type for certain after an expression has been checked. -/
def Expr.skeleton : Expr → List NodeId
  | .tuple node components false => node.id :: slotSkeleton components
  | e => [e.id]

def slotSkeleton : List (Option Expr) → List NodeId
  | [] => []
  | none :: rest => slotSkeleton rest
  | some e :: rest => e.skeleton ++ slotSkeleton rest

end

theorem Expr.id_mem_skeleton (e : Expr) : e.id ∈ e.skeleton := by
  cases e with
  | tuple node components isInlineArray => cases isInlineArray <;> exact mem_cons_self
  | _ => exact mem_cons_self

/-- An inline array does not have the type of a tuple. -/
theorem Check.ne_inlineArray {demand : Demand} {c : Context} {σ τ : Findings}
    {types : List (Option Ty)} (run : expression e demand c σ = .ok (.tuple types, τ)) (node : Node)
    (slots : List (Option Expr)) : e ≠ .tuple node slots true := by
  rintro rfl
  obtain ⟨found, υ, -, run⟩ := bind_ok.mp run
  obtain ⟨t, φ, typed, run⟩ := bind_ok.mp run
  cases annotate_value run
  unfold inlineArrayType at typed
  split at typed <;> cases typed

namespace Site

variable {S : Site} {known es vs sure : List NodeId}
variable {target : Expr}

/-- Only the context matters for a check that types nothing. -/
theorem Quiet.acts {α : Type} {m : Check α} (quiet : S.Quiet m) : S.Acts known [] [] [] m :=
  quiet.weaken (nil_subset _) (fun _ => Nat.le_refl _) (fun _ => Nat.le_refl _) (List.Subset.refl _)

theorem mem_nodeIds (nodes : e.nodes ⊆ S.inventory.nodes) : e.id ∈ S.inventory.nodeIds :=
  mem_map_of_mem (nodes e.self_mem_nodes)

/-! ## Assignments -/

theorem Legal.var (legal : S.Legal) : S.there.declarations.var? = S.here.declarations.var? := by
  funext id
  rw [Declarations.var?, Declarations.var?, legal.alike.lookup]

theorem Legal.identifierFault (legal : S.Legal) (target : Option NodeId) :
    identifierFault? S.there target = identifierFault? S.here target := by
  rw [identifierFault?, identifierFault?, legal.var, legal.alike.scope]

/-- Anything but a tuple is looked at as a whole, once it has a type. -/
theorem Legal.requireAssignable_of_ne_tuple (legal : S.Legal)
    (shape : ∀ node components isInlineArray, e ≠ .tuple node components isInlineArray)
    (nodes : e.nodes ⊆ S.inventory.nodes) (typed : e.id ∈ known) (ordinary : Bool) :
    S.Acts known [] [] [] (requireAssignable ordinary e) := by
  rw [requireAssignable]
  · refine Acts.lookup (mem_nodeIds nodes) fun found has => ?_
    obtain ⟨t, rfl⟩ := Option.isSome_iff_exists.mp (has typed)
    dsimp only
    split
    · exact Acts.pure _
    have rest (fault : Option AssignmentFault) :
        S.Acts known [] [] [] (reportFault (fault.or (mappingFault? t ordinary)) e.span) :=
      (legal.quiet (.reportFault _ _)).acts
    split
    · refine Acts.read ?_ ?_
      · rw [legal.identifierFault]
      · exact (Acts.pure _).bind rest
    · next base _ =>
      refine Acts.lookup (mem_nodeIds fun n mem => nodes ?_) fun found _ => ?_
      · exact mem_cons_of_mem _ mem
      · exact (Acts.pure _).bind rest
    · next base _ =>
      refine Acts.lookup (mem_nodeIds fun n mem => nodes ?_) fun found _ => ?_
      · exact mem_cons_of_mem _ (mem_append_left _ mem)
      · exact (Acts.pure _).bind rest
    · exact (Acts.pure _).bind rest
  · exact fun node components isInlineArray equal => shape _ _ _ equal

mutual

theorem Legal.requireAssignable (legal : S.Legal) (ordinary : Bool) (e : Expr)
    (nodes : e.nodes ⊆ S.inventory.nodes) (typed : e.skeleton ⊆ known) :
    S.Acts known [] [] [] (requireAssignable ordinary e) := by
  match e with
  | .tuple node components isInlineArray =>
    have self : node.id ∈ known := typed (by cases isInlineArray <;> exact mem_cons_self)
    refine Acts.lookup (mem_nodeIds nodes) fun found has => ?_
    obtain ⟨t, rfl⟩ := Option.isSome_iff_exists.mp (has self)
    dsimp only
    split
    · exact Acts.pure _
    -- Inline arrays are refused before their elements are looked at.
    split
    · exact (Quiet.report _ _).acts
    · next proper =>
      cases isInlineArray with
      | true => cases proper rfl
      | false =>
        exact legal.requireComponents ordinary components
          (fun n mem => nodes (mem_cons_of_mem _ mem)) fun id mem => typed (mem_cons_of_mem _ mem)
  | .identifier .. | .elementaryType .. | .literal .. | .unary .. | .binary .. | .assignment ..
  | .conditional .. | .call .. | .callOptions .. | .create .. | .await .. | .member .. | .index ..
  | .slice .. =>
    refine legal.requireAssignable_of_ne_tuple ?_ nodes (typed mem_cons_self) ordinary
    exact fun _ _ _ => nofun

theorem Legal.requireComponents (legal : S.Legal) (ordinary : Bool)
    (components : List (Option Expr))
    (nodes : slotNodes components ⊆ S.inventory.nodes) (typed : slotSkeleton components ⊆ known) :
    S.Acts known [] [] [] (requireComponents ordinary components) := by
  match components with
  | [] => exact Acts.pure _
  | none :: rest => exact legal.requireComponents ordinary rest nodes typed
  | some e :: rest =>
    refine (legal.requireAssignable ordinary e (fun n mem => nodes ?_) fun id mem => typed ?_).bind
      fun _ => legal.requireComponents ordinary rest (fun n mem => nodes ?_) fun id mem => typed ?_
    · exact mem_append_left _ mem
    · exact mem_append_left _ mem
    · exact mem_append_right _ mem
    · exact mem_append_right _ mem

end

/-! ## Writes to storage -/

variable (legal : S.Legal)

include legal

theorem Legal.evaluate
    (faults : ∀ fault, S.here.declarations.evaluate e = .error fault → S.faults fault) :
    S.Quiet (evaluate e) := by
  refine Acts.read ?_ (Quiet.ofExcept faults)
  rw [legal.alike.evaluate]

theorem Legal.storagePath (e : Expr) (nodes : e.nodes ⊆ S.inventory.nodes)
    (steps : List PathStep) : S.Quiet (Check.storagePath steps e) := by
  fun_induction Check.storagePath steps e with
  | case1 steps _ base name ih => exact ih fun n mem => nodes (mem_cons_of_mem _ mem)
  | case2 steps node base next index ih =>
    refine (legal.evaluate ?_).bind fun value => ih value fun n mem => nodes ?_
    · exact legal.indices node base index (nodes (Expr.self_mem_nodes _))
    · exact mem_cons_of_mem _ (mem_append_left _ mem)
  | case3 steps node base next ih =>
    refine (Acts.pure _).bind fun value => ih value fun n mem => nodes ?_
    exact mem_cons_of_mem _ (mem_append_left _ mem)
  | case4 steps node inner ih =>
    exact ih fun n mem => nodes (mem_cons_of_mem _ (mem_append_left _ mem))
  | case5 steps node name target overloads =>
    refine Acts.read ?_ ?_
    · rw [legal.var]
    · split
      · exact Acts.pure _
      · refine Acts.lookup (mem_nodeIds nodes) fun found _ => ?_
        split <;> exact Acts.pure _
  | case6 => exact Acts.pure _

theorem Legal.targetComponents (components : List (Option Expr))
    (nodes : slotNodes components ⊆ S.inventory.nodes) (typed : slotSkeleton components ⊆ known)
    (sources : List (Option Ty)) :
    S.Acts known [] [] [] (targetComponents components sources) := by
  induction components generalizing sources with
  | nil => exact Acts.pure _
  | cons slot rest ih =>
    cases slot with
    | none => exact ih nodes typed _
    | some e =>
      have inNodes : e.nodes ⊆ S.inventory.nodes := fun n mem => nodes (mem_append_left _ mem)
      have self : e.id ∈ known := typed (mem_append_left _ e.id_mem_skeleton)
      have others := ih (fun n mem => nodes (mem_append_right _ mem))
        (fun id mem => typed (mem_append_right _ mem)) sources.tail
      have first (source : Option Ty) : S.Acts known [] [] [] (targetComponent e source) := by
        refine Acts.lookup (mem_nodeIds inNodes) fun found has => ?_
        obtain ⟨t, rfl⟩ := Option.isSome_iff_exists.mp (has self)
        exact (legal.storagePath e inNodes []).bind fun _ => Acts.pure _
      exact (first _).bind fun component => others.bindQuiet fun _ => Acts.pure _

variable (nodes : target.nodes ⊆ S.inventory.nodes)

include nodes

variable (typed : target.skeleton ⊆ known)

include typed

theorem Legal.guardStorage (proper : ∀ node components, target ≠ .tuple node components true)
    (source : Ty) (span : Span) :
    S.Acts known [] [] [] (guardStorage target source span) := by
  unfold Check.guardStorage
  split
  · next node components isInlineArray =>
    cases isInlineArray with
    | true => cases proper node components rfl
    | false =>
      refine (legal.targetComponents components (fun n mem => nodes (mem_cons_of_mem _ mem))
        (fun id mem => typed (mem_cons_of_mem _ mem)) _).bindQuiet fun found => ?_
      split
      · exact Quiet.warn _ _
      · exact Acts.pure _
  · exact Acts.pure _

/-! ## Single expressions -/

theorem Legal.assignTuple (proper : ∀ node components, target ≠ .tuple node components true)
    (isCompound : Bool) (components : List (Option Ty)) (source : Expr) (right : Ty) (span : Span) :
    S.Acts known [] [] [] (assignTuple isCompound components target source right span) := by
  unfold Check.assignTuple
  dsimp only
  split
  · exact (Quiet.report _ _).acts
  · split
    · exact (Quiet.report _ _).acts
    · split
      · exact (Quiet.report _ _).acts
      · exact legal.guardStorage nodes typed proper _ _

/-- Inline arrays do not have the type of a tuple, so what is assigned to has typed components. -/
theorem Legal.assignmentType {left : Ty}
    (proper : ∀ node components types, target = .tuple node components true → left ≠ .tuple types)
    (op : Option BinaryOp) (source : Expr) (right : Ty) (span : Span) :
    S.Acts known [] [] [] (assignmentType op target source left right span) := by
  unfold Check.assignmentType
  split
  · exact Acts.pure _
  split
  · next types _ =>
    refine (legal.assignTuple nodes typed (fun node components shape => ?_) _ _ _ _ _).bind
      fun _ => Acts.pure _
    exact proper node components types shape rfl
  · exact (legal.quiet (.requireConvertible _ _ _)).bind fun _ => Acts.pure _
  · split
    · exact (Quiet.report _ _).bind fun _ => Acts.pure _
    · exact Acts.pure _

omit typed

omit nodes

theorem Legal.lengthOfIndex {index : Expr}
    (faults : ∀ fault, S.here.declarations.evaluate index = .error fault → S.faults fault)
    (indexType : Ty) : S.Quiet (lengthOfIndex index indexType) := by
  refine (legal.evaluate faults).bind fun value => ?_
  dsimp only
  split
  · exact (Quiet.report _ _).bind fun _ => Acts.pure _
  · exact Acts.pure _

theorem Legal.contractCreation (c : ContractTy) (span : Span) :
    S.Quiet (contractCreation c span) := by
  refine Acts.read ?_ ?_
  · rw [legal.alike.contract, legal.alike.contractId?]
  split
  · exact Acts.pure _
  · next k found =>
    split
    · exact Quiet.reject _ _
    · split
      · exact Quiet.reject _ _
      · split
        · exact Quiet.reject _ _
        · split
          · exact Quiet.reject _ _
          · split
            · next f equal =>
              have mem : f ∈ k.functions := mem_of_find?_eq_some equal
              refine (legal.functionType (legal.part found (Contract.mem_functions.mp mem)) _).bind
                fun _ => Acts.pure _
            · exact (Acts.pure _).bind fun _ => Acts.pure _

theorem Legal.creationType {typeName : TypeName} (resolvable : S.Resolvable typeName)
    (span : Span) : S.Quiet (creationType typeName span) := by
  refine (legal.resolve resolvable _).bind fun result => ?_
  split
  · exact Quiet.reject _ _
  · exact legal.contractCreation _ _
  · exact Acts.pure _
  · exact Acts.pure _
  · exact Quiet.reject _ _
  · exact Quiet.reject _ _

theorem Legal.requireNames (mem : e ∈ S.inventory.nodes) {names values : Nat}
    (mismatch : names ≠ values → e.mismatch? = some (names, values)) :
    S.Quiet (requireNames e.id names values) := by
  unfold Check.requireNames
  split
  · next differ =>
      exact Quiet.fail (legal.names e mem names values (mismatch (by simpa using differ)))
  · exact Acts.pure _

omit legal

/-! ## All expressions -/

section Parts

variable {α β : Type} {m : Check α} {f : α → Check β} {es' : List NodeId} {id : NodeId}

variable (first : S.Acts known es [] sure m)

include first

/-- A part of an expression is typed before the expression itself. -/
theorem Acts.partGiven
    (next : ∀ a, S.Gives m a → S.Acts (sure ++ known) (id :: es') [] [id] (f a)) :
    S.Acts known (id :: (es ++ es')) [] [id] (m >>= f) := by
  refine (first.bindGiven next).reorder (fun n => ?_) (subset_append_right _ _)
  simp only [count_append, count_cons]
  omega

theorem Acts.part (next : ∀ a, S.Acts (sure ++ known) (id :: es') [] [id] (f a)) :
    S.Acts known (id :: (es ++ es')) [] [id] (m >>= f) :=
  first.partGiven fun a _ => next a

theorem Acts.lastPart (next : ∀ a, S.Acts (sure ++ known) [id] [] [id] (f a)) :
    S.Acts known (id :: es) [] [id] (m >>= f) := by
  have both := first.part next
  rwa [append_nil] at both

omit first

theorem Quiet.thenAnnotate {m : Check Ty} (quiet : S.Quiet m) (mem : id ∈ S.inventory.nodeIds) :
    S.Acts known [id] [] [id] (m >>= annotate id) :=
  quiet.bind fun t => Acts.annotate mem t

end Parts

mutual

theorem Legal.expression (legal : S.Legal) (e : Expr) (nodes : e.nodes ⊆ S.inventory.nodes)
    (demand : Demand) {known : List NodeId} :
    S.Acts known (e.nodes.map Expr.id) [] e.skeleton (expression e demand) := by
  have self : e.id ∈ S.inventory.nodeIds := mem_nodeIds nodes
  match e with
  | .identifier node name target overloads =>
    exact (legal.identifierType (nodes (Expr.self_mem_nodes _)) demand).thenAnnotate self
  | .elementaryType node name payable =>
    rw [Check.expression]
    split
    · exact Acts.annotate self _
    · exact (Quiet.reject _ _).thenAnnotate self
  | .literal node kind text unit =>
    rw [Check.expression]
    split
    · exact Acts.annotate self _
    · exact (Quiet.reject _ _).thenAnnotate self
  | .unary node op _ operand =>
    rw [Expr.nodes, cons_subset] at nodes
    refine Acts.lastPart (legal.expression operand nodes.2 _) fun t => ?_
    split
    · refine (legal.requireAssignable false operand nodes.2 (subset_append_left _ _)).bind
        fun _ => ?_
      exact (legal.quiet (.unaryType _ _ _)).thenAnnotate self
    · exact (legal.quiet (.unaryType _ _ _)).thenAnnotate self
  | .binary node op left right =>
    rw [Expr.nodes, cons_subset, append_subset] at nodes
    rw [Check.expression, Expr.nodes, map_cons, map_append]
    exact Acts.part (legal.expression left nodes.2.1 _) fun leftType =>
      Acts.lastPart (legal.expression right nodes.2.2 _) fun rightType =>
        (legal.quiet (.binaryType op leftType rightType _)).thenAnnotate self
  | .assignment node op left right =>
    rw [Expr.nodes, cons_subset, append_subset] at nodes
    rw [Check.expression, Expr.nodes, map_cons, map_append]
    -- The components of the target stay typed on the other side. The last step needs them.
    refine Acts.partGiven (legal.expression left nodes.2.1 _) fun leftType ⟨σ, τ, run⟩ =>
      (legal.requireAssignable _ left nodes.2.1 (subset_append_left _ _)).bind fun _ =>
        Acts.lastPart (legal.expression right nodes.2.2 _) fun rightType => ?_
    exact (legal.assignmentType nodes.2.1 (fun id mem => mem_append_right _ (mem_append_left _ mem))
      (fun node slots _ shape isTuple => ne_inlineArray (isTuple ▸ run) node slots shape)
      op right rightType _).bind fun t => Acts.annotate self t
  | .conditional node condition yes no =>
    rw [Expr.nodes, cons_subset, append_subset, append_subset] at nodes
    rw [Check.expression, Expr.nodes, map_cons, map_append, map_append]
    exact Acts.part (legal.expression condition nodes.2.1 _) fun conditionType =>
      (legal.quiet (.requireConvertible conditionType .bool _)).bind fun _ =>
        Acts.part (legal.expression yes nodes.2.2.1 _) fun yesType =>
          Acts.lastPart (legal.expression no nodes.2.2.2 _) fun noType =>
            (legal.quiet (.conditionalType yesType noType _)).thenAnnotate self
  | .tuple node components true =>
    rw [Expr.nodes, cons_subset] at nodes
    exact Acts.lastPart (legal.elements components nodes.2 none true) fun found =>
      (legal.quiet (.inlineArrayType components.length found _)).thenAnnotate self
  | .tuple node parts false =>
    simp only [Expr.nodes, cons_subset] at nodes
    refine Acts.reorder
      ((legal.components _ _ parts nodes.2).bind fun types => Acts.annotate self _)
      (fun id => ?_) ?_
    · simp [Expr.nodes, Expr.id, Expr.node, count_cons]
    · simp [Expr.skeleton, Expr.id, Expr.node]
  | .call node callee arguments names =>
    have mem := nodes (Expr.self_mem_nodes _)
    rw [Expr.nodes, cons_subset, append_subset] at nodes
    rw [Check.expression, Expr.nodes, map_cons, map_append]
    -- Names are counted only if there are any. What follows is the same.
    split
    case' isFalse named =>
      refine (legal.requireNames mem fun differ => if_neg (by simpa [named] using differ)).bind
        fun _ => ?_
    all_goals
      exact Quiet.takeEmitPending.bind fun emitted =>
        Acts.part (legal.expressions arguments nodes.2.1) fun types =>
          Acts.lastPart (legal.expression callee nodes.2.2 _) fun calleeType =>
            (legal.quiet (.callType calleeType _ emitted _)).thenAnnotate self
  | .callOptions node callee names options =>
    have mem := nodes (Expr.self_mem_nodes _)
    rw [Expr.nodes, cons_subset, append_subset] at nodes
    rw [Check.expression, Expr.nodes, map_cons, map_append]
    exact (legal.requireNames mem fun differ => if_neg (by simpa using differ)).bind fun _ =>
      Acts.part (legal.expression callee nodes.2.1 _) fun calleeType =>
        Acts.lastPart (legal.expressions options nodes.2.2) fun types =>
          (legal.quiet (.callOptionsType calleeType _ _)).thenAnnotate self
  | .create node typeName =>
    exact (legal.creationType (legal.created node typeName (nodes (Expr.self_mem_nodes _)))
      _).thenAnnotate self
  | .await node handle =>
    rw [Expr.nodes, cons_subset] at nodes
    exact Acts.lastPart (legal.expression handle nodes.2 _) fun handleType =>
      (legal.quiet (.awaitType handleType _)).thenAnnotate self
  | .member node base name =>
    rw [Expr.nodes, cons_subset] at nodes
    exact Acts.lastPart (legal.expression base nodes.2 _) fun baseType =>
      (legal.memberType baseType name _ _).thenAnnotate self
  | .index node base none =>
    rw [Expr.nodes, optionNodes, append_nil, cons_subset] at nodes
    rw [Check.expression, Expr.nodes, optionNodes, append_nil]
    refine Acts.lastPart (legal.expression base nodes.2 _) fun baseType => ?_
    split
    · exact (legal.quiet (.arrayTypeType _ _ _ _)).thenAnnotate self
    · split
      · exact (Quiet.reject _ _).thenAnnotate self
      · exact (legal.quiet (.elementType _ _ _)).thenAnnotate self
  | .index node base (some index) =>
    have mem := nodes (Expr.self_mem_nodes _)
    rw [Expr.nodes, optionNodes, cons_subset, append_subset] at nodes
    rw [Check.expression, Expr.nodes, optionNodes, map_cons, map_append]
    refine Acts.part (legal.expression base nodes.2.1 _) fun baseType =>
      Acts.lastPart (legal.expression index nodes.2.2 _) fun indexType => ?_
    split
    · refine (legal.lengthOfIndex (legal.indices node base index mem) _).bind fun length => ?_
      split
      · exact Acts.annotate self _
      · exact (legal.quiet (.arrayTypeType _ _ _ _)).thenAnnotate self
    · refine (legal.quiet (.requireConvertible _ _ _)).bind fun _ => ?_
      exact (legal.quiet (.elementType _ _ _)).thenAnnotate self
    · exact (legal.quiet (.elementType _ _ _)).thenAnnotate self
  | .slice node base start stop =>
    rw [Expr.nodes, cons_subset, append_subset, append_subset] at nodes
    rw [Check.expression, Expr.nodes, map_cons, map_append, map_append]
    exact Acts.part (legal.expression base nodes.2.1 _) fun baseType =>
      Acts.part (legal.bound start nodes.2.2.1) fun _ =>
        Acts.lastPart (legal.bound stop nodes.2.2.2) fun _ =>
          (legal.quiet (.sliceType baseType _)).thenAnnotate self

theorem Legal.expressions (legal : S.Legal) (es : List Expr)
    (nodes : listNodes es ⊆ S.inventory.nodes) {known : List NodeId} :
    S.Acts known ((listNodes es).map Expr.id) [] [] (expressions es) := by
  match es with
  | [] => exact Acts.pure _
  | e :: rest =>
    simp only [listNodes, append_subset] at nodes
    rw [Check.expressions, listNodes, map_append]
    refine Acts.reorder ((legal.expression e nodes.1 {}).bind fun t =>
      (legal.expressions rest nodes.2).bindQuiet fun _ => Acts.pure _) (fun _ => Nat.le_refl _) ?_
    exact nil_subset _

theorem Legal.components (legal : S.Legal) (isTarget : Bool) (span : Span)
    (slots : List (Option Expr)) (nodes : slotNodes slots ⊆ S.inventory.nodes)
    {known : List NodeId} :
    S.Acts known ((slotNodes slots).map Expr.id) [] (slotSkeleton slots)
      (components isTarget span slots) := by
  match slots with
  | [] => exact Acts.pure _
  | none :: rest =>
    have others (t : Option Ty) : S.Acts known ((slotNodes rest).map Expr.id) [] (slotSkeleton rest)
        (do return t :: (← Check.components isTarget span rest)) :=
      (legal.components isTarget span rest nodes).bindQuiet fun _ => Acts.pure _
    rw [Check.components]
    split
    · exact (Acts.pure _).bind others
    · exact Quiet.bind (Acts.map (Quiet.reject _ _) some) others
  | some e :: rest =>
    simp only [slotNodes, append_subset] at nodes
    rw [Check.components, slotNodes, map_append, slotSkeleton]
    exact (legal.expression e nodes.1 { isTarget }).bind fun t =>
      (legal.components isTarget span rest nodes.2).bindQuiet fun _ => Acts.pure _

theorem Legal.elements (legal : S.Legal) (slots : List (Option Expr))
    (nodes : slotNodes slots ⊆ S.inventory.nodes) (common : Option Ty) (valid : Bool)
    {known : List NodeId} :
    S.Acts known ((slotNodes slots).map Expr.id) [] [] (elements slots common valid) := by
  match slots with
  | [] => exact Acts.pure _
  | none :: rest =>
    exact (Acts.pure none).reorder (fun _ => Nat.zero_le _) (nil_subset _)
  | some e :: rest =>
    simp only [slotNodes, append_subset] at nodes
    rw [Check.elements, slotNodes, map_append]
    refine Acts.reorder ((legal.expression e nodes.1 {}).bind fun t =>
      (?_ : S.Acts _ ((slotNodes rest).map Expr.id) [] [] _)) (fun _ =>
        Nat.le_refl _) (nil_subset _)
    split
    · exact legal.elements rest nodes.2 _ _
    · split
      · exact (Acts.pure _).reorder (fun _ => Nat.zero_le _) (nil_subset _)
      · exact legal.elements rest nodes.2 _ _

theorem Legal.bound (legal : S.Legal) (limit : Option Expr)
    (nodes : optionNodes limit ⊆ S.inventory.nodes) {known : List NodeId} :
    S.Acts known ((optionNodes limit).map Expr.id) [] [] (bound limit) := by
  match limit with
  | none => exact Acts.pure _
  | some e =>
    refine Acts.reorder ((legal.expression e nodes {}).bindQuiet fun t => ?_)
      (fun _ => Nat.le_refl _) (nil_subset _)
    exact legal.quiet (.requireConvertible _ _ _)

end

end Site

end ContractTyping
