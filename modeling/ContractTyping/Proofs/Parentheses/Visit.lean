import ContractTyping.Proofs.Parentheses.Basic

/-!
# What one visit says about parentheses

Three facts about the check of one expression, with parentheses or without.

* What an expression is made of on the way to its root is visited (`Expr.spine_subset`), so that it
  is not the new parentheses.
* A callee has the same type whether the arguments of the call are known or not, unless it asks for
  them (`expression_without_arguments`). In parentheses, they are not known.
* A callee with options is called like the callee itself if that takes options, and not at all
  otherwise (`callKind_of_callee`).
-/

namespace ContractTyping

open Check List
variable {e : Expr}

/-! ## The spine of an expression -/

mutual

/-- An expression, what stands before its dots, brackets and arguments, and components of tuples. -/
def Expr.spine : Expr → List NodeId
  | .member node base _ | .index node base _ => node.id :: base.spine
  | .tuple node components false => node.id :: slotsSpine components
  | .call node callee _ _ | .callOptions node callee _ _ => node.id :: callee.spine
  | e => [e.id]

def slotsSpine : List (Option Expr) → List NodeId
  | [] => []
  | none :: rest => slotsSpine rest
  | some e :: rest => e.spine ++ slotsSpine rest

end

theorem Expr.id_mem_spine (e : Expr) : e.id ∈ e.spine := by
  cases e with
  | tuple node components isInline => cases isInline <;> exact mem_cons_self
  | _ => exact mem_cons_self

theorem Expr.id_ne {id : NodeId} (clear : id ∉ e.spine) : e.id ≠ id :=
  fun same => clear (same ▸ e.id_mem_spine)

theorem Expr.withoutOptions_mem_spine (e : Expr) : e.withoutOptions.id ∈ e.spine := by
  match e with
  | .callOptions _ callee _ _ => exact mem_cons_of_mem _ callee.withoutOptions_mem_spine
  | .tuple _ _ false | .tuple _ _ true => exact mem_cons_self
  | .identifier .. | .elementaryType .. | .literal .. | .unary .. | .binary .. | .assignment ..
  | .conditional .. | .call .. | .create .. | .await .. | .member .. | .index .. | .slice .. =>
    exact mem_cons_self

mutual

/-- What an expression is made of on the way to its root is visited with it. -/
theorem Expr.spine_subset (a : Annotations) (e : Expr) : e.spine ⊆ (e.visited a).map Expr.id := by
  match e with
  | .member _ base _ => exact cons_subset_cons _ (base.spine_subset a)
  | .index _ base _ | .callOptions _ base _ _ =>
    refine cons_subset_cons _ (List.Subset.trans (base.spine_subset a) ?_)
    exact map_subset _ (subset_append_left _ _)
  | .call _ callee _ _ =>
    refine cons_subset_cons _ (List.Subset.trans (callee.spine_subset a) ?_)
    exact map_subset _ (subset_append_right _ _)
  | .tuple _ slots false => exact cons_subset_cons _ (slotsSpine_subset a slots)
  | .tuple _ _ true | .identifier .. | .elementaryType .. | .literal .. | .unary .. | .binary ..
  | .assignment .. | .conditional .. | .create .. | .await .. | .slice .. =>
    exact cons_subset.mpr ⟨mem_map_of_mem (Expr.self_mem_visited a _), nil_subset _⟩

theorem slotsSpine_subset (a : Annotations) (slots : List (Option Expr)) :
    slotsSpine slots ⊆ (slotsVisited a slots).map Expr.id := by
  match slots with
  | [] => exact nil_subset _
  | none :: rest => exact slotsSpine_subset a rest
  | some e :: rest =>
    rw [slotsVisited, map_append]
    exact append_subset.mpr ⟨subset_append_of_subset_left _ (e.spine_subset a),
      subset_append_of_subset_right _ (slotsSpine_subset a rest)⟩

end

/-- What an expression is made of on the way to its root is not the new parentheses. -/
theorem Enclosure.fresh_not_mem_spine {E : Enclosure} {demand : Demand} {scope : Scope}
    {σ τ : Findings} {t : Ty}
    (run : expression e demand (E.context scope) σ = .ok (t, τ)) (later : τ.Extends E.found) :
    E.wrapping.fresh.id ∉ e.spine := by
  intro mem
  obtain ⟨n, inside, same⟩ := mem_map.mp (e.spine_subset E.found.annotations mem)
  have runs : E.toEnding.Runs False _ _ := Ending.runs_expression e demand
  obtain ⟨_, υ, t', φ, -, visit, after⟩ := runs.2 scope σ t τ nofun run later n inside
  exact ne_fresh (Records.expression n _ _ υ t' φ visit) after same

/-! ## Arguments that are not known -/

theorem Candidate.select_none (name : String) (contract : Option NodeId)
    (candidates : List Candidate) (arguments : Arguments) :
    select name contract candidates none = select name contract candidates (some arguments) ∨
      ∃ types, select name contract candidates none = .ok (.overloaded types) := by
  unfold select
  match distinct (candidates.filter fun c => !c.isHidden contract) with
  | [] | [_] => exact .inl rfl
  | _ :: _ :: _ => exact .inr ⟨_, rfl⟩

/-- Only what is pushed to an array has to be known. -/
theorem BuiltinMember.of_none (c : Context) (arguments : Arguments) (base : Ty) (name : String) :
    of c none base name = of c (some arguments) base name ∨
      arguments.isEmpty = true ∧ ∃ t, of c (some arguments) base name = some (.ok t) ∧
        t.callKind? = some .arrayPush := by
  have ofArray (array : Ty) : ofArray none array name = ofArray (some arguments) array name ∨
      arguments.isEmpty = true ∧
      ∃ t, BuiltinMember.ofArray (some arguments) array name = some (.ok t) ∧
        t.callKind? = some .arrayPush := by
    unfold BuiltinMember.ofArray
    extract_lets growing
    clear_value growing
    split
    · exact .inl rfl
    · exact .inl rfl
    · by_cases empty : arguments.isEmpty = true
      · refine .inr ⟨empty, _, if_pos empty, rfl⟩
      · exact .inl (if_neg empty).symm
    · exact .inl rfl
  cases base with
  | byteArray isString place => exact ofArray _
  | array element length place => exact ofArray _
  | _ => exact .inl rfl

namespace Check

variable {α : Type} {asked : Prop}

/-- Whether a check for a type ends in the same way without the arguments of a call, unless several
functions are left or the arguments are asked for. -/
def Defers (asked : Prop) (m m' : Check Ty) : Prop :=
  ∀ c σ t τ, m c σ = .ok (t, τ) → m' c σ = .ok (t, τ) ∨
    (∃ types υ, m' c σ = .ok (.overloaded types, υ)) ∨ asked ∧ t.callKind? = some .arrayPush

namespace Defers

theorem refl (m : Check Ty) : Defers asked m m := fun _ _ _ _ run => .inl run

theorem bind {m : Check α} {f f' : α → Check Ty} (next : ∀ a, Defers asked (f a) (f' a)) :
    Defers asked (m >>= f) (m >>= f') := by
  intro c σ t τ run
  obtain ⟨a, υ, one, two⟩ := bind_ok.mp run
  rw [bind_run one]
  exact next a c υ t τ two

theorem read {f f' : Context → Check Ty} (next : ∀ c, Defers asked (f c) (f' c)) :
    Defers asked (MonadReader.read >>= f) (MonadReader.read >>= f') :=
  fun c σ t τ run => next c c σ t τ run

theorem selectCandidate (name : String) (candidates : List Candidate) (arguments : Arguments)
    (span : Span) : Defers asked (selectCandidate name candidates (some arguments) span)
      (selectCandidate name candidates none span) := by
  refine read fun c => ?_
  rcases Candidate.select_none name c.contractId? candidates arguments with same | ⟨types, several⟩
  · rw [same]
    exact refl _
  · rw [several]
    exact fun c σ t τ _ => .inr (.inl ⟨types, σ, rfl⟩)

theorem identifierType (node : Node) (name : String) (target : Option NodeId)
    (overloads : List NodeId) (arguments : Arguments) :
    Defers asked (identifierType node name target overloads { arguments := some arguments })
      (identifierType node name target overloads {}) := by
  unfold Check.identifierType
  dsimp only
  generalize (if overloads.isEmpty then target.toList else overloads) = targets
  split
  · exact refl _
  refine bind fun declarations => ?_
  split
  · exact refl _
  · exact refl _
  · exact bind fun several => selectCandidate _ _ _ _

theorem selectMember (members : List Member) (base : Ty) (name : String) (arguments : Arguments)
    (span : Span) : Defers asked (selectMember members base name (some arguments) span)
      (selectMember members base name none span) := by
  match members with
  | [] | [_] => exact refl _
  | _ :: _ :: _ => exact selectCandidate _ _ _ _

theorem memberType (base : Ty) (name : String) (arguments : Arguments) (span : Span) :
    Defers (arguments.isEmpty = true) (memberType base name (some arguments) span)
      (memberType base name none span) := by
  unfold Check.memberType
  split
  · exact refl _
  refine read fun c => ?_
  rcases BuiltinMember.of_none c arguments base name with same | ⟨empty, pushed, found, isPush⟩
  · rw [same]
    split
    · exact refl _
    · refine bind fun members => ?_
      split
      · exact bind fun attached => selectMember _ _ _ _ _
      · exact bind fun us => bind fun attached => selectMember _ _ _ _ _
  · rw [found]
    intro c' σ t τ run
    cases run
    exact .inr (.inr ⟨empty, isPush⟩)

end Defers

end Check

/-- A callee has the same type in parentheses, unless it asks for the arguments of the call. -/
theorem expression_without_arguments {E : Ending} {scope : Scope} {σ τ : Findings} {t : Ty}
    {callee : Expr} {passed : Arguments} {arguments : List Expr}
    (run : expression callee { arguments := some passed } (E.context scope) σ = .ok (t, τ))
    (later : τ.Extends E.found) (size : passed.types.length = arguments.length)
    (indifferent : ¬ AsksArguments E.unit E.settings
      ⟨E.found.annotations, E.found.diagnostics⟩ arguments
      callee) : expression callee {} (E.context scope) σ = .ok (t, τ) := by
  match callee with
  | .identifier node name target overloads =>
    have start : σ.Extends E.found := (Advances.expression _ _ _ σ t τ run).toExtends.trans later
    obtain ⟨t', υ, one, two⟩ := bind_ok.mp run
    have defers : Defers False _ _ := .identifierType node name target overloads passed
    rcases defers _ σ t' υ one with same | ⟨types, φ, several⟩ | ⟨never, -⟩
    · exact (bind_run same).trans two
    · exact (indifferent ⟨scope, σ, φ, types, start.var, several⟩).elim
    · exact never.elim
  | .member node base name =>
    obtain ⟨baseType, υ, one, rest⟩ := bind_ok.mp run
    have middle : υ.Extends E.found :=
      (((Advances.memberType _ _ _ _).thenAnnotate _) _ υ t τ rest).toExtends.trans later
    obtain ⟨t', φ, two, three⟩ := bind_ok.mp rest
    rcases Defers.memberType baseType name passed node.span _ υ t' φ two with
      same | ⟨types, ψ, several⟩ | ⟨empty, isPush⟩
    · exact (bind_run one).trans ((bind_run same).trans three)
    · have recorded := middle.expression _ _ (Records.expression base {} _ _ _ _ one)
      exact (indifferent (.inl ⟨scope, υ, ψ, baseType, types, middle.var, recorded, several⟩)).elim
    · have none : arguments = [] := by
        rw [isEmpty_iff.mp empty] at size
        exact length_eq_zero_iff.mp size.symm
      have recorded : E.found.annotations.expression? node.id = some t' :=
        later.expression _ _ (annotate_value three ▸ Records.annotate _ _ _ _ _ _ three)
      exact (indifferent (.inr ⟨none, by rw [recorded]; exact isPush⟩)).elim
  | .callOptions node inner names options =>
    obtain ⟨u, υ, one, rest⟩ := bind_ok.mp run
    have advances (t : Ty) : Advances (do
        let types ← expressions options
        let given := names.zip (types.zip (options.map Expr.span))
        annotate node.id (← callOptionsType t given node.span)) :=
      (Advances.expressions _).bind fun _ => (Remarks.callOptionsType _ _ _).advances.thenAnnotate _
    obtain ⟨t', φ, two, three⟩ := bind_ok.mp rest
    have between : φ.Extends E.found := (advances t' _ φ t τ three).toExtends.trans later
    have same := expression_without_arguments two between size indifferent
    exact (bind_run one).trans ((bind_run same).trans three)
  | .tuple _ _ true | .tuple _ _ false | .index _ _ none | .index _ _ (some _) | .elementaryType ..
  | .literal .. | .unary .. | .binary .. | .assignment .. | .conditional .. | .call .. | .create ..
  | .await .. | .slice .. => exact run

/-! ## Options -/

namespace Check

variable {c : Context} {σ τ : Findings} {t : Ty}
variable {f g : FunctionTy} {options : List (String × Ty × Span)}

theorem setOption_kind {name : String} {expected : Ty}
    (set : setOption c f name = .ok (g, expected)) : g.kind = f.kind := by
  simp only [setOption, Bind.bind, Except.bind] at set
  repeat' split at set
  all_goals first | cases set; rfl | cases set

theorem setOptions_kind {before : List String}
    (run : setOptions f options before c σ = .ok (g, τ)) : g.kind = f.kind := by
  induction options generalizing f before σ with
  | nil => cases run; rfl
  | cons option rest ih =>
    obtain ⟨name, t, span⟩ := option
    unfold setOptions at run
    split at run
    · exact ih run
    · rw [read_run] at run
      cases set : setOption c f name with
      | error issue =>
        rw [set] at run
        exact ih run
      | ok result =>
        rw [set] at run
        obtain ⟨_, υ, -, run⟩ := bind_ok.mp run
        exact (ih run).trans (setOption_kind set)

/-- Options do not change how a function is called, but not all functions take them. -/
theorem callOptionsType_kind {callee : Ty} {span : Span}
    (run : callOptionsType callee options span c σ = .ok (t, τ)) :
    t.callKind? = callee.callKind?.filter CallKind.takesOptions := by
  unfold callOptionsType at run
  split at run
  · cases run
    rfl
  · next traits parameters returns =>
    split at run
    · next takes =>
      obtain ⟨g, υ, set, run⟩ := bind_ok.mp run
      cases run
      have kept : g.kind = traits.kind := setOptions_kind set
      show some g.kind = (some traits.kind).filter _
      rw [kept, Option.filter_some, if_pos takes]
    · next refuses =>
      cases run
      exact ((Option.filter_some ..).trans (if_neg refuses)).symm
  · next other =>
    cases run
    cases callee <;> first | rfl | exact absurd rfl (other _ _ _)

/-- How a callee with options is called, and without them. -/
theorem callKind_of_callee {σ τ : Findings} {t : Ty} {callee : Expr} {demand : Demand}
    (run : expression callee demand c σ = .ok (t, τ)) :
    ∃ head, τ.expression? callee.withoutOptions.id = some head ∧
      (t.callKind? = head.callKind? ∨
        (∃ node inner names options, callee = .callOptions node inner names options) ∧
        t.callKind? = head.callKind?.filter CallKind.takesOptions) := by
  match callee with
  | .callOptions node inner names options =>
    obtain ⟨_, υ, -, run⟩ := bind_ok.mp run
    obtain ⟨t', φ, one, run⟩ := bind_ok.mp run
    obtain ⟨types, ψ, two, run⟩ := bind_ok.mp run
    obtain ⟨t'', χ, three, four⟩ := bind_ok.mp run
    cases annotate_value four
    obtain ⟨head, recorded, kind⟩ := callKind_of_callee one
    refine ⟨head, ?_, .inr ⟨⟨_, _, _, _, rfl⟩, ?_⟩⟩
    · refine (Advances.annotate _ _ _ _ _ _ four).expression _ _ ?_
      refine ((Remarks.callOptionsType _ _ _).advances _ _ _ _ three).expression _ _ ?_
      exact (Advances.expressions _ _ _ _ _ two).expression _ _ recorded
    · rw [callOptionsType_kind three]
      rcases kind with same | ⟨-, same⟩
      · rw [same]
      · rw [same]
        cases head.callKind? with
        | none => rfl
        | some kind =>
          rw [Option.filter_some]
          split
          · next takes => rw [Option.filter_some, if_pos takes]
          · rfl
  | .identifier .. | .elementaryType .. | .literal .. | .unary .. | .binary .. | .assignment ..
  | .conditional .. | .call .. | .create .. | .await .. | .member .. | .index .. | .slice ..
  | .tuple .. =>
    exact ⟨t, Records.expression _ demand c σ t τ run, .inl rfl⟩

end Check

end ContractTyping
