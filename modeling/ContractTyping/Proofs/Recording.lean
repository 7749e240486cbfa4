import ContractTyping.Check.Contract

/-!
# Recording

Tables of types as maps, and what the operations of a check do to its findings.
-/

namespace ContractTyping

open Check List
variable {t : Ty}

namespace TypeTable

variable {table : TypeTable}

theorem get?_cons (id other : NodeId) (t : Ty) (rest : TypeTable) :
    get? ((other, t) :: rest) id = if id = other then some t else get? rest id := by
  unfold get?
  rw [lookup_cons]
  by_cases equal : id = other
  · simp [equal]
  · simp [equal, beq_eq_false_iff_ne.mpr equal]

/-- Setting the type of a node changes no other type. -/
theorem get?_insert (id other : NodeId) (t : Ty) (table : TypeTable) :
    (insert id t table).get? other = if other = id then some t else table.get? other := by
  induction table with
  | nil => exact get?_cons other id t []
  | cons entry rest ih =>
    obtain ⟨first, old⟩ := entry
    unfold insert
    split
    · exact get?_cons other id t _
    · split
      · next equal =>
        subst equal
        rw [get?_cons, get?_cons]
        split <;> rfl
      · next differs =>
        rw [get?_cons, get?_cons, ih]
        by_cases equal : other = first
        · subst equal
          simp [Ne.symm differs]
        · simp [equal]

theorem mem_of_get? {id : NodeId} (found : table.get? id = some t) : (id, t) ∈ table := by
  induction table with
  | nil => cases found
  | cons entry rest ih =>
    rw [get?_cons] at found
    split at found
    · next equal =>
      cases found
      rw [equal]
      exact mem_cons_self
    · exact mem_cons_of_mem _ (ih found)

theorem eq_or_mem_of_mem_insert {id : NodeId} {entry : NodeId × Ty}
    (mem : entry ∈ insert id t table) : entry = (id, t) ∨ entry ∈ table := by
  induction table with
  | nil => exact .inl (mem_singleton.mp mem)
  | cons first rest ih =>
    unfold insert at mem
    split at mem
    · exact mem_cons.mp mem
    · split at mem
      · exact (mem_cons.mp mem).imp_right (mem_cons_of_mem _)
      · rcases mem_cons.mp mem with rfl | later
        · exact .inr mem_cons_self
        · exact (ih later).imp_right (mem_cons_of_mem _)

end TypeTable

namespace Findings

/-- The type recorded for an expression. -/
def expression? (σ : Findings) (id : NodeId) : Option Ty := σ.annotations.expression? id

/-- The type recorded for a variable. -/
def var? (σ : Findings) (id : NodeId) : Option Ty := σ.annotations.var? id

end Findings

/-! ## Runs -/

namespace Check

variable {α β : Type} {c : Context} {σ τ : Findings}
variable {a : Ty} {m : Check α} {xs : List α}

theorem pure_ok {a b : α} : (pure a : Check α) c σ = .ok (b, τ) ↔ b = a ∧ τ = σ := by
  show Except.ok (a, σ) = .ok (b, τ) ↔ _
  rw [Except.ok.injEq, Prod.mk.injEq, eq_comm, @eq_comm _ σ]

theorem bind_ok {f : α → Check β} {b : β} :
    (m >>= f) c σ = .ok (b, τ) ↔ ∃ a υ, m c σ = .ok (a, υ) ∧ f a c υ = .ok (b, τ) := by
  show (m c σ).bind (fun p => f p.1 c p.2) = .ok (b, τ) ↔ _
  cases m c σ with
  | ok p =>
    refine ⟨fun h => ⟨p.1, p.2, rfl, h⟩, ?_⟩
    rintro ⟨a, υ, same, h⟩
    cases same
    exact h
  | error fault => simp [Except.bind]

theorem bind_error {f : α → Check β} {fault : Fault} : (m >>= f) c σ = .error fault ↔
      m c σ = .error fault ∨ ∃ a υ, m c σ = .ok (a, υ) ∧ f a c υ = .error fault := by
  show (m c σ).bind (fun p => f p.1 c p.2) = .error fault ↔ _
  cases m c σ with
  | ok p =>
    refine ⟨fun h => .inr ⟨p.1, p.2, rfl, h⟩, ?_⟩
    rintro (h | ⟨a, υ, same, h⟩)
    · cases h
    · cases same
      exact h
  | error other => simp [Except.bind]

theorem bind_run {f : α → Check β} {a : α} (run : m c σ = .ok (a, τ)) :
    (m >>= f) c σ = f a c τ := by
  show (m c σ).bind (fun p => f p.1 c p.2) = _
  rw [run]
  rfl

/-- Every result of a sequence is the result of one of its checks. -/
theorem mapM_run {f : α → Check β} {ys : List β} (run : xs.mapM f c σ = .ok (ys, τ)) :
    ∀ y ∈ ys, ∃ x ∈ xs, ∃ υ υ', f x c υ = .ok (y, υ') := by
  induction xs generalizing σ ys with
  | nil =>
    cases run
    exact nofun
  | cons x rest ih =>
    rw [mapM_cons] at run
    obtain ⟨first, υ, one, run⟩ := bind_ok.mp run
    obtain ⟨others, υ', more, run⟩ := bind_ok.mp run
    cases run
    intro y mem
    rcases mem_cons.mp mem with rfl | later
    · exact ⟨x, mem_cons_self, σ, υ, one⟩
    · obtain ⟨x', mem', found⟩ := ih more y later
      exact ⟨x', mem_cons_of_mem _ mem', found⟩

theorem read_run (f : Context → Check α) : (read >>= f) c σ = f c c σ := rfl

theorem get_run (f : Findings → Check α) : (get >>= f) c σ = f σ c σ := rfl

theorem set_run (f : PUnit → Check α) : (set τ >>= f) c σ = f ⟨⟩ c τ := rfl

theorem ofExcept_run (result : Except Fault α) : ofExcept result c σ = result.map (·, σ) := by
  cases result <;> rfl

theorem setEmitPending_run (pending : Bool) :
    setEmitPending pending c σ = .ok ((), { σ with emitPending := pending }) := rfl

theorem takeEmitPending_run :
    takeEmitPending c σ = .ok (σ.emitPending, { σ with emitPending := false }) := rfl

theorem expression?_run (id : NodeId) : expression? id c σ = .ok (σ.expression? id, σ) := rfl

theorem annotate_run (id : NodeId) (t : Ty) : annotate id t c σ =
    if (σ.expression? id).isSome then .error (.typedTwice id)
    else .ok (t, { σ with annotations := { σ.annotations with
      expressions := σ.annotations.expressions.insert id t } }) := by
  unfold annotate
  rw [get_run]
  simp only [Annotations.annotateExpression, Annotations.annotatedTwice?, set_run,
    Findings.expression?, Annotations.expression?]
  by_cases known : (σ.annotations.expressions.get? id).isSome <;>
    simp only [known, ↓reduceIte] <;> rfl

theorem annotate_value {id : NodeId} (run : annotate id t c σ = .ok (a, τ)) : t = a := by
  rw [annotate_run] at run
  split at run
  · cases run
  · cases run
    rfl

theorem annotate_recorded {id : NodeId} (run : annotate id t c σ = .ok (a, τ)) :
    τ.expression? id = some a := by
  rw [annotate_run] at run
  split at run
  · cases run
  · cases run
    exact (TypeTable.get?_insert ..).trans (if_pos rfl)

theorem annotateVariable_run (id : NodeId) (t : Ty) : annotateVariable id t c σ =
    if (σ.var? id).isSome then .error (.typedTwice id)
    else .ok ((), { σ with annotations := { σ.annotations with
      vars := σ.annotations.vars.insert id t } }) := by
  unfold annotateVariable
  rw [get_run]
  simp only [Annotations.annotateVariable, Annotations.annotatedTwice?, set_run, Findings.var?,
    Annotations.var?]
  by_cases known : (σ.annotations.vars.get? id).isSome <;> simp only [known, ↓reduceIte] <;> rfl

theorem annotateVariable_recorded {id : NodeId} {a : Unit}
    (run : annotateVariable id t c σ = .ok (a, τ)) : τ.var? id = some t := by
  rw [annotateVariable_run] at run
  split at run
  · cases run
  · cases run
    exact (TypeTable.get?_insert ..).trans (if_pos rfl)

theorem variableType_run (v : Variable) : variableType v c σ =
    match σ.var? v.id with
    | some t => .ok (t, σ)
    | none => (Declarations.orInvalid (c.declarations.declaredType v)).map (·, σ) := by
  unfold variableType
  rw [get_run]
  unfold Findings.var?
  cases σ.annotations.var? v.id with
  | some t => rfl
  | none => exact ofExcept_run _

/-! ## Pieces that only look -/

/-- Whether a piece of a check leaves the findings as they are. -/
def Looks (m : Check α) : Prop := ∀ c σ a τ, m c σ = .ok (a, τ) → τ = σ

namespace Looks

theorem pure (a : α) : Looks (pure a) := by
  intro c σ a' τ run
  cases run
  rfl

theorem bind {f : α → Check β} (first : Looks m) (next : ∀ a, Looks (f a)) : Looks (m >>= f) := by
  intro c σ b τ run
  obtain ⟨a, υ, one, two⟩ := bind_ok.mp run
  exact (next a c υ b τ two).trans (first c σ a υ one)

theorem read {f : Context → Check β} (next : ∀ c, Looks (f c)) : Looks (MonadReader.read >>= f) :=
  fun c σ b τ run => next c c σ b τ run

theorem mapM {f : α → Check β} (each : ∀ x, Looks (f x)) : Looks (xs.mapM f) := by
  induction xs with
  | nil => exact pure _
  | cons x rest ih =>
    rw [mapM_cons]
    exact (each x).bind fun y => ih.bind fun ys => pure _

theorem fail (fault : Fault) : Looks (fail fault : Check α) := by
  intro c σ a τ run
  cases run

theorem ofExcept (result : Except Fault α) : Looks (ofExcept result) := by
  cases result with
  | error fault => exact fail fault
  | ok a => exact pure a

theorem expression? (id : NodeId) : Looks (expression? id) := by
  intro c σ a τ run
  cases run
  rfl

theorem variableType (v : Variable) : Looks (variableType v) := by
  intro c σ t τ run
  rw [variableType_run] at run
  split at run
  · cases run
    rfl
  · rw [← ofExcept_run] at run
    exact ofExcept _ c σ t τ run

end Looks

/-- What is recorded about a contract that has a cycle behind it. -/
def cycleFindings (c : Context) (k : Contract) (cycle : List NodeId) (σ : Findings) : Findings :=
  let anchor := (cycle.head?.bind c.declarations.contract?).getD k
  { σ with
    cyclic := k.id :: (cycle ++ σ.cyclic)
    diagnostics := σ.diagnostics ++
      if cycle.any σ.cyclic.contains then []
      else [⟨.inheritanceCycle anchor.name, anchor.span, .error⟩] }

theorem isCyclic_run (k : Contract) : isCyclic k c σ =
    if σ.cyclic.contains k.id then .ok (true, σ)
    else match c.declarations.cycle? k with
      | none => .ok (false, σ)
      | some cycle => .ok (true, cycleFindings c k cycle σ) := by
  unfold isCyclic
  rw [read_run, get_run]
  by_cases known : σ.cyclic.contains k.id = true
  · simp only [known]
    rfl
  · simp only [known]
    cases c.declarations.cycle? k with
    | none => rfl
    | some cycle =>
      unfold cycleFindings
      by_cases seen : cycle.any σ.cyclic.contains = true
      · simp only [seen, ↓reduceIte, append_nil]
        rfl
      · simp only [seen]
        rfl

end Check

end ContractTyping
