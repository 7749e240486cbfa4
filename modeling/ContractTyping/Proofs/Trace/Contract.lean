import ContractTyping.Proofs.Trace.Walk

/-!
# Traces of contracts

What has been found stays found while the parts of a source unit are checked
(`Check.parts_extends`), also where a contract is left out for an inheritance cycle.
-/

namespace ContractTyping

open Check List

/-! ## What is typed -/

/-- The variables that a part of a contract declares, apart from state variables. -/
def ContractPart.variables : ContractPart → List Variable
  | function f => f.inventory.vars
  | event e => e.parameters
  | message m => m.parameters ++ m.returns
  | modifier m => m.inventory.vars
  | struct s => s.members
  | stateVariable _ | usingFor _ => []

def Contract.variables (c : Contract) : List Variable :=
  c.stateVariables ++ c.parts.flatMap ContractPart.variables

theorem ContractPart.variables_subset (part : ContractPart) :
    part.variables ⊆ part.inventory.vars ++ part.inventory.fields := by
  cases part with
  | function _ | event _ | message _ | modifier _ => exact subset_append_left _ _
  | struct _ => exact subset_append_right _ _
  | stateVariable _ | usingFor _ => exact nil_subset _

theorem Contract.variables_subset (c : Contract) :
    c.variables ⊆ c.inventory.vars ++ c.inventory.fields := by
  intro v mem
  refine Inventory.mem_append.mpr (.inr (Inventory.mem_append.mpr ?_))
  rcases mem_append.mp mem with ofState | inParts
  · exact .inl (mem_append_left _ ofState)
  · obtain ⟨part, isPart, inPart⟩ := mem_flatMap.mp inParts
    exact .inr (Inventory.mem_all.mpr ⟨part, isPart, part.variables_subset inPart⟩)

/-! ## What the check of a part keeps -/

namespace Check

variable {c : Context} {σ τ : Findings}

/-- Marking a contract takes nothing away, and the first mark comes with an error. A contract is
left out only if it is marked. -/
theorem isCyclic_extends {k : Contract} {answer : Bool} (run : isCyclic k c σ = .ok (answer, τ)) :
    σ.Extends τ ∧ τ.emitPending = σ.emitPending ∧ (answer = true → τ.cyclic ≠ []) := by
  rw [isCyclic_run] at run
  split at run
  · next known =>
    cases run
    exact ⟨.refl σ, rfl, fun _ => ne_nil_of_mem (contains_iff_mem.mp known)⟩
  · split at run
    · cases run
      exact ⟨.refl σ, rfl, nofun⟩
    · next cycle found =>
      cases run
      refine ⟨⟨fun _ _ known => known, fun _ _ known => known, subset_append_left _ _,
        fun id mem => ?_, fun none => .inr ?_⟩, rfl, fun _ => cons_ne_nil _ _⟩
      · exact mem_cons_of_mem _ (mem_append_right _ mem)
      -- If nothing was marked before, the cycle is new and is reported.
      · have new : cycle.any σ.cyclic.contains ≠ true := by simp [none]
        simp only [cycleFindings, if_neg new]
        exact ⟨_, mem_append_right _ mem_cons_self, rfl⟩

/-- A part of a unit is checked as a whole, once it is asked whether a contract is left out. -/
theorem unitPart_ok {part : UnitPart} (run : unitPart part c σ = .ok ((), τ)) :
    ∃ υ, (υ = σ ∨ ∃ k answer, part = .contract k ∧ isCyclic k c σ = .ok (answer, υ)) ∧
      (υ.emitPending = false → υ.Precedes τ) := by
  cases part with
  | contract k =>
    obtain ⟨answer, υ, asked, run⟩ := bind_ok.mp run
    refine ⟨υ, .inr ⟨k, answer, rfl, asked⟩, fun calm => ?_⟩
    cases answer with
    | true =>
      cases run
      exact .refl _
    | false => exact Proceeds.of_walks (fun _ => .members fun _ _ => trivial) c υ () τ calm run
  | struct s =>
    exact ⟨σ, .inl rfl, fun calm => Proceeds.of_walks (fun _ => .struct s) c σ () τ calm run⟩
  | function f =>
    exact ⟨σ, .inl rfl, fun calm => Proceeds.of_walks (fun _ => .function f) c σ () τ calm run⟩
  | usingFor u =>
    exact ⟨σ, .inl rfl, fun calm => Proceeds.of_walks (fun _ => .usingFor u) c σ () τ calm run⟩

theorem unitPart_extends {part : UnitPart} (calm : σ.emitPending = false)
    (run : unitPart part c σ = .ok ((), τ)) : σ.Extends τ ∧ τ.emitPending = false := by
  obtain ⟨υ, rfl | ⟨k, answer, -, asked⟩, after⟩ := unitPart_ok run
  · exact ⟨(after calm).toExtends, (after calm).emitPending calm⟩
  · obtain ⟨before, pending, -⟩ := isCyclic_extends asked
    have still := pending.trans calm
    exact ⟨before.trans (after still).toExtends, (after still).emitPending still⟩

/-- What was found is still there after more parts, and no mark of an emit statement is left. -/
theorem parts_extends {parts : List UnitPart} (calm : σ.emitPending = false)
    (run : parts.forM unitPart c σ = .ok ((), τ)) : σ.Extends τ ∧ τ.emitPending = false := by
  induction parts generalizing σ with
  | nil =>
    cases run
    exact ⟨.refl _, calm⟩
  | cons part rest ih =>
    obtain ⟨_, υ, first, run⟩ := bind_ok.mp run
    obtain ⟨before, still⟩ := unitPart_extends calm first
    obtain ⟨after, calm⟩ := ih still run
    exact ⟨before.trans after, calm⟩

end Check

end ContractTyping
