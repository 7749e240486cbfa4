import ContractTyping.Proofs.Effect.Walk

/-!
# Effects of checking contracts

The parts of a source unit: each types at most what its inventory lists (`Legal.unitPart`).
-/

namespace ContractTyping

open Check List Inventory

namespace Site

variable {S : Site} (legal : S.Legal)

include legal

/-- Whether the contracts found on the way to a cycle may be marked. -/
def MayLoop (S : Site) (c : Contract) : Prop :=
  ∀ cycle, S.here.declarations.cycle? c = some cycle → ∀ id ∈ c.id :: cycle, S.loops id

theorem Legal.isCyclic {c : Contract} (loops : S.MayLoop c) : S.Quiet (isCyclic c) := by
  intro σ _
  by_cases known : σ.cyclic.contains c.id = true
  · refine ⟨.ok (true, {}), ?_, Fits.nothing, fun σ' related => ?_⟩
    · rw [isCyclic_run, if_pos known, after_nothing]
    · rw [isCyclic_run, related.cyclic, if_pos known, after_nothing]
  cases found : S.here.declarations.cycle? c with
  | none =>
    refine ⟨.ok (false, {}), ?_, Fits.nothing, fun σ' related => ?_⟩
    · rw [isCyclic_run, if_neg known, found, after_nothing]
    · rw [isCyclic_run, related.cyclic, if_neg known, legal.alike.cycle, found, after_nothing]
  | some cycle =>
    -- The marks depend on the graph alone, and the report on the marks from before.
    let anchor := (cycle.head?.bind S.here.declarations.contract?).getD c
    let new : List Diagnostic := if cycle.any σ.cyclic.contains then []
      else [⟨.inheritanceCycle anchor.name, anchor.span, .error⟩]
    have marked (k : Context) (τ : Findings) (same : τ.cyclic = σ.cyclic)
        (contracts : k.declarations.contract? = S.here.declarations.contract?) :
        cycleFindings k c cycle τ = τ.grow { diagnostics := new, cyclic := c.id :: cycle } := by
      simp [cycleFindings, Findings.grow, TypeTable.insertAll, new, anchor, same, contracts]
    refine ⟨.ok (true, { diagnostics := new, cyclic := c.id :: cycle }), ?_, ?_,
      fun σ' related => ?_⟩
    · rw [isCyclic_run, if_neg known, found]
      exact congrArg (fun τ => Except.ok (true, τ)) (marked _ σ rfl rfl)
    · exact Fits.untyping rfl rfl (Option.some_ne_none _).symm (loops cycle found)
    · rw [isCyclic_run, related.cyclic, if_neg known, legal.alike.cycle, found]
      exact congrArg (fun τ => Except.ok (true, τ))
        (marked _ σ' related.cyclic legal.alike.contract)

theorem Legal.contract {c : Contract} (inside : c.inventory.Within S.inventory)
    (loops : S.MayLoop c) : S.Covers c.inventory (contract c) := by
  refine Quiet.bind (legal.isCyclic loops) fun cyclic => ?_
  split
  · exact (Acts.pure _).weaken (List.Subset.refl _) (fun _ => Nat.zero_le _)
      (fun _ => Nat.zero_le _) (List.Subset.refl _)
  · refine legal.covers (.members fun v mem => legal.vars v (inside.vars ?_)) inside
    exact mem_append_right _ (mem_append_left _ mem)

/-- Checking a part of a source unit types at most what stands in it, and each of it once. -/
theorem Legal.unitPart {part : UnitPart} (inside : part.inventory.Within S.inventory)
    (loops : ∀ c, part = .contract c → S.MayLoop c) :
    S.Covers part.inventory (unitPart part) := by
  cases part with
  | contract c => exact legal.contract inside (loops c rfl)
  | struct s => exact legal.covers (.struct s) inside
  | function f => exact legal.covers (.function f) inside
  | usingFor u => exact legal.covers (.usingFor u) inside

end Site

end ContractTyping
