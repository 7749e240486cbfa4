import ContractTyping.Check.Unit
import ContractTyping.Proofs.Recording
import ContractTyping.Proofs.Resolved

/-!
# Checks that pass

A check of a source unit, seen from its end (`Ending`). Findings are only ever added to
(`Findings.Extends`), so what a piece of the check records is still there at the end, and a check
that passes (`Ending.Passes`) has not reported an error anywhere.
-/

namespace ContractTyping

open Check

/-- Whether what has been found is still there. The first contract that is marked for an inheritance
cycle comes with an error. -/
structure Findings.Extends (σ τ : Findings) : Prop where
  expression : ∀ id t, σ.expression? id = some t → τ.expression? id = some t
  var : ∀ id t, σ.var? id = some t → τ.var? id = some t
  diagnostics : σ.diagnostics ⊆ τ.diagnostics
  cyclic : σ.cyclic ⊆ τ.cyclic
  reported : σ.cyclic = [] → τ.cyclic = [] ∨ ∃ d ∈ τ.diagnostics, d.isError

namespace Findings.Extends

variable {σ τ υ : Findings}

theorem refl (σ : Findings) : σ.Extends σ :=
  ⟨fun _ _ known => known, fun _ _ known => known, List.Subset.refl _, List.Subset.refl _, .inl⟩

theorem trans (first : σ.Extends τ) (second : τ.Extends υ) : σ.Extends υ where
  expression id t known := second.expression id t (first.expression id t known)
  var id t known := second.var id t (first.var id t known)
  diagnostics := List.Subset.trans first.diagnostics second.diagnostics
  cyclic := List.Subset.trans first.cyclic second.cyclic
  reported none := by
    rcases first.reported none with still | ⟨d, mem, isError⟩
    · exact second.reported still
    · exact .inr ⟨d, second.diagnostics mem, isError⟩

end Findings.Extends

/-- How the check of a source unit ended. -/
structure Ending where
  unit : SourceUnit
  settings : Settings
  found : Findings

namespace Ending

variable {α β : Type} {E : Ending}

/-- Where a piece of the check runs. -/
def context (E : Ending) (scope : Scope) : Context :=
  { contextOf E.unit E.settings with scope }

def declarations (E : Ending) : Declarations := .ofUnit E.unit

/-- Whether the check found no error. -/
structure Passes (E : Ending) : Prop where
  errors : ∀ d ∈ E.found.diagnostics, d.isError = false
  acyclic : E.found.cyclic = []

/-- Whether a piece of the check only adds to the findings. -/
def Grows (E : Ending) (m : Check α) : Prop :=
  ∀ scope σ a τ, m (E.context scope) σ = .ok (a, τ) → σ.Extends τ

namespace Grows

variable {m : Check α} {f : α → Check β}

theorem pure (a : α) : E.Grows (pure a) := by
  intro scope σ a' τ run
  cases run
  exact .refl σ

theorem bind (first : E.Grows m) (next : ∀ a, E.Grows (f a)) : E.Grows (m >>= f) := by
  intro scope σ b τ run
  obtain ⟨a, υ, one, run⟩ := bind_ok.mp run
  exact (first scope σ a υ one).trans (next a scope υ b τ run)

theorem read {f : Context → Check β} (next : ∀ scope, E.Grows (f (E.context scope))) :
    E.Grows (read >>= f) :=
  fun scope σ b τ run => next scope scope σ b τ run

theorem fail (fault : Fault) : E.Grows (fail fault : Check α) := by
  intro scope σ a τ run
  cases run

theorem record (issue : Issue) (span : Span) (severity : Severity) :
    E.Grows (record issue span severity) := by
  intro scope σ a τ run
  cases run
  exact ⟨fun _ _ => id, fun _ _ => id, List.subset_append_left _ _, List.Subset.refl _, .inl⟩

theorem setEmitPending (pending : Bool) : E.Grows (setEmitPending pending) := by
  intro scope σ a τ run
  cases run
  exact ⟨fun _ _ => id, fun _ _ => id, List.Subset.refl _, List.Subset.refl _, .inl⟩

end Grows

end Ending

end ContractTyping
