import ContractTyping.Proofs.Cycle.Report

/-!
# What the check of a unit visits

The expressions that the check of a source unit gets to (`SourceUnit.Visits`), whatever errors are
found. Inside a contract nothing is visited if it leads to an inheritance cycle. Each of them has
been checked in its own scope, and what was recorded then is still there at the end
(`visited_of_visits`).
-/

namespace ContractTyping

open Check

/-- Whether the check of a unit gets to an expression, in a scope. -/
def SourceUnit.Visits (unit : SourceUnit) (settings : Settings) (a : Annotations) (scope : Scope)
    (e : Expr) : Prop :=
  ∃ part ∈ unit.parts, (∀ c, part = .contract c → unit.Enters settings c) ∧
    ∃ visit ∈ part.visits, visit.scope = scope ∧ e ∈ visit.expr.visited a

section Unit

variable {unit : SourceUnit} {settings : Settings} {found : Findings}

variable (run : unit.parts.forM unitPart (contextOf unit settings) {} = .ok ((), found))

include run

/-- The members of a contract that is entered are checked. -/
theorem ends_of_enters {c : Contract} (enters : unit.Enters settings c) :
    (Ending.mk unit settings found).Ends {} (partBody (.contract c)) () := by
  obtain ⟨before, after, σ, τ, parts, arrive, asked⟩ := enters
  rw [parts, List.forM_eq_forM, List.forM_append] at run
  obtain ⟨_, σ', arrive', run⟩ := bind_ok.mp run
  cases arrive.symm.trans arrive'
  rw [List.forM_cons] at run
  obtain ⟨_, υ, pass, leave⟩ := bind_ok.mp run
  let stop : Stop unit settings (.contract c) found :=
    ⟨before, after, parts, σ, υ, arrive, pass, leave⟩
  have members : contract c (contextOf unit settings) σ = .ok ((), υ) := pass
  rw [contract_eq, bind_run asked] at members
  have calm : τ.emitPending = false :=
    (isCyclic_extends asked).2.1.trans (parts_extends rfl arrive).2
  exact ⟨τ, υ, calm, members, stop.extends_⟩

/-- What the check of a unit visits has been checked in its scope. -/
theorem visited_of_visits {scope : Scope} {e : Expr}
    (visits : unit.Visits settings found.annotations scope e) :
    (Ending.mk unit settings found).Visited False scope e := by
  obtain ⟨part, inUnit, entered, visit, inPart, rfl, inside⟩ := visits
  suffices ends : (Ending.mk unit settings found).Ends {} (partBody part) () from
    Ending.visited_of_made ((Ending.traces_of_partBody ends).1 visit inPart) e inside
  cases part with
  | contract c => exact ends_of_enters run (entered c rfl)
  | function f =>
    obtain ⟨stop⟩ := exists_stop inUnit run
    exact ⟨stop.σ, stop.τ, (parts_extends rfl stop.arrive).2, stop.pass, stop.extends_⟩
  | struct _ | usingFor _ => cases inPart

end Unit

end ContractTyping
