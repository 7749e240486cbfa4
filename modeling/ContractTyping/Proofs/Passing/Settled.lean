import ContractTyping.Proofs.Trace.Visited

/-!
# Clean types in checks that pass

If no error is found anywhere in a source unit, the type names of all its variables resolve, and
what is made of them is clean. `Ending.Settled` collects what is used of the unit, and
`Ending.standard` is the standard that types are then held to: every expression that is visited is
recorded with a clean type (`Visited.sound`).
-/

namespace ContractTyping

open Check Declarations

theorem Expr.Silent.later {σ τ : Findings} {e : Expr} (silent : e.Silent σ.annotations)
    (later : σ.Extends τ) : e.Silent τ.annotations := by
  unfold Silent at silent ⊢
  split at silent
  · trivial
  · exact silent.imp fun _ => later.expression _ _
  · exact silent.elim

namespace Ending

variable {E : Ending}
variable {calm : Prop} {scope : Scope} {e : Expr}

/-- A check that passes, with clean types for all variables and nothing recorded silently. -/
structure Settled (E : Ending) : Prop extends E.Passes where
  silent : ∀ e ∈ E.unit.inventory.nodes, e.Silent E.found.annotations →
    E.found.expression? e.id ≠ some .invalid
  vars : ∀ id t, E.found.var? id = some t → t.Clean
  declared : ∀ v ∈ variablesWithInner (E.unit.inventory.vars ++ E.unit.inventory.fields),
    (E.declarations.declaredType v).Succeeds

theorem Settled.known (settled : E.Settled) {v : Variable}
    (inside : v ∈ E.unit.inventory.vars ++ E.unit.inventory.fields) :
    (E.declarations.declaredType v).Succeeds :=
  settled.declared v (mem_variablesWithInner.mpr ⟨v, inside, v.self_mem_withInner⟩)

/-- Types are clean in what leads up to the end of a check that is settled. -/
def standard (E : Ending) (scope : Scope) : Standard where
  context := E.context scope
  Good σ t := σ.Extends E.found ∧ E.Settled → t.Clean
  reads v := v ∈ variablesWithInner (E.unit.inventory.vars ++ E.unit.inventory.fields)
  visits e := e ∈ E.unit.inventory.nodes
  hereditary _ := Ty.clean_hereditary.imp _
  later precedes good given := good ⟨precedes.toExtends.trans given.1, given.2⟩
  invalid good isInvalid given := by
    rw [(good given).not_isInvalid] at isInvalid
    cases isInvalid
  rejected mem isError given := by
    rw [given.2.errors _ (given.1.diagnostics mem)] at isError
    cases isError
  silent mem silent recorded given :=
    absurd (given.1.expression _ _ recorded) (given.2.silent _ mem (silent.later given.1))
  recorded found given := given.2.vars _ _ (given.1.var _ _ found)
  declared _ v _ reads run given := by
    obtain ⟨resolved, equal⟩ := given.2.declared v reads
    cases (orInvalid_of_resolved equal).symm.trans run
    exact Ty.clean_hereditary.declaredType v equal
  members _ _ _ _ run member mem given := by
    refine structMembers_hereditary Ty.clean_hereditary run
      (fun s scope found v inside => ?_) member mem
    have occurs : s.members ⊆ E.unit.inventory.fields :=
      (find?_occurs (find?_of_struct? found)).2
    exact .inl (typed_of_declaredType (given.2.known (List.mem_append_right _ (occurs inside))))
  created _ _ _ _ resolved missing := by
    obtain ⟨definition, found⟩ := contract?_of_resolve resolved
    cases missing.symm.trans found
  items found _ mem := signature_of_lookup? found mem
  contracts found v mem := by
    have inside := Contract.signature_subset (contract?_occurs found).2 mem
    exact mem_variablesWithInner.mpr ⟨v, List.mem_append_left _ inside, v.self_mem_withInner⟩

/-- Whether an expression is recorded with a clean type, and not silently. -/
def Sound (E : Ending) (e : Expr) : Prop :=
  ∃ t, E.found.expression? e.id = some t ∧ t.Clean ∧ ¬ e.Silent E.found.annotations

/-- The type of an expression that is recorded silently is the invalid one. -/
theorem Visited.invalid_of_silent (visited : E.Visited calm scope e)
    (silent : e.Silent E.found.annotations) : E.found.expression? e.id = some .invalid := by
  obtain ⟨demand, σ, t, τ, -, run, later⟩ := visited
  have recorded := later.expression _ _ (Records.expression e demand _ σ t τ run)
  refine recorded.trans (congrArg some ?_)
  unfold Expr.Silent at silent
  split at silent
  · obtain ⟨types, υ, visit, run⟩ := bind_ok.mp run
    rw [← annotate_value run]
    rw [components] at visit
    split at visit
    · cases visit; rfl
    · cases visit; rfl
  · next callee _ _ =>
    obtain ⟨candidates, overloaded⟩ := silent
    rw [expression_call] at run
    obtain ⟨_, _, -, run⟩ := bind_ok.mp run
    obtain ⟨_, _, -, run⟩ := bind_ok.mp run
    obtain ⟨_, φ, -, run⟩ := bind_ok.mp run
    obtain ⟨calleeType, υ, visit, run⟩ := bind_ok.mp run
    obtain ⟨result, ψ, called, run⟩ := bind_ok.mp run
    have front := Records.expression callee _ _ φ calleeType υ visit
    have after : υ.Extends E.found :=
      (((Remarks.callType _ _ _ _).advances _ υ _ ψ called).trans
        (Advances.annotate _ _ _ ψ _ τ run)).toExtends.trans later
    cases (after.expression _ _ front).symm.trans overloaded
    cases called
    exact (annotate_value run).symm
  · exact silent.elim

/-- In a check that is settled an expression is sound once it is visited. -/
theorem Visited.sound (visited : E.Visited calm scope e) (nodes : e.nodes ⊆ E.unit.inventory.nodes)
    (settled : E.Settled) : E.Sound e := by
  have loud (silent : e.Silent E.found.annotations) : False :=
    settled.silent e (nodes e.self_mem_nodes) silent (visited.invalid_of_silent silent)
  obtain ⟨demand, σ, t, τ, -, run, later⟩ := visited
  have typed :=
    ((Standard.Upholds.expression (S := E.standard scope) e (fun n mem => nodes mem) demand).result
      t τ run).2
  exact ⟨t, later.expression _ _ typed.1, typed.2 ⟨later, settled⟩, loud⟩

end Ending

end ContractTyping
