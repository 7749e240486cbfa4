import ContractTyping.Proofs.Inventory
import ContractTyping.Proofs.Remarks

/-!
# Dangling references

Evaluating constants and resolving type names follows references. They end with a fault only where a
reference dangles: `evaluate_dangles`, `resolve_fails`, `structMembers_dangles`. What else is wrong
with a type name is an ordinary issue.
-/

namespace ContractTyping

open List

/-! ## Faults of the two kinds of computation -/

section Fails

variable {α β : Type} {P : Fault → Prop}

/-- Whether an evaluation fails only with the given faults, whatever is remembered. -/
def Evaluation.Fails (P : Fault → Prop) (m : Evaluation α) : Prop :=
  ∀ cache fault, (m.outcome cache).1 = .error fault → P fault

/-- Whether a computation fails only with given faults, and otherwise with ordinary issues. -/
structure Resolving.Fails (P : Fault → Prop) (m : Resolving α) : Prop where
  fault : ∀ fault, m.run = .error fault → P fault
  issue : ∀ issue, m.run = .ok (.error issue) → issue.isOrdinary

theorem Evaluation.Fails.pure (a : α) : Evaluation.Fails P (pure a) := nofun

theorem Evaluation.Fails.bind {m : Evaluation α} {f : α → Evaluation β}
    (first : Evaluation.Fails P m)
    (next : ∀ a, Evaluation.Fails P (f a)) : Evaluation.Fails P (m >>= f) := by
  intro cache fault failed
  rcases run : m.outcome cache with ⟨result, after⟩
  cases result with
  | error other =>
    rw [Evaluation.outcome_bind_error run] at failed
    cases failed
    exact first cache _ (congrArg Prod.fst run)
  | ok a =>
    rw [Evaluation.outcome_bind_ok run] at failed
    exact next a after fault failed

theorem Evaluation.Fails.throw {fault : Fault} (allowed : P fault) :
    Evaluation.Fails P (throw fault : Evaluation α) := by
  intro cache other failed
  cases failed
  exact allowed

theorem Resolving.Fails.pure (a : α) : Resolving.Fails P (pure a) := ⟨nofun, nofun⟩

theorem Resolving.Fails.throw {issue : Issue} (ordinary : issue.isOrdinary) :
    Resolving.Fails P (throw issue : Resolving α) := by
  refine ⟨nofun, ?_⟩
  rintro _ ⟨⟩
  exact ordinary

theorem Resolving.Fails.bind {m : Resolving α} {f : α → Resolving β} (first : Resolving.Fails P m)
    (next : ∀ a, Resolving.Fails P (f a)) : Resolving.Fails P (m >>= f) := by
  have whole : (m >>= f).run = m.run.bind (ExceptT.bindCont f) := rfl
  cases run : m.run with
  | error fault =>
    rw [run] at whole
    refine ⟨fun other failed => ?_, fun issue failed => ?_⟩
    · cases whole.symm.trans failed
      exact first.fault fault run
    · cases whole.symm.trans failed
  | ok result =>
    rw [run] at whole
    cases result with
    | error issue =>
      refine ⟨fun fault failed => ?_, fun other failed => ?_⟩
      · cases whole.symm.trans failed
      · cases whole.symm.trans failed
        exact first.issue issue run
    | ok a =>
      exact ⟨fun fault failed => (next a).fault fault (whole.symm.trans failed),
        fun issue failed => (next a).issue issue (whole.symm.trans failed)⟩

theorem Resolving.Fails.lift {m : Except Fault α} (fails : ∀ fault, m = .error fault → P fault) :
    Resolving.Fails P (liftM m : Resolving α) := by
  cases m with
  | error fault =>
    refine ⟨?_, nofun⟩
    rintro _ ⟨⟩
    exact fails fault rfl
  | ok a => exact pure a

end Fails

/-! ## Constants -/

namespace Declarations

variable {fault : Fault}

/-- A fault that is about one of the given references, which leads nowhere. -/
def Dangles (d : Declarations) (R : List Reference) (fault : Fault) : Prop :=
  ∃ node target, fault = .danglingReference node target ∧ (node, target) ∈ R ∧
    d.lookup? target = none

/-- Whether the references behind every declaration are among the given ones. -/
structure Closed (d : Declarations) (R : List Reference) : Prop where
  vars : ∀ id v scope, d.lookup? id = some ⟨.var v, scope⟩ → v.references ⊆ R
  structs : ∀ id s scope, d.struct? id = some (s, scope) → varsReferences s.members ⊆ R

variable {d : Declarations} {R : List Reference}

theorem evaluateWith_fails {P : Fault → Prop}
    {constant : (node target : NodeId) → Evaluation (Option Fraction)}
    (fails : ∀ node target, (node, target) ∈ R → Evaluation.Fails P (constant node target))
    (e : Expr) (inside : e.references ⊆ R) : Evaluation.Fails P (e.evaluateWith constant) := by
  fun_induction Expr.evaluateWith constant e with
  | case1 => exact .pure _
  | case2 node name target overloads =>
    exact fails node.id target (inside (mem_map_of_mem mem_cons_self))
  | case3 node inner ih => exact ih fun r mem => inside (mem_append_left _ mem)
  | case4 node isPrefix operand ih => exact (ih inside).bind fun _ => .pure _
  | case5 node op left right ihLeft ihRight =>
    refine (ihLeft fun r mem => inside (mem_append_left _ mem)).bind fun x => ?_
    split
    · refine (ihRight fun r mem => inside (mem_append_right _ mem)).bind fun y => ?_
      split <;> exact .pure _
    · exact .pure _
  | case6 => exact .pure _

theorem constantValue_dangles (closed : d.Closed R) (depth : Nat) (active : List NodeId)
    {node target : NodeId} (mem : (node, target) ∈ R) :
    Evaluation.Fails (d.Dangles R) (d.constantValue depth active node target) := by
  induction depth generalizing active node target with
  | zero => exact .pure _
  | succ depth ih =>
    unfold constantValue
    cases looked : d.lookup? target with
    | none => exact .throw ⟨node, target, rfl, mem, looked⟩
    | some declaration =>
      obtain ⟨item, scope⟩ := declaration
      cases item with
      | var v =>
        have inside := closed.vars target v scope looked
        dsimp only
        split
        · next value equal =>
          have inValue := v.references_of_value (Prod.ext_iff.mp equal).2
          refine Evaluation.Fails.bind nofun fun cache => ?_
          split
          · exact .pure _
          · split
            · exact .pure _
            · refine (evaluateWith_fails (fun _ _ mem => ih (target :: active) mem) value
                fun r mem => inside (inValue mem)).bind fun result => ?_
              exact Evaluation.Fails.bind nofun fun _ => .pure _
        · exact .pure _
      | _ => exact .pure _

/-- Evaluating an expression fails only where a reference dangles. -/
theorem evaluate_dangles (closed : d.Closed R) {e : Expr} (inside : e.references ⊆ R)
    (failed : d.evaluate e = .error fault) : d.Dangles R fault := by
  have fails := evaluateWith_fails
    (fun node target mem => constantValue_dangles closed (d.entries.length + 1) [] mem) e inside
  exact fails [] fault failed

/-! ## Type names -/

/-- Whether what the given references lead to are only the given faults. -/
structure Leads (d : Declarations) (R : List Reference) (P : Fault → Prop) : Prop where
  path : ∀ node target, (node, target) ∈ R → d.lookup? target = none →
    P (.danglingReference node target)
  value : ∀ e fault, e.references ⊆ R → d.evaluate e = .error fault → P fault

theorem Closed.leads (closed : d.Closed R) : d.Leads R (d.Dangles R) where
  path node target mem missing := ⟨node, target, rfl, mem, missing⟩
  value _ _ inside failed := evaluate_dangles closed inside failed

variable {P : Fault → Prop}

theorem arrayLength_fails (leads : d.Leads R P) {length : Option Expr}
    (inside : optionReferences length ⊆ R) : Resolving.Fails P (d.arrayLength length) := by
  cases length with
  | none => exact .pure _
  | some e =>
    refine (Resolving.Fails.lift fun fault => leads.value e fault inside).bind fun value => ?_
    split
    · exact .throw rfl
    · split
      · exact .throw rfl
      · split
        · exact .pure _
        · exact .throw rfl

theorem resolvePath_fails (leads : d.Leads R P) {path : Path} (inside : path.references ⊆ R)
    (place : Place) : Resolving.Fails P (d.resolvePath path place) := by
  unfold resolvePath
  split
  · next id target =>
    split
    · next missing =>
      refine ⟨?_, nofun⟩
      rintro _ ⟨⟩
      exact leads.path path.node.id id
        (inside (mem_map_of_mem (Option.mem_toList.mpr target))) missing
    · exact .pure _
    · exact .pure _
    · exact .throw rfl
  · exact .throw rfl

mutual

theorem resolve_fails (leads : d.Leads R P) (typeName : TypeName) (inside : typeName.references ⊆ R)
    (place : Place) : Resolving.Fails P (d.resolve typeName place) := by
  match typeName with
  | .elementary _ name payable =>
    rw [resolve]
    split
    · exact .pure _
    · exact .throw rfl
  | .userDefined _ path => exact resolvePath_fails leads inside place
  | .mapping _ key value =>
    have inside := append_subset.mp inside
    refine (resolve_fails leads key inside.1 _).bind fun keyTy => ?_
    split
    · exact (resolve_fails leads value inside.2 _).bind fun _ => .pure _
    · exact (Resolving.Fails.throw rfl).bind fun _ => (resolve_fails leads value inside.2 _).bind
        fun _ => .pure _
  | .array _ base length =>
    have inside := append_subset.mp inside
    refine (resolve_fails leads base inside.1 _).bind fun element => ?_
    exact (arrayLength_fails leads inside.2).bind fun _ => .pure _
  | .function _ parameters returns visibility mutability =>
    have inside := append_subset.mp inside
    refine (declaredTypes_fails leads parameters inside.1).bind fun parameters => ?_
    exact (declaredTypes_fails leads returns inside.2).bind fun _ => .pure _

theorem declaredType_fails (leads : d.Leads R P) (v : Variable) (inside : v.references ⊆ R) :
    Resolving.Fails P (d.declaredType v) := by
  match v with
  | .mk _ none _ => exact .throw rfl
  | .mk traits (some typeName) _ => exact resolve_fails leads typeName (append_subset.mp inside).1 _

theorem declaredTypes_fails (leads : d.Leads R P) (vars : List Variable)
    (inside : varsReferences vars ⊆ R) : Resolving.Fails P (d.declaredTypes vars) := by
  match vars with
  | [] => exact .pure _
  | v :: rest =>
    have inside := append_subset.mp inside
    refine (declaredType_fails leads v inside.1).bind fun t => ?_
    exact (declaredTypes_fails leads rest inside.2).bind fun _ => .pure _

end

theorem leads_any : d.Leads R fun _ => True := ⟨fun _ _ _ _ => trivial, fun _ _ _ _ => trivial⟩

theorem resolve_ordinary (typeName : TypeName) (place : Place) :
    ∀ issue, (d.resolve typeName place).run = .ok (.error issue) → issue.isOrdinary :=
  (resolve_fails leads_any typeName (List.Subset.refl _) place).issue

theorem declaredType_ordinary (v : Variable) :
    ∀ issue, (d.declaredType v).run = .ok (.error issue) → issue.isOrdinary :=
  (declaredType_fails leads_any v (List.Subset.refl _)).issue

theorem orInvalid_eq_error {resolving : Resolving Ty} :
    orInvalid resolving = .error fault ↔ resolving.run = .error fault := by
  unfold orInvalid
  cases equal : resolving.run with
  | error other =>
    constructor
    · intro same; cases same; rfl
    · intro same; cases same; rfl
  | ok result => exact ⟨nofun, nofun⟩

theorem mapM_error {α β : Type} {f : α → Except Fault β} {xs : List α}
    (failed : xs.mapM f = .error fault) : ∃ x ∈ xs, f x = .error fault := by
  induction xs with
  | nil => cases failed
  | cons x rest ih =>
    rw [mapM_cons] at failed
    cases first : f x with
    | error other =>
      rw [first] at failed
      cases failed
      exact ⟨x, mem_cons_self, first⟩
    | ok y =>
      rw [first] at failed
      cases others : rest.mapM f with
      | error other =>
        rw [others] at failed
        cases failed
        obtain ⟨x', mem, equal⟩ := ih others
        exact ⟨x', mem_cons_of_mem _ mem, equal⟩
      | ok ys => rw [others] at failed; cases failed

/-- The members of a struct can be found unless a reference in one of them dangles. -/
theorem structMembers_dangles (closed : d.Closed R) {id : NodeId} {location : DataLocation}
    (failed : d.structMembers id location = .error fault) : d.Dangles R fault := by
  unfold structMembers at failed
  split at failed
  · cases failed
  · next s scope found =>
    obtain ⟨v, mem, failed⟩ := mapM_error failed
    have inside : v.references ⊆ R :=
      fun r inV => closed.structs id s scope found (references_mem_vars mem inV)
    cases equal : v.typeName with
    | none => simp only [equal] at failed; cases failed
    | some typeName =>
      simp only [equal] at failed
      cases resolved : orInvalid (d.resolve typeName ⟨location, true⟩) with
      | ok t => rw [resolved] at failed; cases failed
      | error other =>
        rw [resolved] at failed
        cases failed
        exact (resolve_fails closed.leads typeName
          (fun r inName => inside (v.references_of_typeName equal inName)) _).fault _
          (orInvalid_eq_error.mp resolved)

end Declarations

end ContractTyping
