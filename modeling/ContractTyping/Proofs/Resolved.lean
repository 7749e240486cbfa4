import ContractTyping.Proofs.Clean
import ContractTyping.Proofs.Constant.Evaluation
import ContractTyping.Proofs.Declared
import ContractTyping.Proofs.Exact.Limit

/-!
# Type names that resolve

A type name denotes the same type for every place, moved there (`resolve_moveTo`), and that type has
every hereditary property (`Ty.Hereditary.resolve`). Whether it resolves does not depend on the
place (`resolve_elsewhere`), and with it resolve the type names of the variables inside it
(`inner_resolve`).
-/

namespace ContractTyping

open List
variable {typeName : TypeName} {place : Place} {α : Type}

section

variable {α β : Type}
variable {m : Resolving α}

theorem forall₂_mem_right {R : α → β → Prop} {xs : List α} {ys : List β}
    (all : List.Forall₂ R xs ys) : ∀ y ∈ ys, ∃ x ∈ xs, R x y := by
  induction all with
  | nil => exact forall_mem_nil _
  | cons first _ ih =>
    refine forall_mem_cons.mpr ⟨⟨_, mem_cons_self, first⟩, fun y mem => ?_⟩
    obtain ⟨x, inside, related⟩ := ih y mem
    exact ⟨x, mem_cons_of_mem _ inside, related⟩

theorem Resolving.bind_ok {f : α → Resolving β} {b : β} :
    (m >>= f).run = .ok (.ok b) ↔ ∃ a, m.run = .ok (.ok a) ∧ (f a).run = .ok (.ok b) := by
  change Except.bind m.run (ExceptT.bindCont f) = .ok (.ok b) ↔ _
  cases m.run with
  | error fault => simp [Except.bind]
  | ok result =>
    cases result with
    | error issue => exact ⟨nofun, nofun⟩
    | ok a =>
      refine ⟨fun run => ⟨a, rfl, run⟩, ?_⟩
      rintro ⟨a', same, run⟩
      cases same
      exact run

/-- Whether a computation ends with a result. -/
def Resolving.Succeeds (m : Resolving α) : Prop := ∃ a, m.run = .ok (.ok a)

theorem Resolving.succeeds_bind {f : α → Resolving β} :
    Succeeds (m >>= f) ↔ ∃ a, m.run = .ok (.ok a) ∧ Succeeds (f a) := by
  constructor
  · rintro ⟨b, run⟩
    obtain ⟨a, first, run⟩ := bind_ok.mp run
    exact ⟨a, first, b, run⟩
  · rintro ⟨a, first, b, run⟩
    exact ⟨b, bind_ok.mpr ⟨a, first, run⟩⟩

end

namespace Declarations

variable {d : Declarations}
variable {resolving : Resolving Ty} {t : Ty} {e : Expr} {x : Fraction}

theorem orInvalid_of_resolved (resolved : resolving.run = .ok (.ok t)) :
    orInvalid resolving = .ok t := by
  unfold orInvalid
  rw [resolved]
  rfl

/-- A type that stands for a type name is the one that it denotes, or it does not resolve. -/
theorem orInvalid_cases (given : orInvalid resolving = .ok t) :
    resolving.run = .ok (.ok t) ∨ ¬ resolving.Succeeds ∧ t = .invalid := by
  unfold orInvalid at given
  cases outcome : resolving.run with
  | error fault => rw [outcome] at given; cases given
  | ok result =>
    rw [outcome] at given
    cases result with
    | error issue =>
      cases given
      refine .inr ⟨?_, rfl⟩
      rintro ⟨t, resolved⟩
      cases outcome.symm.trans resolved
    | ok t =>
      cases given
      exact .inl rfl

/-! ## Lengths -/

theorem HasValue.admissible (has : d.HasValue e x) : x.Admissible := by
  induction has with
  | literal value => exact admissible_literalValue? value
  | constant _ _ ih => exact ih
  | parentheses _ ih => exact ih
  | negate _ ih => exact ih.neg
  | binary _ _ constant folded left right =>
    exact BinaryOp.admissible_fold? constant left right folded

theorem evaluate_admissible (found : d.evaluate e = .ok (some x)) : x.Admissible := by
  have agrees := d.agrees_evaluate e
  rw [found] at agrees
  cases agrees with
  | value has => exact has.admissible

/-- A length of zero is refused. -/
theorem arrayLength_pos {length : Option Expr} {given : Option Nat}
    (resolved : (d.arrayLength length).run = .ok (.ok given)) : ∀ n, given = some n → 1 ≤ n := by
  rintro n rfl
  cases length with
  | none => cases resolved
  | some e =>
    obtain ⟨value, evaluated, resolved⟩ := Resolving.bind_ok.mp resolved
    have found : d.evaluate e = .ok value := by
      cases result : d.evaluate e with
      | error fault =>
        rw [result] at evaluated
        cases evaluated
      | ok value =>
        rw [result] at evaluated
        cases evaluated
        rfl
    split at resolved
    · cases resolved
    · next x =>
      split at resolved
      · cases resolved
      · next nonzero =>
        split at resolved
        · next word fits =>
          cases resolved
          exact Fraction.toWord?_pos (evaluate_admissible found).lowest fits
            (by simpa using nonzero)
        · cases resolved

/-! ## What type names denote -/

/-- How a type name comes to its type at a place. -/
inductive Denotes (d : Declarations) : TypeName → Place → Ty → Prop
  | elementary {node : Node} {name : String} {payable : Bool} {place : Place} {t : Ty}
      (found : Ty.elementary? name payable = .ok t) :
      Denotes d (.elementary node name payable) place (t.moveTo place)
  | contract {node : Node} {path : Path} {place : Place} {id : NodeId} {c : Contract}
      {scope : Option NodeId}
      (target : path.target = some id) (found : d.lookup? id = some ⟨.contract c, scope⟩) :
      Denotes d (.userDefined node path) place (.contract (d.contractTy c))
  | struct {node : Node} {path : Path} {place : Place} {id : NodeId} {s : StructDef}
      {scope : Option NodeId}
      (target : path.target = some id) (found : d.lookup? id = some ⟨.struct s, scope⟩) :
      Denotes d (.userDefined node path) place (d.structTy s scope place)
  | mapping {node : Node} {key value : TypeName} {place : Place} {keyTy valueTy : Ty}
      (ofKey : (d.resolve key .memory).run = .ok (.ok keyTy))
      (allowed : (keyTy.isValueType || keyTy.isByteArray) = true)
      (ofValue : (d.resolve value ⟨.storage, true⟩).run = .ok (.ok valueTy)) :
      Denotes d (.mapping node key value) place (.mappingOf keyTy valueTy)
  | array {node : Node} {base : TypeName} {length : Option Expr} {place : Place} {element : Ty}
      {given : Option Nat}
      (ofBase : (d.resolve base ⟨place.location, true⟩).run = .ok (.ok element))
      (ofLength : (d.arrayLength length).run = .ok (.ok given)) :
      Denotes d (.array node base length) place
        ((Ty.arrayOf element given place.location).moveTo place)
  | function {node : Node} {parameters returns : List Variable} {visibility : Visibility}
      {mutability : Mutability} {place : Place} {parameterTypes returnTypes : List Ty}
      (ofParameters : (d.declaredTypes parameters).run = .ok (.ok parameterTypes))
      (ofReturns : (d.declaredTypes returns).run = .ok (.ok returnTypes)) :
      Denotes d (.function node parameters returns visibility mutability) place
        (FunctionTy.of (if visibility == .external then .external else .internal)
          parameterTypes returnTypes mutability).toTy

theorem resolve_ok_iff :
    (d.resolve typeName place).run = .ok (.ok t) ↔ d.Denotes typeName place t := by
  constructor
  · intro resolved
    cases typeName with
    | elementary node name payable =>
      rw [resolve] at resolved
      split at resolved
      · next found =>
        cases resolved
        exact .elementary found
      · cases resolved
    | userDefined node path =>
      rw [resolve, resolvePath] at resolved
      split at resolved
      · next id target =>
        split at resolved
        · cases resolved
        · next found =>
          cases resolved
          exact .contract target found
        · next found =>
          cases resolved
          exact .struct target found
        · cases resolved
      · cases resolved
    | mapping node key value =>
      obtain ⟨keyTy, ofKey, resolved⟩ := Resolving.bind_ok.mp resolved
      split at resolved
      · next allowed =>
        obtain ⟨valueTy, ofValue, equal⟩ := Resolving.bind_ok.mp resolved
        cases equal
        exact .mapping ofKey allowed ofValue
      · cases resolved
    | array node base length =>
      obtain ⟨element, ofBase, resolved⟩ := Resolving.bind_ok.mp resolved
      obtain ⟨given, ofLength, equal⟩ := Resolving.bind_ok.mp resolved
      cases equal
      exact .array ofBase ofLength
    | function node parameters returns visibility mutability =>
      obtain ⟨parameterTypes, ofParameters, resolved⟩ := Resolving.bind_ok.mp resolved
      obtain ⟨returnTypes, ofReturns, equal⟩ := Resolving.bind_ok.mp resolved
      cases equal
      exact .function ofParameters ofReturns
  · intro denotes
    cases denotes with rw [resolve]
    | elementary found =>
      rw [found]
      rfl
    | contract target found | struct target found =>
      rw [resolvePath, target]
      dsimp only
      rw [found]
      rfl
    | mapping ofKey allowed ofValue =>
      refine Resolving.bind_ok.mpr ⟨_, ofKey, ?_⟩
      rw [if_pos allowed]
      exact Resolving.bind_ok.mpr ⟨_, ofValue, rfl⟩
    | array ofBase ofLength =>
      exact Resolving.bind_ok.mpr ⟨_, ofBase, Resolving.bind_ok.mpr ⟨_, ofLength, rfl⟩⟩
    | function ofParameters ofReturns =>
      exact Resolving.bind_ok.mpr ⟨_, ofParameters, Resolving.bind_ok.mpr ⟨_, ofReturns, rfl⟩⟩

end Declarations

/-! ## Hereditary properties -/

namespace Ty.Hereditary

variable {G : Ty → Prop} {d : Declarations}

mutual

theorem resolve (hereditary : Hereditary G) (typeName : TypeName) {place : Place} {t : Ty}
    (resolved : (d.resolve typeName place).run = .ok (.ok t)) : G t := by
  cases Declarations.resolve_ok_iff.mp resolved with
  | elementary found => exact hereditary.moveTo (hereditary.elementary found) _
  | contract => exact hereditary.contract _
  | struct => exact hereditary.struct _ _ _
  | mapping ofKey allowed ofValue =>
    exact hereditary.mappingOf allowed (hereditary.resolve _ ofKey) (hereditary.resolve _ ofValue)
  | array ofBase ofLength =>
    have positive := Declarations.arrayLength_pos ofLength
    exact hereditary.moveTo (hereditary.arrayOf (hereditary.resolve _ ofBase) positive _) _
  | function ofParameters ofReturns =>
    exact hereditary.function.mpr
      ⟨hereditary.declaredTypes _ ofParameters, hereditary.declaredTypes _ ofReturns⟩

theorem declaredType (hereditary : Hereditary G) (v : Variable) {t : Ty}
    (resolved : (d.declaredType v).run = .ok (.ok t)) : G t := by
  match v with
  | .mk _ none _ => cases resolved
  | .mk traits (some typeName) _ => exact hereditary.resolve typeName resolved

theorem declaredTypes (hereditary : Hereditary G) (vars : List Variable) {types : List Ty}
    (resolved : (d.declaredTypes vars).run = .ok (.ok types)) : ∀ t ∈ types, G t := by
  match vars with
  | [] =>
    cases resolved
    exact forall_mem_nil _
  | v :: rest =>
    obtain ⟨t, first, resolved⟩ := Resolving.bind_ok.mp resolved
    obtain ⟨others, more, equal⟩ := Resolving.bind_ok.mp resolved
    cases equal
    exact forall_mem_cons.mpr ⟨hereditary.declaredType v first, hereditary.declaredTypes rest more⟩

end

end Ty.Hereditary

namespace Declarations

variable {d : Declarations}
variable {v : Variable} {β : Type} {unit : SourceUnit}

/-! ## Places -/

/-- A type name denotes the same type for every place, moved there. -/
theorem resolve_moveTo (typeName : TypeName) {place : Place} {t : Ty}
    (resolved : (d.resolve typeName place).run = .ok (.ok t)) (other : Place) :
    (d.resolve typeName other).run = .ok (.ok (t.moveTo other)) := by
  rw [resolve_ok_iff]
  cases resolve_ok_iff.mp resolved with
  | elementary found =>
    rw [Ty.moveTo_moveTo]
    exact .elementary found
  | contract target found => exact .contract target found
  | struct target found => exact .struct target found
  | mapping ofKey allowed ofValue => exact .mapping ofKey allowed ofValue
  | @array node base _ _ _ _ ofBase ofLength =>
    have moved : d.Denotes (.array node base _) other _ :=
      .array (resolve_moveTo base ofBase _) ofLength
    simpa only [Ty.arrayOf, Ty.moveTo, Ty.moveTo_moveTo] using moved
  | function ofParameters ofReturns => exact .function ofParameters ofReturns

/-! ## Success -/

/-- A type name that resolves for one place resolves for every place. -/
theorem resolve_elsewhere (typeName : TypeName) (succeeds : (d.resolve typeName place).Succeeds)
    (other : Place) : (d.resolve typeName other).Succeeds := by
  obtain ⟨t, resolved⟩ := succeeds
  exact ⟨t.moveTo other, resolve_moveTo typeName resolved other⟩

mutual

/-- With a variable's type resolve the types of the variables inside its type name. -/
theorem inner_declaredType (v : Variable) (succeeds : (d.declaredType v).Succeeds) {w : Variable}
    (mem : w ∈ v.withInner) : (d.declaredType w).Succeeds := by
  match v with
  | .mk _ none _ =>
    obtain ⟨t, resolved⟩ := succeeds
    cases resolved
  | .mk traits (some typeName) value =>
    rcases mem_cons.mp mem with rfl | inner
    · exact succeeds
    · exact inner_resolve typeName succeeds inner

theorem inner_resolve (typeName : TypeName) {place : Place}
    (succeeds : (d.resolve typeName place).Succeeds) {w : Variable}
    (mem : w ∈ typeName.innerVariables) : (d.declaredType w).Succeeds := by
  obtain ⟨t, resolved⟩ := succeeds
  cases resolve_ok_iff.mp resolved with
  | elementary | contract | struct => cases mem
  | mapping ofKey _ ofValue =>
    rcases mem_append.mp mem with inKey | inValue
    · exact inner_resolve _ ⟨_, ofKey⟩ inKey
    · exact inner_resolve _ ⟨_, ofValue⟩ inValue
  | array ofBase _ => exact inner_resolve _ ⟨_, ofBase⟩ mem
  | function ofParameters ofReturns =>
    rcases mem_append.mp mem with inParameters | inReturns
    · exact inner_declaredTypes _ ⟨_, ofParameters⟩ inParameters
    · exact inner_declaredTypes _ ⟨_, ofReturns⟩ inReturns

theorem inner_declaredTypes (vars : List Variable) (succeeds : (d.declaredTypes vars).Succeeds)
    {w : Variable} (mem : w ∈ variablesWithInner vars) : (d.declaredType w).Succeeds := by
  match vars with
  | [] => cases mem
  | v :: rest =>
    obtain ⟨t, first, succeeds⟩ := Resolving.succeeds_bind.mp succeeds
    obtain ⟨types, more, -⟩ := Resolving.succeeds_bind.mp succeeds
    rcases mem_append.mp mem with inFirst | inRest
    · exact inner_declaredType v ⟨t, first⟩ inFirst
    · exact inner_declaredTypes rest ⟨types, more⟩ inRest

end

/-- Whether the type name of a variable resolves, for whatever place. -/
def Typed (d : Declarations) (v : Variable) : Prop :=
  ∃ typeName, v.typeName = some typeName ∧ ∀ place, (d.resolve typeName place).Succeeds

theorem Typed.declaredType (typed : d.Typed v) : (d.declaredType v).Succeeds := by
  obtain ⟨traits, typeName, value⟩ := v
  obtain ⟨_, equal, succeeds⟩ := typed
  cases equal
  exact succeeds traits.place

theorem typed_of_declaredType (succeeds : (d.declaredType v).Succeeds) : d.Typed v := by
  obtain ⟨traits, typeName, value⟩ := v
  cases typeName with
  | none =>
    obtain ⟨t, resolved⟩ := succeeds
    cases resolved
  | some typeName => exact ⟨typeName, rfl, fun place => resolve_elsewhere typeName succeeds place⟩

theorem forall₂_of_mapM {f : α → Except Fault β} {xs : List α} {ys : List β}
    (run : xs.mapM f = .ok ys) : List.Forall₂ (fun x y => f x = .ok y) xs ys := by
  induction xs generalizing ys with
  | nil =>
    cases run
    exact .nil
  | cons x rest ih =>
    rw [mapM_cons] at run
    obtain ⟨y, first, run⟩ := bind_eq_ok.mp run
    obtain ⟨more, others, run⟩ := bind_eq_ok.mp run
    cases run
    exact .cons first (ih others)

/-- What every single result has, all results of a sequence have. -/
theorem forall_of_mapM {P : β → Prop} {f : α → Except Fault β} {xs : List α} {ys : List β}
    (run : xs.mapM f = .ok ys) (each : ∀ x ∈ xs, ∀ y, f x = .ok y → P y) : ∀ y ∈ ys, P y := by
  intro y mem
  obtain ⟨x, inside, given⟩ := forall₂_mem_right (forall₂_of_mapM run) y mem
  exact each x inside y given

/-- The members of a struct have every hereditary property that the invalid type has, and all others
if their type names resolve. -/
theorem structMembers_hereditary {G : Ty → Prop} (hereditary : Ty.Hereditary G) {id : NodeId}
    {location : DataLocation}
    {members : List (String × Ty)} (run : d.structMembers id location = .ok members)
    (typed : ∀ s scope, d.struct? id = some (s, scope) → ∀ v ∈ s.members, d.Typed v ∨ G .invalid) :
    ∀ member ∈ members, G member.2 := by
  unfold structMembers at run
  split at run
  · cases run
    exact forall_mem_nil _
  · next s scope found =>
    refine forall_of_mapM run fun v mem member equal => ?_
    split at equal
    · next typeName named =>
      cases given : orInvalid (d.resolve typeName ⟨location, true⟩) with
      | error fault =>
        rw [given] at equal
        cases equal
      | ok t =>
        rw [given] at equal
        cases equal
        refine hereditary.moveTo ?_ _
        rcases orInvalid_cases given with resolved | ⟨failed, rfl⟩
        · exact hereditary.resolve typeName resolved
        · refine (typed s scope found v mem).resolve_left ?_
          rintro ⟨other, same, succeeds⟩
          cases named.symm.trans same
          exact failed (succeeds _)
    · next unnamed =>
      cases equal
      refine hereditary.moveTo ((typed s scope found v mem).resolve_left ?_) ⟨location, false⟩
      rintro ⟨typeName, named, -⟩
      cases unnamed.symm.trans named

/-- A contract that an identity refers to is found by its own. -/
theorem contract?_of_lookup? {id : NodeId} {c : Contract} {scope : Option NodeId}
    (found : (ofUnit unit).lookup? id = some ⟨.contract c, scope⟩) :
    (ofUnit unit).contract? c.id = some c := by
  unfold lookup? at found
  split at found
  · obtain ⟨g, -, equal⟩ := Option.map_eq_some_iff.mp found
    cases equal
  · have own : id = c.id := (find?_occurs found).1
    rw [contract?, ← own, found]

/-- A contract type that a type name denotes is that of a contract of the unit. -/
theorem contract?_of_resolve {c : ContractTy}
    (resolved : ((ofUnit unit).resolve typeName place).run = .ok (.ok (.contract c))) :
    ∃ definition, (ofUnit unit).contract? c.id = some definition := by
  generalize isContract : Ty.contract c = t at resolved
  cases resolve_ok_iff.mp resolved with
  | @elementary _ _ _ _ t found =>
    -- No elementary type is a contract, wherever it is placed.
    have elementary := Ty.isElementary_of_elementary? found
    cases t with
    | contract _ => cases elementary
    | _ => cases isContract
  | contract _ found =>
    cases isContract
    exact ⟨_, contract?_of_lookup? found⟩
  | struct | mapping | array | function => cases isContract

end Declarations

end ContractTyping
