import ContractTyping.Proofs.Call.Arguments
import ContractTyping.Proofs.ConversionRule
import ContractTyping.Proofs.Parentheses.Basic

/-!
# Overlapping writes to storage

An assignment to a tuple is warned of if its components may interfere. `storage_guard_exact` says
when that is, without the steps that the guard compares: an access path addresses places in storage,
one for each choice of values for the indices that are not constant (`Declarations.Addresses`), and
two components overlap if a place of the one is the same as a place of the other or around it.
-/

namespace ContractTyping

open Check List Ty

variable {d : Declarations} {a : Annotations} {e e' : Expr} {span : Span}
variable {path : StoragePath} {root : NodeId} {node : Node} {sources : List (Option Ty)}

/-- A step from a variable into its data, with the value of an index. -/
inductive ConcreteStep
  | member (name : String)
  | index (value : ℚ)

/-! ## Paths and the places they stand for -/

namespace PathStep

/-- `step.Takes place`: the step may lead there. An index that is not constant leads anywhere. -/
inductive Takes : PathStep → ConcreteStep → Prop
  | member (name : String) : Takes (.member name) (.member name)
  | constant (value : Fraction) : Takes (.index (some value)) (.index value.value)
  | unknown (value : ℚ) : Takes (.index none) (.index value)

/-- Whether a constant index is in lowest terms. -/
def IsReduced (step : PathStep) : Prop := ∀ value, step = .index (some value) → value.LowestTerms

variable {step step' : PathStep}

theorem exists_takes (step : PathStep) : ∃ place, step.Takes place :=
  match step with
  | .member name => ⟨_, .member name⟩
  | .index (some value) => ⟨_, .constant value⟩
  | .index none => ⟨_, .unknown 0⟩

theorem mayAlias_iff (reduced : step.IsReduced) (reduced' : step'.IsReduced) :
    step.mayAlias step' = true ↔ ∃ place, step.Takes place ∧ step'.Takes place := by
  constructor
  · intro same
    unfold mayAlias at same
    split at same
    · cases beq_iff_eq.mp same
      exact ⟨_, .member _, .member _⟩
    · cases beq_iff_eq.mp same
      exact ⟨_, .constant _, .constant _⟩
    · next value value' notBoth =>
      cases value with
      | none =>
        exact ⟨.index (value'.elim 0 Fraction.value), .unknown _, by cases value' <;> constructor⟩
      | some value =>
        cases value' with
        | none => exact ⟨_, .constant value, .unknown _⟩
        | some value' => exact absurd rfl (notBoth value value' rfl)
    · cases same
  · rintro ⟨place, takes, takes'⟩
    cases takes with
    | member name =>
      cases takes'
      exact beq_self_eq_true name
    | unknown value => cases takes' <;> rfl
    | constant value =>
      generalize reached : value.value = q at takes'
      cases takes' with
      | unknown => rfl
      | constant value' =>
        exact beq_iff_eq.mpr
          ((Fraction.value_eq_iff (reduced value rfl) (reduced' value' rfl)).mpr reached)

/-- Two lists of steps may lead to a place and to one inside it, or to the same. -/
theorem exists_prefix_iff {outer inner : List PathStep} (reduced : ∀ step ∈ outer, step.IsReduced)
    (reduced' : ∀ step ∈ inner, step.IsReduced) :
    (outer.length ≤ inner.length ∧
      (outer.zip inner).all (fun (step, step') => step.mayAlias step') = true) ↔
      ∃ path path', Forall₂ Takes outer path ∧ Forall₂ Takes inner path' ∧ path <+: path' := by
  induction outer generalizing inner with
  | nil =>
    have places : ∃ path', Forall₂ Takes inner path' := by
      induction inner with
      | nil => exact ⟨[], .nil⟩
      | cons step inner ih =>
        obtain ⟨place, takes⟩ := exists_takes step
        obtain ⟨path', rest⟩ := ih fun step mem => reduced' step (mem_cons_of_mem _ mem)
        exact ⟨place :: path', .cons takes rest⟩
    obtain ⟨path', along⟩ := places
    exact ⟨fun _ => ⟨[], path', .nil, along, nil_prefix⟩, fun _ => ⟨Nat.zero_le _, rfl⟩⟩
  | cons step outer ih =>
    obtain ⟨first, reduced⟩ := forall_mem_cons.mp reduced
    cases inner with
    | nil =>
      constructor
      · rintro ⟨short, -⟩
        cases short
      · rintro ⟨path, path', along, along', inside⟩
        cases along'
        cases prefix_nil.mp inside
        cases along
    | cons step' inner =>
      obtain ⟨first', reduced'⟩ := forall_mem_cons.mp reduced'
      rw [zip_cons_cons, all_cons, Bool.and_eq_true, mayAlias_iff first first', length_cons,
        length_cons, Nat.add_le_add_iff_right, and_left_comm, ih reduced reduced']
      constructor
      · rintro ⟨⟨place, takes, takes'⟩, path, path', along, along', inside⟩
        exact ⟨place :: path, place :: path', .cons takes along, .cons takes' along',
          cons_prefix_cons.mpr ⟨rfl, inside⟩⟩
      · rintro ⟨_, _, along, along', inside⟩
        cases along with
        | cons takes along =>
          cases along' with
          | cons takes' along' =>
            obtain ⟨rfl, further⟩ := cons_prefix_cons.mp inside
            exact ⟨⟨_, takes, takes'⟩, _, _, along, along', further⟩

end PathStep

theorem StoragePath.mayContain_iff {outer inner : StoragePath}
    (reduced : ∀ step ∈ outer.steps, step.IsReduced)
    (reduced' : ∀ step ∈ inner.steps, step.IsReduced) :
    outer.mayContain inner = true ↔ outer.root = inner.root ∧ ∃ path path',
      Forall₂ PathStep.Takes outer.steps path ∧ Forall₂ PathStep.Takes inner.steps path' ∧
        path <+: path' := by
  rw [mayContain, Bool.and_eq_true, Bool.and_eq_true, beq_iff_eq, decide_eq_true_iff, and_assoc,
    PathStep.exists_prefix_iff reduced reduced']

/-! ## Places that an expression addresses -/

namespace Declarations

/-- `d.MayBe index value`: the index may have the value, which is its own if it is constant. -/
def MayBe (d : Declarations) (index : Option Expr) (value : ℚ) : Prop :=
  ∀ e x, index = some e → d.HasValue e x → x.value = value

/-- Whether the data of a variable is in storage, where an expression of some type names it. -/
def RootsStorage (v : Variable) (t : Option Ty) : Prop :=
  v.traits.isState = true ∧ v.isConstant = false ∧ v.isImmutable = false ∨
    ∃ pointer, t = some pointer ∧ pointer.isStoragePointer = true

/-- `d.Addresses a e root path`: for some values of indices that are not constant, the expression
names what is found along the path in the data of the variable, which is in storage. -/
inductive Addresses (d : Declarations) (a : Annotations) : Expr → NodeId → List ConcreteStep → Prop
  | root {node : Node} {name : String} {target : NodeId} {overloads : List NodeId} {v : Variable} :
      d.var? target = some v → RootsStorage v (a.expression? node.id) →
      Addresses d a (.identifier node name (some target) overloads) target []
  | member {node : Node} {base : Expr} {name : String} {root : NodeId} {path : List ConcreteStep} :
      Addresses d a base root path →
        Addresses d a (.member node base name) root (path ++ [.member name])
  | index {node : Node} {base : Expr} {index : Option Expr} {root : NodeId}
      {path : List ConcreteStep} {value : ℚ} : Addresses d a base root path → d.MayBe index value →
      Addresses d a (.index node base index) root (path ++ [.index value])
  | parentheses {node : Node} {inner : Expr} {root : NodeId} {path : List ConcreteStep} :
      Addresses d a inner root path → Addresses d a (.tuple node [some inner] false) root path

/-- Two expressions may name the same place in storage, or one of them a part of the other. -/
def Overlap (d : Declarations) (a : Annotations) (e e' : Expr) : Prop :=
  ∃ root path path', d.Addresses a e root path ∧ d.Addresses a e' root path' ∧
    (path <+: path' ∨ path' <+: path)

variable {d : Declarations} {a : Annotations} {e : Expr}

/-- The value of an expression, where a dangling reference has none. -/
def value? (d : Declarations) (e : Expr) : Option Fraction := (d.evaluate e).toOption.join

theorem value?_eq_some_iff {x : Fraction} : d.value? e = some x ↔ d.HasValue e x := by
  unfold value?
  have agrees := d.agrees_evaluate e
  generalize d.evaluate e = result at agrees
  cases agrees with
  | value has =>
    exact ⟨fun same => Option.some.inj same ▸ has, fun has' => congrArg some (has.unique has')⟩
  | fault stops => exact ⟨nofun, fun has => absurd stops has.not_stops⟩
  | nothing valueless _ => exact ⟨nofun, fun has => absurd has (valueless x)⟩

theorem evaluate_eq_ok_iff {value : Option Fraction} :
    d.evaluate e = .ok value ↔ (∀ fault, ¬ d.Stops e fault) ∧ value = d.value? e := by
  unfold value?
  have agrees := d.agrees_evaluate e
  generalize d.evaluate e = result at agrees
  cases agrees with
  | value has =>
    rw [and_iff_right fun _ => has.not_stops, Except.ok.injEq, eq_comm]
    rfl
  | fault stops => exact ⟨nofun, fun ⟨never, _⟩ => absurd stops (never _)⟩
  | nothing _ never =>
    rw [and_iff_right never, Except.ok.injEq, eq_comm]
    rfl

theorem takes_index_iff {index : Option Expr} {place : ConcreteStep} :
    PathStep.Takes (.index (index.bind d.value?)) place ↔ ∃ value, place = .index value ∧
      d.MayBe index value := by
  constructor
  · intro takes
    generalize known : index.bind d.value? = found at takes
    cases takes with
    | constant x =>
      refine ⟨_, rfl, fun e y same has => ?_⟩
      obtain ⟨e', same', isValue⟩ := Option.bind_eq_some_iff.mp known
      cases same.symm.trans same'
      rw [has.unique (value?_eq_some_iff.mp isValue)]
    | unknown value =>
      refine ⟨value, rfl, fun e y same has => ?_⟩
      rw [same, Option.bind_some, value?_eq_some_iff.mpr has] at known
      cases known
  · rintro ⟨value, rfl, may⟩
    cases known : index.bind d.value? with
    | none => exact .unknown value
    | some x =>
      obtain ⟨e, same, isValue⟩ := Option.bind_eq_some_iff.mp known
      exact may e x same (value?_eq_some_iff.mp isValue) ▸ .constant x

end Declarations

/-- The path into storage behind which more steps follow. -/
def StoragePath.into (path : StoragePath) (steps : List PathStep) : StoragePath :=
  { path with steps := path.steps ++ steps }

theorem StoragePath.map_into_nil (path : Option StoragePath) : path.map (·.into []) = path := by
  simp [into]

theorem StoragePath.map_into_into (path : Option StoragePath) (step : PathStep)
    (steps : List PathStep) :
    (path.map (·.into [step])).map (·.into steps) = path.map (·.into (step :: steps)) := by
  simp [into, Function.comp_def]

/-- The path into storage that an expression names, if there is one. -/
def Expr.place? (d : Declarations) (a : Annotations) : Expr → Option StoragePath
  | .member _ base name => (base.place? d a).map (·.into [.member name])
  | .index _ base key => (base.place? d a).map (·.into [.index (key.bind d.value?)])
  | .tuple _ [some inner] false => inner.place? d a
  | .identifier node _ (some target) _ =>
    ((d.var? target).filter fun v => isStorageRoot v (a.expression? node.id)).map fun _ =>
      ⟨target, []⟩
  | _ => none

open Declarations

theorem isStorageRoot_iff {v : Variable} {t : Option Ty} :
    isStorageRoot v t = true ↔ RootsStorage v t := by
  cases t <;> simp [isStorageRoot, RootsStorage, and_assoc]

/-- One more step at the end of a path leads one step further from each of its places. -/
theorem exists_into_iff {found : Option StoragePath} {step : PathStep} {path : List ConcreteStep} :
    (∃ steps, found.map (·.into [step]) = some ⟨root, steps⟩ ∧ Forall₂ PathStep.Takes steps path) ↔
      ∃ front place, path = front ++ [place] ∧ step.Takes place ∧
        ∃ steps, found = some ⟨root, steps⟩ ∧ Forall₂ PathStep.Takes steps front := by
  constructor
  · rintro ⟨steps, extended, along⟩
    obtain ⟨⟨root, before⟩, rfl, same⟩ := Option.map_eq_some_iff.mp extended
    cases same
    have initial := forall₂_take before.length along
    have final := forall₂_drop before.length along
    rw [take_left] at initial
    rw [drop_left] at final
    obtain ⟨place, rest, takes, none, isLast⟩ := forall₂_cons_left_iff.mp final
    rw [forall₂_nil_left_iff.mp none] at isLast
    refine ⟨_, place, ?_, takes, before, rfl, initial⟩
    rw [← isLast, take_append_drop]
  · rintro ⟨front, place, rfl, takes, steps, rfl, along⟩
    exact ⟨steps ++ [step], rfl, rel_append along (.cons takes .nil)⟩

theorem addresses_iff {path : List ConcreteStep} : d.Addresses a e root path ↔
      ∃ steps, e.place? d a = some ⟨root, steps⟩ ∧ Forall₂ PathStep.Takes steps path := by
  fun_induction Expr.place? d a e generalizing path with
  | case1 node base name ih =>
    rw [exists_into_iff]
    constructor
    · rintro (_ | addresses)
      exact ⟨_, _, rfl, .member name, ih.mp addresses⟩
    · rintro ⟨front, place, rfl, takes, before⟩
      cases takes
      exact .member (ih.mpr before)
  | case2 node base key ih =>
    rw [exists_into_iff]
    constructor
    · rintro (_ | _ | ⟨addresses, may⟩)
      exact ⟨_, _, rfl, takes_index_iff.mpr ⟨_, rfl, may⟩, ih.mp addresses⟩
    · rintro ⟨front, place, rfl, takes, before⟩
      obtain ⟨value, rfl, may⟩ := takes_index_iff.mp takes
      exact .index (ih.mpr before) may
  | case3 node inner ih =>
    rw [← ih]
    constructor
    · rintro (_ | _ | _ | addresses)
      exact addresses
    · exact .parentheses
  | case4 node name target overloads =>
    constructor
    · rintro ⟨found, stored⟩
      refine ⟨[], ?_, .nil⟩
      rw [found, Option.filter_some, if_pos (isStorageRoot_iff.mpr stored)]
      rfl
    · rintro ⟨steps, found, along⟩
      obtain ⟨v, isRoot, same⟩ := Option.map_eq_some_iff.mp found
      cases same
      cases along
      obtain ⟨declared, stored⟩ := Option.filter_eq_some_iff.mp isRoot
      exact .root declared (isStorageRoot_iff.mp stored)
  | case5 e notMember notIndex notParentheses notIdentifier =>
    refine ⟨fun addresses => ?_, nofun⟩
    cases addresses with
    | root => exact (notIdentifier _ _ _ _ rfl).elim
    | member => exact (notMember _ _ _ rfl).elim
    | index => exact (notIndex _ _ _ rfl).elim
    | parentheses => exact (notParentheses _ _ rfl).elim

/-- Constant indices are evaluated, so they are in lowest terms. -/
theorem isReduced_of_place? (found : e.place? d a = some path) :
    ∀ step ∈ path.steps, step.IsReduced := by
  fun_induction Expr.place? d a e generalizing path with
  | case1 node base name ih =>
    obtain ⟨before, isBase, rfl⟩ := Option.map_eq_some_iff.mp found
    refine forall_mem_append.mpr ⟨ih isBase, forall_mem_singleton.mpr ?_⟩
    exact nofun
  | case2 node base key ih =>
    obtain ⟨before, isBase, rfl⟩ := Option.map_eq_some_iff.mp found
    refine forall_mem_append.mpr ⟨ih isBase, forall_mem_singleton.mpr fun value isValue => ?_⟩
    obtain ⟨e, -, isValue⟩ := Option.bind_eq_some_iff.mp (PathStep.index.inj isValue)
    exact (value?_eq_some_iff.mp isValue).admissible.lowest
  | case3 node inner ih => exact ih found
  | case4 node name target overloads =>
    obtain ⟨v, -, rfl⟩ := Option.map_eq_some_iff.mp found
    exact forall_mem_nil _
  | case5 => cases found

theorem mayContain_iff_addresses {path' : StoragePath} (found : e.place? d a = some path)
    (found' : e'.place? d a = some path') :
    path.mayContain path' = true ↔ ∃ root steps steps',
      d.Addresses a e root steps ∧ d.Addresses a e' root steps' ∧ steps <+: steps' := by
  rw [StoragePath.mayContain_iff (isReduced_of_place? found) (isReduced_of_place? found')]
  simp only [addresses_iff, found, found', Option.some.injEq]
  constructor
  · rintro ⟨same, steps, steps', along, along', inside⟩
    exact ⟨path.root, steps, steps', ⟨_, rfl, along⟩, ⟨path'.steps, by rw [same], along'⟩, inside⟩
  · rintro ⟨root, steps, steps', ⟨_, rfl, along⟩, ⟨_, rfl, along'⟩, inside⟩
    exact ⟨rfl, steps, steps', along, along', inside⟩

/-! ## What the guard finds out -/

namespace Check

variable {c : Context} {σ υ : Findings}

/-- Whether no index on the way to the variable comes to a dangling reference. -/
def IndicesResolve (d : Declarations) (e : Expr) : Prop :=
  ∀ index ∈ e.pathIndices, ∀ fault, ¬ d.Stops index fault

/-- Whether a check ends exactly under a condition, with the given result and no findings. -/
def Yields (c : Context) (σ : Findings) {α : Type} (m : Check α) (P : Prop) (a : α) : Prop :=
  ∀ b υ, m c σ = .ok (b, υ) ↔ P ∧ b = a ∧ υ = σ

namespace Yields

variable {α β : Type} {m : Check α} {f : α → Check β} {P Q : Prop} {a a' : α} {b : β}

theorem pure (a : α) : Yields c σ (Pure.pure a) True a :=
  fun _ _ => pure_ok.trans (and_iff_right trivial).symm

theorem bind (first : Yields c σ m P a) (next : Yields c σ (f a) Q b) :
    Yields c σ (m >>= f) (P ∧ Q) b := by
  intro b' υ
  rw [bind_ok]
  constructor
  · rintro ⟨a', τ, run, rest⟩
    obtain ⟨holds, rfl, rfl⟩ := (first a' τ).mp run
    obtain ⟨holds', same⟩ := (next b' υ).mp rest
    exact ⟨⟨holds, holds'⟩, same⟩
  · rintro ⟨⟨holds, holds'⟩, same⟩
    exact ⟨a, σ, (first a σ).mpr ⟨holds, rfl, rfl⟩, (next b' υ).mpr ⟨holds', same⟩⟩

theorem congr (yields : Yields c σ m P a) (condition : P ↔ Q) (value : a = a') :
    Yields c σ m Q a' :=
  fun b υ => by rw [yields b υ, condition, value]

theorem map (g : α → β) (yields : Yields c σ m P a) :
    Yields c σ (m >>= fun x => Pure.pure (g x)) P (g a) :=
  (yields.bind (f := fun x => Pure.pure (g x)) (pure (g a))).congr (and_iff_left trivial) rfl

end Yields

theorem Yields.evaluate (e : Expr) :
    Yields c σ (evaluate e) (∀ fault, ¬ c.declarations.Stops e fault)
      (c.declarations.value? e) := by
  intro value υ
  rw [Check.evaluate, read_run, ofExcept_run, ← and_assoc, ← evaluate_eq_ok_iff]
  cases c.declarations.evaluate e <;> simp [Except.map, eq_comm]

/-- The path that is found for an expression goes on with the steps known before. -/
theorem Yields.storagePath (e : Expr) (steps : List PathStep) : Yields c σ (storagePath steps e)
    (IndicesResolve c.declarations e)
      ((e.place? c.declarations σ.annotations).map (·.into steps)) := by
  match e with
  | .member _ base _ | .index _ base none =>
    rw [Check.storagePath, Expr.place?, StoragePath.map_into_into]
    exact storagePath base _
  | .index node base (some key) =>
    rw [Expr.place?, StoragePath.map_into_into, Check.storagePath]
    have all : IndicesResolve c.declarations (.index node base (some key)) ↔ _ := forall_mem_cons
    exact ((evaluate key).bind (storagePath base _)).congr all.symm rfl
  | .tuple _ [some inner] false => exact storagePath inner steps
  | .identifier node name (some target) overloads =>
    intro path υ
    have resolves : IndicesResolve c.declarations (.identifier node name (some target) overloads) :=
      forall_mem_nil _
    rw [Check.storagePath, read_run, Expr.place?, and_iff_right resolves]
    cases c.declarations.var? target with
    | none => exact pure_ok
    | some v =>
      dsimp only
      rw [bind_run (expression?_run _), Findings.expression?, Option.filter_some]
      split
      · exact pure_ok
      · exact pure_ok
  | .identifier _ _ none _ | .tuple _ [] _ | .tuple _ [none] _ | .tuple _ [some _] true
  | .tuple _ (none :: none :: _) _ | .tuple _ (none :: some _ :: _) _
  | .tuple _ (some _ :: none :: _) _
  | .tuple _ (some _ :: some _ :: _) _ | .elementaryType .. | .literal .. | .unary .. | .binary ..
  | .assignment .. | .conditional .. | .call .. | .callOptions .. | .create .. | .await ..
  | .slice .. =>
    exact (Yields.pure none).congr (iff_of_true trivial (forall_mem_nil _)) rfl

end Check

/-- What assigning to a component does, by the types that are recorded. -/
def TargetComponent.of (d : Declarations) (a : Annotations) (slot : Expr × Option Ty) :
    TargetComponent where
  copied := (a.expression? slot.1.id).any isStorageReference
  copiedFromStorage := (a.expression? slot.1.id).any isStorageReference &&
    slot.2.any fun t => t.location? == some .storage
  path := slot.1.place? d a

/-- The components of a target that are there, with what is assigned to them. -/
def presentSlots (slots : List (Option Expr)) (sources : List (Option Ty)) :
    List (Expr × Option Ty) :=
  (slots.zip sources).filterMap fun slot => slot.1.map (·, slot.2)

namespace Check

variable {c : Context} {σ υ : Findings} {slots : List (Option Expr)} {sources : List (Option Ty)}

theorem Yields.targetComponent {source : Option Ty} (typed : (σ.expression? e.id).isSome) :
    Yields c σ (targetComponent e source) (IndicesResolve c.declarations e)
      (.of c.declarations σ.annotations (e, source)) := by
  obtain ⟨t, recorded⟩ := Option.isSome_iff_exists.mp typed
  intro component υ
  rw [Check.targetComponent, bind_run (expression?_run _), recorded]
  refine ((storagePath e []).map _).congr .rfl ?_ component υ
  rw [StoragePath.map_into_nil, TargetComponent.of,
    show σ.annotations.expression? e.id = some t from recorded]
  rfl

theorem Yields.targetComponents (typed : ∀ e, some e ∈ slots → (σ.expression? e.id).isSome)
    (paired : sources.length = slots.length) : Yields c σ (targetComponents slots sources)
      (∀ e, some e ∈ slots → IndicesResolve c.declarations e)
      ((presentSlots slots sources).map (.of c.declarations σ.annotations)) := by
  induction slots generalizing sources with
  | nil => exact (Yields.pure []).congr (iff_of_true trivial nofun) rfl
  | cons slot rest ih =>
    cases sources with
    | nil => cases paired
    | cons source sources =>
      have others := ih (fun e mem => typed e (mem_cons_of_mem _ mem)) (Nat.succ.inj paired)
      cases slot with
      | none => exact others.congr (by simp) rfl
      | some e =>
        exact ((targetComponent (typed e mem_cons_self)).bind (others.map _)).congr (by simp) rfl

theorem guardStorage_ok_iff {isInlineArray : Bool}
    (typed : ∀ e, some e ∈ slots → (σ.expression? e.id).isSome)
    (paired : sources.length = slots.length) :
    guardStorage (.tuple node slots isInlineArray) (.tuple sources) span c σ = .ok ((), υ) ↔
      (∀ e, some e ∈ slots → IndicesResolve c.declarations e) ∧
        υ = if interfere ((presentSlots slots sources).map (.of c.declarations σ.annotations)) then
          σ.noting [⟨.doubleStorageAssignment, span, .warning⟩] else σ := by
  rw [guardStorage, bind_ok]
  constructor
  · rintro ⟨components, after, found, run⟩
    obtain ⟨resolve, rfl, rfl⟩ := (Yields.targetComponents typed paired _ _).mp found
    refine ⟨resolve, ?_⟩
    split at run
    · next warned => rw [if_pos warned]; cases run; rfl
    · next silent => rw [if_neg silent]; cases run; rfl
  · rintro ⟨resolve, rfl⟩
    refine ⟨_, _, (Yields.targetComponents typed paired _ _).mpr ⟨resolve, rfl, rfl⟩, ?_⟩
    split <;> rfl

end Check

/-! ## Components that interfere -/

/-- Two components of a target overlap. -/
def Declarations.SlotsOverlap (d : Declarations) (a : Annotations) (slots : List (Option Expr)) :
    Prop :=
  ∃ (i j : Nat) (e e' : Expr), i ≠ j ∧ slots[i]? = some (some e) ∧ slots[j]? = some (some e') ∧
    d.Overlap a e e'

/-- A component of a target is there, and it is copied to storage. -/
def Annotations.CopiesAt (a : Annotations) (slots : List (Option Expr)) (i : Nat) : Prop :=
  ∃ e t, slots[i]? = some (some e) ∧ a.expression? e.id = some t ∧ t.isStorageReference = true

/-- Two components of a target are copied to storage, one of them from there. -/
def Annotations.CopiesInterfere (a : Annotations) (slots : List (Option Expr))
    (sources : List (Option Ty)) : Prop :=
  ∃ (i j : Nat) (t : Ty), i ≠ j ∧ a.CopiesAt slots i ∧ a.CopiesAt slots j ∧
    sources[i]? = some (some t) ∧ t.location? = some .storage

theorem anyOverlap_eq_false_iff {paths : List StoragePath} : anyOverlap paths = false ↔
      paths.Pairwise fun path other =>
        ¬ (path.mayContain other || other.mayContain path) = true := by
  induction paths with
  | nil => exact ⟨fun _ => .nil, fun _ => rfl⟩
  | cons path rest ih =>
    rw [anyOverlap, Bool.or_eq_false_iff, any_eq_false, pairwise_cons, ih]

theorem length_lt_two_iff {α : Type} {l : List α} : l.length < 2 ↔ l.Pairwise fun _ _ => False := by
  match l with
  | [] => simp
  | [x] => simp
  | x :: y :: rest =>
    refine ⟨fun short => ?_, fun none => (rel_of_pairwise_cons none mem_cons_self).elim⟩
    simp only [length_cons] at short
    omega

section Slots

variable {d : Declarations} {a : Annotations} {slots : List (Option Expr)}
  {sources : List (Option Ty)}

variable (paired : sources.length = slots.length)

include paired

/-- The components that are there, whatever is assigned to them. -/
theorem map_fst_presentSlots : (presentSlots slots sources).map Prod.fst = slots.filterMap id := by
  have whole : (slots.zip sources).map Prod.fst = slots := map_fst_zip (Nat.le_of_eq paired.symm)
  have present : (presentSlots slots sources).map Prod.fst =
      ((slots.zip sources).map Prod.fst).filterMap id := by
    rw [presentSlots, map_filterMap, filterMap_map]
    congr 1
    funext slot
    obtain ⟨_ | e, source⟩ := slot <;> rfl
  rw [present, whole]

/-- A relation between components holds of two of them somewhere in the target. -/
theorem exists_pair_iff {R : Expr → Expr → Prop} (symm : ∀ e e', R e e' → R e' e) :
    ¬ (presentSlots slots sources).Pairwise (fun x y => ¬ R x.1 y.1) ↔
      ∃ (i j : Nat) (e e' : Expr), i ≠ j ∧ slots[i]? = some (some e) ∧ slots[j]? = some (some e') ∧
        R e e' := by
  have unpaired : (presentSlots slots sources).Pairwise (fun x y => ¬ R x.1 y.1) ↔
      (slots.filterMap id).Pairwise fun e e' => ¬ R e e' := by
    rw [← map_fst_presentSlots paired, List.pairwise_map]
  rw [unpaired, List.pairwise_filterMap, List.pairwise_iff_getElem]
  constructor
  · intro related
    by_contra none
    refine related fun i j inside inside' before e isE e' isE' relates => none ?_
    exact ⟨i, j, e, e', before.ne, List.getElem?_eq_some_iff.mpr ⟨inside, isE⟩,
      List.getElem?_eq_some_iff.mpr ⟨inside', isE'⟩, relates⟩
  · rintro ⟨i, j, e, e', apart, isE, isE', relates⟩ unrelated
    obtain ⟨inside, isE⟩ := List.getElem?_eq_some_iff.mp isE
    obtain ⟨inside', isE'⟩ := List.getElem?_eq_some_iff.mp isE'
    rcases Nat.lt_or_gt_of_ne apart with before | after
    · exact unrelated i j inside inside' before e isE e' isE' relates
    · exact unrelated j i inside' inside after e' isE' e isE (symm e e' relates)

omit paired in
theorem exists_place?_iff : (∃ path other, e.place? d a = some path ∧ e'.place? d a = some other ∧
      (path.mayContain other || other.mayContain path) = true) ↔ d.Overlap a e e' := by
  constructor
  · rintro ⟨path, other, found, found', overlaps⟩
    rcases Bool.or_eq_true_iff.mp overlaps with outer | inner
    · obtain ⟨root, steps, steps', addresses, addresses', inside⟩ :=
        (mayContain_iff_addresses found found').mp outer
      exact ⟨root, steps, steps', addresses, addresses', .inl inside⟩
    · obtain ⟨root, steps', steps, addresses', addresses, inside⟩ :=
        (mayContain_iff_addresses found' found).mp inner
      exact ⟨root, steps, steps', addresses, addresses', .inr inside⟩
  · rintro ⟨root, steps, steps', addresses, addresses', inside⟩
    obtain ⟨_, found, -⟩ := addresses_iff.mp addresses
    obtain ⟨_, found', -⟩ := addresses_iff.mp addresses'
    refine ⟨_, _, found, found', Bool.or_eq_true_iff.mpr ?_⟩
    rcases inside with inside | inside
    · exact .inl ((mayContain_iff_addresses found found').mpr
        ⟨root, steps, steps', addresses, addresses', inside⟩)
    · exact .inr ((mayContain_iff_addresses found' found).mpr
        ⟨root, steps', steps, addresses', addresses, inside⟩)

omit paired in
theorem Declarations.Overlap.symm (overlap : d.Overlap a e e') : d.Overlap a e' e := by
  obtain ⟨root, path, path', addresses, addresses', inside⟩ := overlap
  exact ⟨root, path', path, addresses', addresses, inside.symm⟩

theorem anyOverlap_iff :
    anyOverlap
      (((presentSlots slots sources).map (.of d a)).filterMap TargetComponent.path) = true ↔
      d.SlotsOverlap a slots := by
  rw [← Bool.not_eq_false, anyOverlap_eq_false_iff, filterMap_map, pairwise_filterMap]
  have related (x y : Expr × Option Ty) : (∀ path, x.1.place? d a = some path →
      ∀ other, y.1.place? d a = some other →
      ¬ (path.mayContain other || other.mayContain path) = true) ↔
      ¬ d.Overlap a x.1 y.1 := by
    rw [← exists_place?_iff]
    simp only [not_exists, not_and]
    exact ⟨fun none path other found found' => none path found other found',
      fun none path found other found' => none path other found found'⟩
  exact (not_congr (Pairwise.iff related)).trans (exists_pair_iff paired fun _ _ => Overlap.symm)

omit paired in
theorem copied_of_iff (d : Declarations) (source : Option Ty) {i : Nat}
    (present : slots[i]? = some (some e)) :
    (TargetComponent.of d a (e, source)).copied = true ↔ a.CopiesAt slots i := by
  show (a.expression? e.id).any isStorageReference = true ↔ _
  rw [Option.any_eq_true]
  constructor
  · rintro ⟨t, recorded, copied⟩
    exact ⟨e, t, present, recorded, copied⟩
  · rintro ⟨e', t, present', recorded, copied⟩
    cases present.symm.trans present'
    exact ⟨t, recorded, copied⟩

theorem two_copied_iff :
    2 ≤ (((presentSlots slots sources).map (.of d a)).filter TargetComponent.copied).length ↔
      ∃ i j, i ≠ j ∧ a.CopiesAt slots i ∧ a.CopiesAt slots j := by
  let copied (e : Expr) : Prop := (a.expression? e.id).any isStorageReference = true
  rw [← Nat.not_lt, filter_map, length_map, length_lt_two_iff, pairwise_filter]
  have related (x y : Expr × Option Ty) : (copied x.1 → copied y.1 → False) ↔
    ¬ (copied x.1 ∧ copied y.1) :=
    not_and.symm
  refine (not_congr (Pairwise.iff related)).trans ?_
  rw [exists_pair_iff paired (R := fun e e' => copied e ∧ copied e') fun _ _ => And.symm]
  constructor
  · rintro ⟨i, j, e, e', apart, present, present', isCopied, isCopied'⟩
    exact ⟨i, j, apart, (copied_of_iff d none present).mp isCopied,
      (copied_of_iff d none present').mp isCopied'⟩
  · rintro ⟨i, j, apart, copies, copies'⟩
    obtain ⟨e, -, present, -⟩ := id copies
    obtain ⟨e', -, present', -⟩ := id copies'
    exact ⟨i, j, e, e', apart, present, present', (copied_of_iff d none present).mpr copies,
      (copied_of_iff d none present').mpr copies'⟩

omit paired in
theorem copiedFromStorage_iff :
    ((presentSlots slots sources).map (.of d a)).any TargetComponent.copiedFromStorage = true ↔
      ∃ i t, a.CopiesAt slots i ∧ sources[i]? = some (some t) ∧ t.location? = some .storage := by
  rw [any_map, any_eq_true]
  constructor
  · rintro ⟨x, mem, copied⟩
    obtain ⟨slot, inside, isX⟩ := mem_filterMap.mp mem
    obtain ⟨e, isSlot, rfl⟩ := Option.map_eq_some_iff.mp isX
    obtain ⟨i, found⟩ := mem_iff_getElem?.mp inside
    obtain ⟨present, assigned⟩ := getElem?_zip_eq_some.mp found
    obtain ⟨copied, stored⟩ := Bool.and_eq_true_iff.mp copied
    obtain ⟨t, isSource, location⟩ := (Option.any_eq_true _ _).mp stored
    rw [isSlot] at present
    exact ⟨i, t, (copied_of_iff d slot.2 present).mp copied, by
      rw [assigned, ← isSource], beq_iff_eq.mp location⟩
  · rintro ⟨i, t, copies, assigned, location⟩
    obtain ⟨e, -, present, -⟩ := id copies
    refine ⟨(e, some t), mem_filterMap.mpr ⟨(some e, some t), ?_, rfl⟩,
      Bool.and_eq_true_iff.mpr ⟨?_, ?_⟩⟩
    · exact mem_of_getElem? (getElem?_zip_eq_some.mpr ⟨present, assigned⟩)
    · exact (copied_of_iff d (some t) present).mpr copies
    · exact beq_iff_eq.mpr location

theorem interfere_iff : interfere ((presentSlots slots sources).map (.of d a)) = true ↔
      d.SlotsOverlap a slots ∨ a.CopiesInterfere slots sources := by
  rw [interfere, Bool.or_eq_true, Bool.and_eq_true, decide_eq_true_iff, anyOverlap_iff paired,
    ge_iff_le, two_copied_iff paired, copiedFromStorage_iff]
  refine or_congr_right ⟨?_, ?_⟩
  · rintro ⟨⟨k, l, apart, copies, copies'⟩, i, t, copiesFrom, assigned, location⟩
    -- One of the two is not the component that is copied from storage.
    by_cases same : i = k
    · exact ⟨i, l, t, same ▸ apart, copiesFrom, copies', assigned, location⟩
    · exact ⟨i, k, t, same, copiesFrom, copies, assigned, location⟩
  · rintro ⟨i, j, t, apart, copies, copies', assigned, location⟩
    exact ⟨⟨i, j, apart, copies, copies'⟩, i, t, copies, assigned, location⟩

end Slots

/-! ## Assignments to tuples -/

theorem Ty.length_eq_of_componentsConvertible {targets : List (Option Ty)}
    (converts : componentsConvertible sources targets = true) :
    sources.length = targets.length := by
  induction sources generalizing targets with
  | nil =>
    cases targets with
    | nil => rfl
    | cons target targets => cases target <;> cases converts
  | cons source sources ih =>
    cases targets with
    | nil => cases source <;> cases converts
    | cons target targets =>
      cases target with
      | none => exact congrArg Nat.succ (ih converts)
      | some target =>
        cases source with
        | none => cases converts
        | some source => exact congrArg Nat.succ (ih (Bool.and_eq_true_iff.mp converts).2)

/-- Only a tuple as long converts to a tuple. -/
theorem Ty.exists_tuple_of_converts {t : Ty} {components : List (Option Ty)}
    (valid : t.isInvalid = false) (converts : t.implicitlyConvertible (.tuple components) = true) :
    ∃ sources, t = .tuple sources ∧ sources.length = components.length := by
  have isValid : t ≠ .invalid := by
    rintro rfl
    cases valid
  have isTuple : tuple components ≠ .invalid := by
    intro same
    cases same
  cases Rule.of_converts isValid isTuple converts with
  | same => exact ⟨components, rfl, rfl⟩
  | tuple converts => exact ⟨_, rfl, length_eq_of_componentsConvertible converts⟩

namespace Check

variable {c : Context} {σ τ : Findings} {slots : List (Option Expr)}

theorem components_ok {types : List (Option Ty)}
    (run : components true span slots c σ = .ok (types, τ)) :
    types.length = slots.length ∧ ∀ e, some e ∈ slots → (τ.expression? e.id).isSome := by
  induction slots generalizing σ types with
  | nil =>
    cases run
    exact ⟨rfl, nofun⟩
  | cons slot rest ih =>
    cases slot with
    | none =>
      rw [components, if_pos rfl, bind_run rfl] at run
      obtain ⟨others, υ', found, run⟩ := bind_ok.mp run
      obtain ⟨rfl, rfl⟩ := pure_ok.mp run
      obtain ⟨long, typed⟩ := ih found
      exact ⟨congrArg Nat.succ long, fun e mem => typed e ((mem_cons.mp mem).resolve_left nofun)⟩
    | some e =>
      obtain ⟨t, υ, first, run⟩ := bind_ok.mp run
      obtain ⟨others, υ', found, run⟩ := bind_ok.mp run
      obtain ⟨rfl, rfl⟩ := pure_ok.mp run
      obtain ⟨long, typed⟩ := ih found
      refine ⟨congrArg Nat.succ long, fun e' mem => ?_⟩
      rcases mem_cons.mp mem with same | later
      · cases same
        have recorded := Records.expression _ _ _ _ _ _ first
        exact Option.isSome_of_mem
          ((Advances.components _ _ _ _ _ _ _ found).expression _ _ recorded)
      · exact typed e' later

theorem target_ok {left : Ty} (several : 2 ≤ slots.length)
    (run : expression (.tuple node slots false) { isTarget := true } c σ = .ok (left, τ)) :
    ∃ types, left = .tuple types ∧ types.length = slots.length ∧
      ∀ e, some e ∈ slots → (τ.expression? e.id).isSome := by
  obtain ⟨types, υ, parts, run⟩ := bind_ok.mp run
  obtain ⟨long, typed⟩ := components_ok parts
  refine ⟨types, ?_, long, fun e mem => ?_⟩
  · rw [← annotate_value run]
    match types with
    | [] | [_] =>
      simp only [length_nil, length_singleton] at long
      omega
    | first :: _ :: _ => cases first <;> rfl
  · obtain ⟨t, recorded⟩ := Option.isSome_iff_exists.mp (typed e mem)
    exact Option.isSome_of_mem ((Advances.annotate _ _ _ _ _ _ run).expression _ _ recorded)

end Check

/-- A tuple that converts is guarded, and nothing else is checked. -/
theorem Check.assignmentType_tuple {target source : Expr} {components : List (Option Ty)}
    (valid : (tuple components).isInvalid = false) (valid' : (tuple sources).isInvalid = false)
    (paired : sources.length = components.length)
    (converts : (tuple sources).implicitlyConvertible (.tuple components) = true) :
    assignmentType none target source (.tuple components) (.tuple sources) span =
      guardStorage target (.tuple sources) span >>= fun _ => pure (.tuple components) := by
  have counted : (tuple sources).componentCount?.filter (· != components.length) = none := by
    simp [componentCount?, paired]
  simp [assignmentType, assignTuple, valid, valid', converts, counted]

/-- **The storage guard.** In an assignment to a tuple of several components whose value converts,
the guard is what comes after the two sides. It ends if no index on the way to a component comes to
a dangling reference. Then it warns exactly once if components overlap, or if several are copied to
storage and one of them from there, and does nothing otherwise. -/
theorem storage_guard_exact {c : Context} {σ σ' σ'' τ : Findings} {node tupleNode : Node}
    {slots : List (Option Expr)} {source : Expr} {left right : Ty} {demand : Demand}
    (several : 2 ≤ slots.length)
    (targets : Check.expression (.tuple tupleNode slots false) { isTarget := true }
      c σ = .ok (left, σ'))
    (assignable : Check.requireAssignable true (.tuple tupleNode slots false) c σ' = .ok ((), σ''))
    (value : Check.expression source {} c σ'' = .ok (right, τ)) (valid : left.isInvalid = false)
    (valid' : right.isInvalid = false) (converts : right.implicitlyConvertible left = true) :
    let guard := Check.guardStorage (.tuple tupleNode slots false) right node.span
    Check.expression (.assignment node none (.tuple tupleNode slots false) source) demand c σ =
        (guard >>= fun _ => Check.annotate node.id left) c τ ∧
      ((∃ υ, guard c τ = .ok ((), υ)) ↔
        ∀ e, some e ∈ slots →
        ∀ index ∈ e.pathIndices, ∀ fault, ¬ c.declarations.Stops index fault) ∧
      ∃ sources, right = .tuple sources ∧ sources.length = slots.length ∧
        ∀ υ, guard c τ = .ok ((), υ) →
          (c.declarations.SlotsOverlap τ.annotations slots ∨
            τ.annotations.CopiesInterfere slots sources →
            υ = τ.noting [⟨.doubleStorageAssignment, node.span, .warning⟩]) ∧
          (¬ (c.declarations.SlotsOverlap τ.annotations slots ∨
            τ.annotations.CopiesInterfere slots sources) → υ = τ) := by
  intro guard
  obtain ⟨types, rfl, long, typed⟩ := Check.target_ok several targets
  obtain ⟨sources, rfl, paired⟩ := Ty.exists_tuple_of_converts valid' converts
  have typedLater (e : Expr) (mem : some e ∈ slots) : (τ.expression? e.id).isSome := by
    obtain ⟨t, recorded⟩ := Option.isSome_iff_exists.mp (typed e mem)
    have kept :=
      ((Check.Remarks.requireAssignable _ _).advances _ _ _ _ assignable).expression _ _ recorded
    exact Option.isSome_of_mem ((Check.Advances.expression _ _ _ _ _ _ value).expression _ _ kept)
  have guarded {υ : Findings} : guard c τ = .ok ((), υ) ↔ _ :=
    Check.guardStorage_ok_iff typedLater (paired.trans long)
  refine ⟨?_, ?_, sources, rfl, paired.trans long, fun υ run => ?_⟩
  · rw [Check.expression, Check.bind_run targets, Option.isNone_none, Check.bind_run assignable,
      Check.bind_run value, Check.assignmentType_tuple valid valid' paired converts, bind_assoc]
    simp only [pure_bind]
    rfl
  · exact ⟨fun ⟨υ, run⟩ => (guarded.mp run).1, fun resolve => ⟨_, guarded.mpr ⟨resolve, rfl⟩⟩⟩
  · obtain ⟨-, rfl⟩ := guarded.mp run
    constructor
    · intro interferes
      rw [if_pos ((interfere_iff (paired.trans long)).mpr interferes)]
    · intro apart
      rw [if_neg fun interferes => apart ((interfere_iff (paired.trans long)).mp interferes)]

/-- Elements of an array in storage, at an index that is given and at one. -/
def givenAndOne : List (Option Expr) :=
  let node (id : Int64) : Node := ⟨⟨id⟩, .unknown⟩
  let items (id : Int64) : Expr := .identifier (node id) "items" (some ⟨3⟩) []
  [some (.index (node 8) (items 9) (some (.identifier (node 10) "given" (some ⟨7⟩) []))),
    some (.index (node 11) (items 12) (some (.literal (node 13) .number "1" none)))]

/-- Two numbers. -/
def zeroAndTwo : Expr :=
  let node (id : Int64) : Node := ⟨⟨id⟩, .unknown⟩
  .tuple (node 14)
    [some (.literal (node 15) .number "0" none), some (.literal (node 16) .number "2" none)] false

/-- A contract with the array, and with a function that is given an index. -/
def itemsUnit : SourceUnit :=
  let node (id : Int64) : Node := ⟨⟨id⟩, .unknown⟩
  let word (id : Int64) : TypeName := .elementary (node id) "uint256" false
  { node := node 1
    path := "items"
    abiCoder := none
    parts := [.contract ⟨node 2, "Items", .contract, false, [], [],
      [.stateVariable (.mk { node := node 3, name := "items", isState := true }
          (some (.array (node 4) (word 5) none)) none),
        .function { (default : Function) with
          node := node 6, name := "set"
          parameters := [.mk { node := node 7, name := "given" } (some (word 17)) none] }]⟩] }

/-- The two sides, and what is checked between them and after them. -/
def givenAndOneSides : Check (Ty × Ty) := do
  let target := Expr.tuple ⟨⟨18⟩, .unknown⟩ givenAndOne false
  let left ← expression target { isTarget := true }
  requireAssignable true target
  let right ← expression zeroAndTwo {}
  guardStorage target right .unknown
  return (left, right)

theorem givenAndOne_overlap (a : Annotations) :
    (Declarations.ofUnit itemsUnit).SlotsOverlap a givenAndOne := by
  have root {node : Node} :
      (Declarations.ofUnit itemsUnit).Addresses a (.identifier node "items" (some ⟨3⟩) []) ⟨3⟩ [] :=
    .root rfl (.inl (by decide))
  refine ⟨0, 1, _,
    _, by decide, rfl, rfl, ⟨3⟩, [.index 1], [.index 1], .index root ?_, .index root ?_, .inl ?_⟩
  · intro e x same has
    cases same
    cases has with
    | constant found => cases found
  · intro e x same has
    cases same
    cases has with
    | literal found =>
      have one : literalValue? "1" none = some .one := by decide +kernel
      cases one.symm.trans found
      exact Fraction.value_one
  · exact prefix_rfl

/-- The index that is given may be one. -/
theorem storage_guard_exact_given_and_one :
    let c := Check.contextOf itemsUnit {}
    let target := Expr.tuple ⟨⟨18⟩, .unknown⟩ givenAndOne false
    2 ≤ givenAndOne.length ∧ ∃ left right σ' σ'' τ,
      Check.expression target { isTarget := true } c {} = .ok (left, σ') ∧
      Check.requireAssignable true target c σ' = .ok ((), σ'') ∧
      Check.expression zeroAndTwo {} c σ'' = .ok (right, τ) ∧
      left.isInvalid = false ∧ right.isInvalid = false ∧ right.implicitlyConvertible left = true ∧
      c.declarations.SlotsOverlap τ.annotations givenAndOne ∧
      Check.guardStorage target right .unknown c τ =
        .ok ((), τ.noting [⟨.doubleStorageAssignment, .unknown, .warning⟩]) := by
  intro c target
  have several : 2 ≤ givenAndOne.length := by decide
  obtain ⟨⟨types, found⟩, run, valid, valid', converts⟩ :
      ∃ result, givenAndOneSides c {} = .ok result ∧
      result.1.1.isInvalid = false ∧ result.1.2.isInvalid = false ∧
      result.1.2.implicitlyConvertible result.1.1 = true := exists_ok (by decide +kernel)
  obtain ⟨left, σ', targets, run⟩ := Check.bind_ok.mp run
  obtain ⟨⟨⟩, σ'', assignable, run⟩ := Check.bind_ok.mp run
  obtain ⟨right, τ, value, run⟩ := Check.bind_ok.mp run
  obtain ⟨⟨⟩, υ, guarded, run⟩ := Check.bind_ok.mp run
  obtain ⟨rfl, rfl⟩ := Check.pure_ok.mp run
  obtain ⟨-, -, sources, -, -, recorded⟩ :=
    @storage_guard_exact c {} σ' σ'' τ ⟨⟨19⟩, .unknown⟩ _ _ _ _ _ {}
    several targets assignable value valid valid' converts
  have overlap := givenAndOne_overlap τ.annotations
  have warned := (recorded found guarded).1 (.inl overlap)
  exact ⟨several, left, right, σ', σ'', τ, targets, assignable, value, valid, valid',
    converts, overlap, warned ▸ guarded⟩

end ContractTyping
