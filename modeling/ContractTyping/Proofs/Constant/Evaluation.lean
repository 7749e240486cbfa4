import ContractTyping.Proofs.Constant.Meaning
import ContractTyping.Proofs.Reference
import Mathlib.Data.List.Perm.Subperm

/-!
# What constants evaluate to

Evaluation has a memory, a list of the constants under evaluation and a bound on how deeply they are
nested. None of them shows: evaluation finds what an expression means.

* `finds_constantValue`: what is found for a constant while others are being evaluated is what it
  means, and so is what is remembered of it.
* `constantValue_bounded`: the bound is never reached.
* `evaluation_forgetful`: results do not depend on what was evaluated before, and a constant that
  comes back to itself has none.
-/

namespace ContractTyping

open Relation List

namespace Declarations

variable {d : Declarations}
variable {e left right : Expr} {x : Fraction} {active : List NodeId} {target : NodeId} {depth : Nat}

/-! ## Evaluation of an expression -/

/-- What is remembered of constants is what they mean. -/
def Sound (d : Declarations) (cache : ConstantCache) : Prop :=
  ∀ target result, cache.lookup target = some result →
    ∃ value, d.constant? target = some value ∧ d.Agrees value (.ok result)

/-- A computation finds what an expression means, and remembers only what constants mean. -/
def Finds (d : Declarations) (m : Evaluation (Option Fraction)) (e : Expr) : Prop :=
  ∀ cache, d.Sound cache → d.Agrees e (m.outcome cache).1 ∧ d.Sound (m.outcome cache).2

theorem finds_pure {value : Option Fraction} (agrees : d.Agrees e (.ok value)) :
    d.Finds (pure value) e := fun _ sound => ⟨agrees, sound⟩

/-- An operand is evaluated first: if it stops, then so does the whole, and otherwise the whole goes
on from what the operand means. -/
theorem finds_bind {operand : Expr} {m : Evaluation (Option Fraction)}
    {f : Option Fraction → Evaluation (Option Fraction)} (first : d.Finds m operand)
    (stops : ∀ fault, d.Stops operand fault → d.Stops e fault)
    (next : ∀ value, d.Agrees operand (.ok value) → d.Finds (f value) e) : d.Finds (m >>= f) e := by
  intro cache sound
  obtain ⟨agrees, sound'⟩ := first cache sound
  rcases run : m.outcome cache with ⟨result, after⟩
  rw [run] at agrees sound'
  cases result with
  | error fault =>
    rw [Evaluation.outcome_bind_error run]
    cases agrees with
    | fault stopped => exact ⟨.fault (stops fault stopped), sound'⟩
  | ok value =>
    rw [Evaluation.outcome_bind_ok run]
    exact next value agrees after sound'

theorem agrees_literal (node : Node) (text : String) (unit : Option Denomination) :
    d.Agrees (.literal node .number text unit) (.ok (literalValue? text unit)) := by
  cases found : literalValue? text unit with
  | some x => exact .value (.literal found)
  | none =>
    refine .nothing (fun x has => ?_) nofun
    cases has with
    | literal found' => rw [found] at found'; cases found'

theorem Agrees.parentheses {inner : Expr} {result : Except Fault (Option Fraction)}
    (agrees : d.Agrees inner result) (node : Node) :
    d.Agrees (.tuple node [some inner] false) result := by
  cases agrees with
  | value has => exact .value (.parentheses has)
  | fault stops => exact .fault (.parentheses stops)
  | nothing noValue noFault =>
    refine .nothing (fun x has => ?_) (fun fault stops => ?_)
    · cases has with | parentheses has => exact noValue x has
    · cases stops with | parentheses stops => exact noFault fault stops

theorem Agrees.negate {operand : Expr} {value : Option Fraction}
    (agrees : d.Agrees operand (.ok value)) (node : Node) (isPrefix : Bool) :
    d.Agrees (.unary node .negate isPrefix operand) (.ok (value.map Fraction.neg)) := by
  cases agrees with
  | value has => exact .value (.negate has)
  | nothing noValue noFault =>
    refine .nothing (fun x has => ?_) (fun fault stops => ?_)
    · cases has with | negate has => exact noValue _ has
    · cases stops with | negate stops => exact noFault fault stops

/-- A binary operation has no value if its left operand has none. -/
theorem agrees_left (agrees : d.Agrees left (.ok none)) (node : Node) (op : BinaryOp)
    (right : Expr) : d.Agrees (.binary node op left right) (.ok none) := by
  cases agrees with
  | nothing noValue noFault =>
    refine .nothing (fun x has => ?_) (fun fault stops => ?_)
    · cases has with | binary has => exact noValue _ has
    · cases stops with
      | left stops => exact noFault fault stops
      | right has => exact noValue _ has

/-- Nor if its right operand has none. -/
theorem agrees_right (has : d.HasValue left x) (agrees : d.Agrees right (.ok none)) (node : Node)
    (op : BinaryOp) : d.Agrees (.binary node op left right) (.ok none) := by
  cases agrees with
  | nothing noValue noFault =>
    refine .nothing (fun x has => ?_) (fun fault stops => ?_)
    · cases has with | binary _ has => exact noValue _ has
    · cases stops with
      | left stops => exact has.not_stops stops
      | right _ stops => exact noFault fault stops

/-- If both operands have a value, the operator decides. -/
theorem agrees_binary {y : Fraction} (has : d.HasValue left x) (has' : d.HasValue right y)
    (node : Node) (op : BinaryOp) :
    d.Agrees (.binary node op left right)
      (.ok (if op.isConstantOp then op.fold? x y else none)) := by
  have noFault : ∀ fault, ¬ d.Stops (.binary node op left right) fault := by
    intro fault stops
    cases stops with
    | left stops => exact has.not_stops stops
    | right _ stops => exact has'.not_stops stops
  have folded : ∀ z, d.HasValue (.binary node op left right) z → op.isConstantOp = true ∧
      op.fold? x y = some z := by
    intro z whole
    cases whole with
    | binary left right constant folded =>
      rw [left.unique has, right.unique has'] at folded
      exact ⟨constant, folded⟩
  split
  · next constant =>
    cases found : op.fold? x y with
    | some z => exact .value (.binary has has' constant found)
    | none =>
      refine .nothing (fun z whole => ?_) noFault
      have := (folded z whole).2
      rw [found] at this
      cases this
  · next notConstant => exact .nothing (fun z whole => notConstant (folded z whole).1) noFault

theorem finds_evaluateWith {constant : (node target : NodeId) → Evaluation (Option Fraction)}
    (e : Expr) (finds : ∀ node name target overloads, d.Meets e target →
      d.Finds (constant node.id target) (.identifier node name (some target) overloads)) :
    d.Finds (e.evaluateWith constant) e := by
  fun_induction Expr.evaluateWith constant e with
  | case1 node text unit => exact finds_pure (agrees_literal node text unit)
  | case2 node name target overloads => exact finds _ _ _ _ .here
  | case3 node inner ih =>
    intro cache sound
    have found := ih (fun _ _ _ _ meets => finds _ _ _ _ (.parentheses meets)) cache sound
    exact ⟨found.1.parentheses node, found.2⟩
  | case4 node isPrefix operand ih =>
    refine finds_bind (ih fun _ _ _ _ meets => finds _ _ _ _ (.negate meets)) (fun _ => .negate) ?_
    intro value agrees
    exact finds_pure (agrees.negate node isPrefix)
  | case5 node op left right ihLeft ihRight =>
    refine finds_bind (ihLeft fun _ _ _ _ meets => finds _ _ _ _ (.left meets)) (fun _ => .left) ?_
    intro value agrees
    cases agrees with
    | nothing noValue noFault =>
      exact finds_pure (agrees_left (.nothing noValue noFault) node op right)
    | value has =>
      refine finds_bind (ihRight fun _ _ _ _ meets => finds _ _ _ _ (.right has meets))
        (fun _ => .right has) ?_
      intro value agrees
      cases agrees with
      | nothing noValue noFault =>
        exact finds_pure (agrees_right has (.nothing noValue noFault) node op)
      | value has' => exact finds_pure (agrees_binary has has' node op)
  | case6 e notLiteral notConstant notParentheses notNegation notBinary =>
    refine finds_pure (.nothing (fun x has => ?_) (fun fault stops => ?_))
    · cases has with
      | literal => exact notLiteral _ _ _ rfl
      | constant => exact notConstant _ _ _ _ rfl
      | parentheses => exact notParentheses _ _ rfl
      | negate => exact notNegation _ _ _ rfl
      | binary => exact notBinary _ _ _ _ rfl
    · cases stops with
      | dangling => exact notConstant _ _ _ _ rfl
      | constant => exact notConstant _ _ _ _ rfl
      | parentheses => exact notParentheses _ _ rfl
      | negate => exact notNegation _ _ _ rfl
      | left => exact notBinary _ _ _ _ rfl
      | right => exact notBinary _ _ _ _ rfl

/-! ## The constants under evaluation -/

/-- The constants under evaluation are different and declared, and what is left of the bound is
enough for those that are not among them. -/
structure Bounded (d : Declarations) (depth : Nat) (active : List NodeId) : Prop where
  distinct : active.Nodup
  declared : active ⊆ d.entries.map Prod.fst
  enough : d.entries.length < depth + active.length

theorem bounded_nil (d : Declarations) (more : Nat) : d.Bounded (d.entries.length + 1 + more) [] :=
  ⟨nodup_nil, nil_subset _, by rw [length_nil]; omega⟩

theorem not_bounded_zero : ¬ d.Bounded 0 active := by
  intro bounded
  have most := (subperm_of_subset bounded.distinct bounded.declared).length_le
  have enough := bounded.enough
  rw [length_map] at most
  omega

/-- A constant is declared in the file. -/
theorem declared_of_constant? {value : Expr} (found : d.constant? target = some value) :
    target ∈ d.entries.map Prod.fst := by
  unfold constant? at found
  split at found
  · next v scope looked =>
    unfold lookup? at looked
    split at looked
    · obtain ⟨g, -, wrong⟩ := Option.map_eq_some_iff.mp looked
      cases wrong
    · rw [find?, lookup_eq_some_iff] at looked
      obtain ⟨before, after, split, -⟩ := looked
      rw [split]
      simp
  · cases found

theorem Bounded.cons {depth : Nat} {active : List NodeId} {target : NodeId} {value : Expr}
    (bounded : d.Bounded (depth + 1) active) (found : d.constant? target = some value)
    (fresh : active.contains target = false) : d.Bounded depth (target :: active) where
  distinct := nodup_cons.mpr ⟨by simpa using fresh, bounded.distinct⟩
  declared := cons_subset.mpr ⟨declared_of_constant? found, bounded.declared⟩
  enough := by
    have := bounded.enough
    rw [length_cons]
    omega

/-- The value of a constant that is evaluated now, unless it is under evaluation already. -/
def freshValue (d : Declarations) (depth : Nat) (active : List NodeId) (target : NodeId)
    (value : Expr) : Evaluation (Option Fraction) := do
  if active.contains target then return none
  let result ← value.evaluateWith (d.constantValue depth (target :: active))
  modify ((target, result) :: ·)
  return result

/-- A step of evaluation by what a reference leads to. -/
theorem constantValue_succ (d : Declarations) (depth : Nat) (active : List NodeId)
    (node target : NodeId) : d.constantValue (depth + 1) active node target =
      match d.constant? target with
      | some value => do
        if let some known := (← get).lookup target then return known
        d.freshValue depth active target value
      | none =>
        if (d.lookup? target).isNone then throw (.danglingReference node target)
          else pure none := by
  rw [constantValue, constant?]
  cases looked : d.lookup? target with
  | none => rfl
  | some declaration =>
    obtain ⟨item, scope⟩ := declaration
    cases item with
    | var v =>
      cases constant : v.isConstant with
      | false => simp only [constant]; rfl
      | true =>
        cases given : v.value with
        | none => simp only [constant, given]; rfl
        | some value => simp only [constant, given]; rfl
    | _ => rfl

/-- The bound never shows: with more left, the values are the same. -/
theorem constantValue_bounded {depth' : Nat} (bounded : d.Bounded depth active)
    (bounded' : d.Bounded depth' active) :
    d.constantValue depth active = d.constantValue depth' active := by
  induction depth generalizing depth' active with
  | zero => exact absurd bounded not_bounded_zero
  | succ depth ih =>
    cases depth' with
    | zero => exact absurd bounded' not_bounded_zero
    | succ depth' =>
      funext node target
      rw [constantValue_succ, constantValue_succ]
      cases found : d.constant? target with
      | none => rfl
      | some value =>
        have fresh :
            d.freshValue depth active target value = d.freshValue depth' active target value := by
          unfold freshValue
          cases known : active.contains target with
          | true => rfl
          | false => rw [ih (bounded.cons found known) (bounded'.cons found known)]
        dsimp only
        rw [fresh]

/-- Nothing but the constant itself is added to what is remembered. -/
theorem Sound.cons {cache : ConstantCache} {target : NodeId} {value : Expr}
    {result : Option Fraction} (sound : d.Sound cache) (found : d.constant? target = some value)
    (agrees : d.Agrees value (.ok result)) : d.Sound ((target, result) :: cache) := by
  intro other result' remembered
  rw [lookup_cons] at remembered
  split at remembered
  · next same =>
    cases remembered
    rw [eq_of_beq same]
    exact ⟨value, found, agrees⟩
  · exact sound other result' remembered

theorem Agrees.constant {target : NodeId} {value : Expr} {result : Except Fault (Option Fraction)}
    (agrees : d.Agrees value result) (found : d.constant? target = some value) (node : Node)
    (name : String) (overloads : List NodeId) :
    d.Agrees (.identifier node name (some target) overloads) result := by
  cases agrees with
  | value has => exact .value (.constant found has)
  | fault stops => exact .fault (.constant found stops)
  | nothing noValue noFault =>
    refine .nothing (fun x has => ?_) (fun fault stops => ?_)
    · cases has with
      | constant found' has =>
        rw [found] at found'
        cases found'
        exact noValue x has
    · cases stops with
      | dangling missing => exact absurd found (constant?_ne_some missing)
      | constant found' stops =>
        rw [found] at found'
        cases found'
        exact noFault fault stops

/-- A reference to something that is no constant. -/
theorem agrees_not_constant (missing : d.constant? target = none)
    (present : d.lookup? target ≠ none) (node : Node) (name : String) (overloads : List NodeId) :
    d.Agrees (.identifier node name (some target) overloads) (.ok none) := by
  refine .nothing (fun x has => ?_) (fun fault stops => ?_)
  · cases has with | constant found => rw [missing] at found; cases found
  · cases stops with
    | dangling dangles => exact present dangles
    | constant found => rw [missing] at found; cases found

/-- What is found for a constant while others are being evaluated is what it means. Every constant
under evaluation needs this one, so that meeting one of them again closes a cycle. -/
theorem finds_constantValue (bounded : d.Bounded depth active) (node : Node) (name : String)
    (target : NodeId)
    (overloads : List NodeId) (needed : ∀ other ∈ active, TransGen d.Needs other target) :
    d.Finds (d.constantValue depth active node.id target)
      (.identifier node name (some target) overloads) := by
  induction depth generalizing active node name target overloads with
  | zero => exact absurd bounded not_bounded_zero
  | succ depth ih =>
    rw [constantValue_succ]
    cases found : d.constant? target with
    | none =>
      cases looked : d.lookup? target with
      | none => exact fun cache sound => ⟨.fault (.dangling looked), sound⟩
      | some declaration =>
        exact finds_pure (agrees_not_constant found (by simp [looked]) node name overloads)
    | some value =>
      have fresh : d.Finds (d.freshValue depth active target value)
          (.identifier node name (some target) overloads) := by
        unfold freshValue
        cases known : active.contains target with
        | true =>
          -- It is under evaluation itself, so it needs itself.
          have cyclic := needed target (by simpa using known)
          exact finds_pure (agrees_of_cyclic cyclic node name overloads)
        | false =>
          have finds :
              d.Finds (value.evaluateWith (d.constantValue depth (target :: active))) value := by
            refine finds_evaluateWith value fun node' name' target' overloads' meets => ?_
            refine ih (bounded.cons found known) node' name' target' overloads' fun other mem => ?_
            -- Whatever its value meets is needed by this constant, and so by all that need it.
            have step : d.Needs target target' := ⟨value, found, meets⟩
            rcases mem_cons.mp mem with same | mem
            · exact same ▸ .single step
            · exact (needed other mem).tail step
          refine finds_bind finds (fun _ stops => .constant found stops) fun result agrees => ?_
          exact fun cache sound =>
            ⟨agrees.constant found node name overloads, sound.cons found agrees⟩
      intro cache sound
      have read : (get : Evaluation ConstantCache).outcome cache = (.ok cache, cache) := rfl
      rw [Evaluation.outcome_bind_ok read]
      cases remembered : cache.lookup target with
      | none => exact fresh cache sound
      | some known =>
        obtain ⟨value', found', agrees⟩ := sound target known remembered
        exact ⟨agrees.constant found' node name overloads, sound⟩

/-- Evaluation finds what an expression means, whatever is remembered. -/
theorem finds_evaluateRemembering (d : Declarations) (e : Expr) :
    d.Finds (d.evaluateRemembering e) e :=
  finds_evaluateWith e fun node name target overloads _ =>
    finds_constantValue (d.bounded_nil 0) node name target overloads nofun

theorem sound_nil (d : Declarations) : d.Sound [] := nofun

theorem agrees_evaluate (d : Declarations) (e : Expr) : d.Agrees e (d.evaluate e) :=
  (d.finds_evaluateRemembering e [] d.sound_nil).1

theorem evaluateAll_eq (es : List Expr) {cache : ConstantCache} (sound : d.Sound cache) :
    d.evaluateAll es cache = es.map d.evaluate := by
  induction es generalizing cache with
  | nil => rfl
  | cons e rest ih =>
    obtain ⟨agrees, sound'⟩ := d.finds_evaluateRemembering e cache sound
    rw [evaluateAll, map_cons, ← agrees.unique (d.agrees_evaluate e)]
    dsimp only
    rw [ih sound']

/-- Results do not depend on what is remembered. The bound on nested constants never shows;
evaluation finds what an expression means; expressions that are evaluated one after the other have
the results that each has on its own; and a reference to a constant that needs itself has none,
whatever was evaluated before. -/
theorem evaluation_forgetful (d : Declarations) :
    (∀ e more, e.evaluateWith (d.constantValue (d.entries.length + 1 + more) []) =
      d.evaluateRemembering e) ∧
    (∀ e, d.Agrees e (d.evaluate e)) ∧
    (∀ es, d.evaluateAll es [] = es.map d.evaluate) ∧
    (∀ target, TransGen d.Needs target target → ∀ before node name overloads,
      d.evaluateAll (before ++ [.identifier node name (some target) overloads]) [] =
        before.map d.evaluate ++ [.ok none]) := by
  refine ⟨fun e more => ?_, d.agrees_evaluate, fun es => evaluateAll_eq es d.sound_nil, ?_⟩
  · rw [evaluateRemembering, constantValue_bounded (d.bounded_nil more) (d.bounded_nil 0)]
  · intro target cyclic before node name overloads
    rw [evaluateAll_eq _ d.sound_nil, List.map_append, List.map_singleton,
      (d.agrees_evaluate _).unique (agrees_of_cyclic cyclic node name overloads)]

/-- A reference without a name. -/
def referenceTo (id target : Int64) : Expr := .identifier ⟨⟨id⟩, .unknown⟩ "" (some ⟨target⟩) []

/-- A constant without a name and a type. -/
def constantOf (id : Int64) (value : Expr) : NodeId × Declaration :=
  (⟨id⟩, ⟨.var
    (.mk { node := ⟨⟨id⟩, .unknown⟩, name := "", changeability := .constant } none value), none⟩)

/-- Two constants that refer to each other: the first is the second plus one, which is the first. -/
def mutualConstants : Declarations where
  entries := [
    constantOf 1
      (.binary ⟨⟨3⟩, .unknown⟩ .add (referenceTo 4 2) (.literal ⟨⟨5⟩, .unknown⟩ .number "1" none)),
    constantOf 2 (referenceTo 6 1)]
  contracts := []

/-- Neither of two constants that refer to each other has a value, whichever comes first. -/
theorem evaluation_forgetful_mutual :
    TransGen mutualConstants.Needs ⟨1⟩ ⟨1⟩ ∧ TransGen mutualConstants.Needs ⟨2⟩ ⟨2⟩ ∧
      mutualConstants.evaluateAll [referenceTo 7 2, referenceTo 8 1] [] = [.ok none, .ok none] := by
  have first : mutualConstants.Needs ⟨1⟩ ⟨2⟩ := ⟨_, rfl, .left .here⟩
  have second : mutualConstants.Needs ⟨2⟩ ⟨1⟩ := ⟨_, rfl, .here⟩
  have cyclic : TransGen mutualConstants.Needs ⟨1⟩ ⟨1⟩ := .tail (.single first) second
  have cyclic' : TransGen mutualConstants.Needs ⟨2⟩ ⟨2⟩ := .tail (.single second) first
  obtain ⟨-, -, alone, cycles⟩ := evaluation_forgetful mutualConstants
  have asked : mutualConstants.evaluateAll [referenceTo 7 2] [] = [.ok none] :=
    cycles ⟨2⟩ cyclic' [] ⟨⟨7⟩, .unknown⟩ "" []
  have after := cycles ⟨1⟩ cyclic [referenceTo 7 2] ⟨⟨8⟩, .unknown⟩ "" []
  rw [← alone, asked] at after
  exact ⟨cyclic, cyclic', after⟩

end Declarations

end ContractTyping
