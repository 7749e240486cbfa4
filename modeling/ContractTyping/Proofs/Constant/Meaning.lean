import ContractTyping.Constant
import Mathlib.Logic.Relation

/-!
# What constants mean

The value of an expression, without a memory, without a list of the constants under evaluation and
without a bound: an expression has a value if its literals, constants and operations have one.

* `HasValue`, `Stops`, `Agrees`: the meaning of an expression, read off the declarations. An
  expression has a value, or else it comes to a reference that dangles, or else it means nothing;
  `Agrees.unique` says that no two of these hold at once.
* `Needs`: evaluating a constant comes to another one.
* `agrees_of_cyclic`: a constant that comes back to itself means nothing.
-/

namespace ContractTyping

open Relation

namespace Declarations

variable {target : NodeId} {e : Expr} {x : Fraction} {fault : Fault}

/-- The expression that a constant stands for. -/
def constant? (d : Declarations) (target : NodeId) : Option Expr :=
  match d.lookup? target with
  | some ⟨.var v, _⟩ => if v.isConstant then v.value else none
  | _ => none

/-- `d.HasValue e x`: the expression has the value `x`, where a reference to a constant has the
value of what the constant stands for. -/
inductive HasValue (d : Declarations) : Expr → Fraction → Prop
  | literal {node : Node} {text : String} {unit : Option Denomination} {x : Fraction} :
      literalValue? text unit = some x → HasValue d (.literal node .number text unit) x
  | constant {node : Node} {name : String} {target : NodeId} {overloads : List NodeId}
      {value : Expr} {x : Fraction} : d.constant? target = some value → HasValue d value x →
      HasValue d (.identifier node name (some target) overloads) x
  | parentheses {node : Node} {inner : Expr} {x : Fraction} :
      HasValue d inner x → HasValue d (.tuple node [some inner] false) x
  | negate {node : Node} {isPrefix : Bool} {operand : Expr} {x : Fraction} :
      HasValue d operand x → HasValue d (.unary node .negate isPrefix operand) x.neg
  | binary {node : Node} {op : BinaryOp} {left right : Expr} {x y z : Fraction} :
      HasValue d left x → HasValue d right y → op.isConstantOp = true → op.fold? x y = some z →
      HasValue d (.binary node op left right) z

/-- `d.Stops e fault`: from left to right, everything has a value up to a reference that dangles. -/
inductive Stops (d : Declarations) : Expr → Fault → Prop
  | dangling {node : Node} {name : String} {target : NodeId} {overloads : List NodeId} :
      d.lookup? target = none →
      Stops d (.identifier node name (some target) overloads) (.danglingReference node.id target)
  | constant {node : Node} {name : String} {target : NodeId} {overloads : List NodeId}
      {value : Expr} {fault : Fault} : d.constant? target = some value → Stops d value fault →
      Stops d (.identifier node name (some target) overloads) fault
  | parentheses {node : Node} {inner : Expr} {fault : Fault} :
      Stops d inner fault → Stops d (.tuple node [some inner] false) fault
  | negate {node : Node} {isPrefix : Bool} {operand : Expr} {fault : Fault} :
      Stops d operand fault → Stops d (.unary node .negate isPrefix operand) fault
  | left {node : Node} {op : BinaryOp} {left right : Expr} {fault : Fault} :
      Stops d left fault → Stops d (.binary node op left right) fault
  | right {node : Node} {op : BinaryOp} {left right : Expr} {x : Fraction} {fault : Fault} :
      HasValue d left x → Stops d right fault → Stops d (.binary node op left right) fault

/-- `d.Meets e target`: from left to right, everything has a value up to a reference to `target`
that stands in the expression itself. -/
inductive Meets (d : Declarations) : Expr → NodeId → Prop
  | here {node : Node} {name : String} {target : NodeId} {overloads : List NodeId} :
      Meets d (.identifier node name (some target) overloads) target
  | parentheses {node : Node} {inner : Expr} {target : NodeId} :
      Meets d inner target → Meets d (.tuple node [some inner] false) target
  | negate {node : Node} {isPrefix : Bool} {operand : Expr} {target : NodeId} :
      Meets d operand target → Meets d (.unary node .negate isPrefix operand) target
  | left {node : Node} {op : BinaryOp} {left right : Expr} {target : NodeId} :
      Meets d left target → Meets d (.binary node op left right) target
  | right {node : Node} {op : BinaryOp} {left right : Expr} {x : Fraction} {target : NodeId} :
      HasValue d left x → Meets d right target → Meets d (.binary node op left right) target

/-- Evaluating a constant comes to a reference to another one, or to itself. -/
def Needs (d : Declarations) (target needed : NodeId) : Prop :=
  ∃ value, d.constant? target = some value ∧ d.Meets value needed

/-- `d.Agrees e result`: the result is what the expression means. -/
inductive Agrees (d : Declarations) (e : Expr) : Except Fault (Option Fraction) → Prop
  | value {x : Fraction} : d.HasValue e x → Agrees d e (.ok (some x))
  | fault {fault : Fault} : d.Stops e fault → Agrees d e (.error fault)
  | nothing : (∀ x, ¬ d.HasValue e x) → (∀ fault, ¬ d.Stops e fault) → Agrees d e (.ok none)

variable {d : Declarations}

/-- What is not declared is no constant. -/
theorem constant?_ne_some {value : Expr} (missing : d.lookup? target = none) :
    d.constant? target ≠ some value := by
  rw [constant?, missing]
  exact nofun

theorem HasValue.unique {y : Fraction} (has : d.HasValue e x) (has' : d.HasValue e y) : x = y := by
  induction has generalizing y with
  | literal found =>
    cases has' with
    | literal found' => rw [found] at found'; exact Option.some.inj found'
  | constant found _ ih =>
    cases has' with
    | constant found' has' =>
      rw [found] at found'
      cases found'
      exact ih has'
  | parentheses _ ih => cases has' with | parentheses has' => exact ih has'
  | negate _ ih => cases has' with | negate has' => rw [ih has']
  | binary _ _ _ folded ihLeft ihRight =>
    cases has' with
    | binary left right _ folded' =>
      rw [ihLeft left, ihRight right, folded'] at folded
      exact (Option.some.inj folded).symm

/-- An expression with a value does not come to a dangling reference. -/
theorem HasValue.not_stops (has : d.HasValue e x) : ¬ d.Stops e fault := by
  intro stops
  induction has generalizing fault with
  | literal => cases stops
  | constant found _ ih =>
    cases stops with
    | dangling missing => exact absurd found (constant?_ne_some missing)
    | constant found' stops =>
      rw [found] at found'
      cases found'
      exact ih stops
  | parentheses _ ih => cases stops with | parentheses stops => exact ih stops
  | negate _ ih => cases stops with | negate stops => exact ih stops
  | binary _ _ _ _ ihLeft ihRight =>
    cases stops with
    | left stops => exact ihLeft stops
    | right _ stops => exact ihRight stops

theorem Stops.unique {other : Fault} (stops : d.Stops e fault) (stops' : d.Stops e other) :
    fault = other := by
  induction stops generalizing other with
  | dangling missing =>
    cases stops' with
    | dangling => rfl
    | constant found => exact absurd found (constant?_ne_some missing)
  | constant found _ ih =>
    cases stops' with
    | dangling missing => exact absurd found (constant?_ne_some missing)
    | constant found' stops' =>
      rw [found] at found'
      cases found'
      exact ih stops'
  | parentheses _ ih => cases stops' with | parentheses stops' => exact ih stops'
  | negate _ ih => cases stops' with | negate stops' => exact ih stops'
  | left stops ih =>
    cases stops' with
    | left stops' => exact ih stops'
    | right has => exact absurd stops has.not_stops
  | right has _ ih =>
    cases stops' with
    | left stops' => exact absurd stops' has.not_stops
    | right _ stops' => exact ih stops'

/-- An expression means one result. -/
theorem Agrees.unique {result other : Except Fault (Option Fraction)} (agrees : d.Agrees e result)
    (agrees' : d.Agrees e other) : result = other := by
  cases agrees with
  | value has =>
    cases agrees' with
    | value has' => rw [has.unique has']
    | fault stops => exact absurd stops has.not_stops
    | nothing none => exact absurd has (none _)
  | fault stops =>
    cases agrees' with
    | value has => exact absurd stops has.not_stops
    | fault stops' => rw [stops.unique stops']
    | nothing _ none => exact absurd stops (none _)
  | nothing noValue noFault =>
    cases agrees' with
    | value has => exact absurd has (noValue _)
    | fault stops => exact absurd stops (noFault _)
    | nothing => rfl

/-! ## Constants that come back to themselves -/

theorem accessible_of_constant {value : Expr} (found : d.constant? target = some value)
    (below : ∀ needed, d.Meets value needed → Acc (flip d.Needs) needed) :
    Acc (flip d.Needs) target := by
  refine Acc.intro _ fun needed needs => ?_
  obtain ⟨value', found', meets⟩ := needs
  cases found.symm.trans found'
  exact below needed meets

/-- Nothing that an expression with a value meets leads to an endless descent. -/
theorem HasValue.accessible (has : d.HasValue e x) (meets : d.Meets e target) :
    Acc (flip d.Needs) target := by
  induction has generalizing target with
  | literal => cases meets
  | constant found _ ih =>
    cases meets
    exact accessible_of_constant found fun _ => ih
  | parentheses _ ih => cases meets with | parentheses meets => exact ih meets
  | negate _ ih => cases meets with | negate meets => exact ih meets
  | binary _ _ _ _ ihLeft ihRight =>
    cases meets with
    | left meets => exact ihLeft meets
    | right _ meets => exact ihRight meets

/-- Nor does anything that an expression meets before it comes to a dangling reference. -/
theorem Stops.accessible (stops : d.Stops e fault) (meets : d.Meets e target) :
    Acc (flip d.Needs) target := by
  induction stops generalizing target with
  | dangling missing =>
    cases meets
    refine Acc.intro _ fun needed needs => ?_
    obtain ⟨value, found, -⟩ := needs
    exact absurd found (constant?_ne_some missing)
  | constant found _ ih =>
    cases meets
    exact accessible_of_constant found fun _ => ih
  | parentheses _ ih => cases meets with | parentheses meets => exact ih meets
  | negate _ ih => cases meets with | negate meets => exact ih meets
  | left stops ih =>
    cases meets with
    | left meets => exact ih meets
    | right has => exact absurd stops has.not_stops
  | right has _ ih =>
    cases meets with
    | left meets => exact has.accessible meets
    | right _ meets => exact ih meets

theorem not_accessible (cyclic : TransGen d.Needs target target) : ¬ Acc (flip d.Needs) target := by
  intro accessible
  -- By induction on what lies below: on a cycle, a constant lies below itself.
  have below := accessible.transGen
  have back : TransGen (flip d.Needs) target target := by
    rwa [transGen_swap]
  induction below with
  | intro target _ ih => exact ih target back cyclic accessible back

/-- A constant that comes back to itself neither has a value nor comes to a dangling reference. -/
theorem agrees_of_cyclic (cyclic : TransGen d.Needs target target) (node : Node) (name : String)
    (overloads : List NodeId) :
    d.Agrees (.identifier node name (some target) overloads) (.ok none) :=
  .nothing (fun _ has => not_accessible cyclic (has.accessible .here))
    (fun _ stops => not_accessible cyclic (stops.accessible .here))

end Declarations

end ContractTyping
