import ContractTyping.Declarations
import ContractTyping.Fault
import ContractTyping.Literal.Number
import ContractTyping.Ty.Operator

/-!
# Constants

Array lengths and similar numbers are computed from literals, arithmetic and declared constants. A
constant that refers to itself has no value.

Values of constants are remembered while an expression is evaluated, and those found before a
reference dangles stay remembered. Remembering changes no result.
-/

namespace ContractTyping

/-- Values of constants that are already known, where none stands for having no value. -/
abbrev ConstantCache := List (NodeId × Option Fraction)

/-- Computations that remember the values of constants, and fail on dangling references. -/
abbrev Evaluation (α : Type) := ExceptT Fault (StateM ConstantCache) α

namespace Evaluation

variable {α β : Type}

/-- The outcome of a computation, and what is remembered after it. -/
def outcome (m : Evaluation α) (cache : ConstantCache) : Except Fault α × ConstantCache :=
  m.run cache

/-- A computation that succeeds goes on with what is remembered. -/
theorem outcome_bind_ok {m : Evaluation α} {f : α → Evaluation β} {a : α}
    {cache after : ConstantCache} (run : m.outcome cache = (.ok a, after)) :
    (m >>= f).outcome cache = (f a).outcome after := by
  change (fun p : Except Fault α × ConstantCache => (ExceptT.bindCont f p.1 : StateM _ _) p.2)
    (m.outcome cache) = _
  rw [run]
  rfl

/-- A computation that fails ends there. -/
theorem outcome_bind_error {m : Evaluation α} {f : α → Evaluation β} {fault : Fault}
    {cache after : ConstantCache} (run : m.outcome cache = (.error fault, after)) :
    (m >>= f).outcome cache = (.error fault, after) := by
  change (fun p : Except Fault α × ConstantCache => (ExceptT.bindCont f p.1 : StateM _ _) p.2)
    (m.outcome cache) = _
  rw [run]
  rfl

end Evaluation

/-- The value of a number literal in the smallest unit of its kind. -/
def literalValue? (text : String) (unit : Option Denomination) : Option Fraction := do
  let value ← (NumberLiteral.parse text).toOption
  match unit with
  | some unit => value.mul (.ofNatural (.ofWord unit.multiplier))
  | none => some value

/-- Whether an operator can be used in a constant. -/
def BinaryOp.isConstantOp (op : BinaryOp) : Bool := op.isArithmetic || op == .exp || op.isShift

/-- Evaluates an expression, given the values of the constants it refers to. -/
def Expr.evaluateWith (constant : (node target : NodeId) → Evaluation (Option Fraction)) :
    Expr → Evaluation (Option Fraction)
  | .literal _ .number text unit => pure (literalValue? text unit)
  | .identifier node _ (some target) _ => constant node.id target
  | .tuple _ [some inner] false => inner.evaluateWith constant
  | .unary _ .negate _ operand => do
    return (← operand.evaluateWith constant).map Fraction.neg
  | .binary _ op left right => do
    let some x ← left.evaluateWith constant | return none
    let some y ← right.evaluateWith constant | return none
    return if op.isConstantOp then op.fold? x y else none
  | _ => pure none

namespace Declarations

/-- The value of the constant that a node refers to, below the constants that are being evaluated.
The bound is on how deeply constants refer to each other. -/
def constantValue (d : Declarations) :
    Nat → List NodeId → (node target : NodeId) → Evaluation (Option Fraction)
  | 0, _, _, _ => pure none
  | depth + 1, active, node, target => do
    let some declaration := d.lookup? target | throw (.danglingReference node target)
    let .var v := declaration.item | return none
    let (true, some value) := (v.isConstant, v.value) | return none
    if let some known := (← get).lookup target then return known
    if active.contains target then return none
    let result ← value.evaluateWith (d.constantValue depth (target :: active))
    modify ((target, result) :: ·)
    return result

/-- Evaluates an expression and remembers the constants in it. -/
def evaluateRemembering (d : Declarations) (e : Expr) : Evaluation (Option Fraction) :=
  e.evaluateWith (d.constantValue (d.entries.length + 1) [])

/-- The value of an expression, if it is constant. -/
def evaluate (d : Declarations) (e : Expr) : Except Fault (Option Fraction) :=
  ((d.evaluateRemembering e).outcome []).1

/-- Evaluates expressions in turn with one memory. A fault ends only its own expression. -/
def evaluateAll (d : Declarations) :
    List Expr → ConstantCache → List (Except Fault (Option Fraction))
  | [], _ => []
  | e :: rest, cache =>
    let (result, cache) := (d.evaluateRemembering e).outcome cache
    result :: d.evaluateAll rest cache

end Declarations

end ContractTyping
