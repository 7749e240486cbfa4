import ContractTyping.Ty.Conversion

/-!
# Binary operators

Operations on two number literals are carried out exactly. All other operators take both operands to
their common type, except for shifts and powers, which keep the type of the left operand.
-/

namespace ContractTyping

/-- The exact result of an operator that yields a number. -/
def BinaryOp.fold? (op : BinaryOp) (x y : Fraction) : Option Fraction :=
  match op with
  | .add => x.add y
  | .sub => x.sub y
  | .mul => x.mul y
  | .div => x.div y
  | .mod => x.rem y
  | .exp => x.pow y
  | .shl => x.shl y
  | .shr => x.shr y
  | .bitAnd => x.bitAnd y
  | .bitOr => x.bitOr y
  | .bitXor => x.bitXor y
  | _ => none

namespace Ty

/-- The type of an operation on two number literals. -/
def foldNumbers (op : BinaryOp) (x y : Fraction) : Option Ty :=
  if op.isComparison then some bool
  else ((op.fold? x y).filter (!·.exceedsLimit)).map (number · none)

/-- Whether a value can be the amount of a shift or the exponent of a power. -/
def isAmount : Ty → Bool
  | integer _ signed => !signed
  | number value _ => value.isInteger && !value.isNegative
  | _ => false

/-- Whether values can be shifted and combined bit by bit. -/
def hasBits : Ty → Bool
  | integer .. | fixedBytes _ => true
  | _ => false

/-- Whether values can be compared for equality. -/
def isEquatable : Ty → Bool
  | function traits _ _ => traits.kind == .external
  | t => t.isValueType

/-- Whether values have an order. -/
def isOrdered : Ty → Bool
  | integer .. | fixedBytes _ | address _ | contract _ => true
  | _ => false

/-- The result of a shift or a power: the concrete type of the left operand. -/
def shifted? (op : BinaryOp) (left right : Ty) : Option Ty := do
  let base ← left.mobile?
  if (if op == .exp then base.isInteger else base.hasBits) && right.isAmount then some base
    else none

/-- The result of an operator on operands of a common type. -/
def onCommon? (op : BinaryOp) (common : Ty) : Option Ty :=
  if op.isBoolean then if common == bool then some bool else none
  else if op.isComparison then
    if (if op.isEquality then common.isEquatable else common.isOrdered) then some bool else none
  else if op.isBitwise then if common.hasBits then some common else none
  else if common.isInteger then some common
  else none

/-- The type of `left op right`, if the operator applies. -/
def binaryResult? (op : BinaryOp) (left right : Ty) : Option Ty :=
  match left, right with
  | number x _, number y _ => foldNumbers op x y
  | _, _ =>
    if op.isShift || op == .exp then shifted? op left right
    else (common? left right).bind (onCommon? op)

end Ty

end ContractTyping
