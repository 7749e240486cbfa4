import ContractTyping.Proofs.Exact.Width
import ContractTyping.Proofs.Location

/-!
# Common types

A common type is an upper bound of the two types that it stands for: both of them convert to it. One
of the two is turned into its concrete type for that, so the bound rests on every literal converting
to its own concrete type, which is the narrowest integer type that holds its value
(`common_upperBound`).

Which side gives the common type is decided by trying the left side first. For scalars the order
does not show: if each side converts to the concrete type of the other, then these concrete types
are the same (`Ty.Scalar.agree`). So are the results of operators that do not depend on the order of
their operands (`scalars_commute`).
-/

namespace ContractTyping

open Fraction Option

variable {value : Fraction} {bits : Nat} {signed : Bool} {op : BinaryOp}

namespace Ty

variable {left right t leftMobile rightMobile : Ty}

/-! ## Conversions to integers -/

theorem number_converts_integer_iff {byteWidth : Option Nat} :
    (number value byteWidth).implicitlyConvertible (integer bits signed) = true ↔
      value.fitsInteger bits signed = true := by
  exact Iff.rfl

/-- Integers convert to ones of their sign that are not narrower, and to wider signed ones. -/
theorem integer_converts_iff {targetBits : Nat} {targetSigned : Bool} :
    (integer bits signed).implicitlyConvertible (integer targetBits targetSigned) = true ↔
      signed = targetSigned ∧ bits ≤ targetBits ∨ signed = false ∧ targetSigned = true ∧
      bits < targetBits := by
  rw [implicitlyConvertible.eq_def]
  cases signed <;> cases targetSigned <;> simp
  all_goals omega

/-- The concrete type of a literal is the narrowest integer type that holds its value. -/
theorem mobile?_number {byteWidth : Option Nat}
    (concrete : (number value byteWidth).mobile? = some t) :
    ∃ width negative, value.smallestInteger? = some (width, negative) ∧
      t = integer width negative := by
  obtain ⟨⟨width, negative⟩, narrowest, rfl⟩ := map_eq_some_iff.mp concrete
  exact ⟨width, negative, narrowest, rfl⟩

/-! ## Upper bounds -/

/-- Whether the value of a literal is in lowest terms, if the type is that of a number literal. -/
def Reduced : Ty → Prop
  | number value _ => value.LowestTerms
  | _ => True

/-- Every value converts to its own concrete type. -/
theorem converts_mobile? (reduced : t.Reduced) (concrete : t.mobile? = some leftMobile) :
    t.implicitlyConvertible leftMobile = true := by
  cases t with
  | number value byteWidth =>
    obtain ⟨width, negative, narrowest, rfl⟩ := mobile?_number concrete
    exact number_converts_integer_iff.mpr (fitsInteger_of_smallestInteger? reduced narrowest)
  | stringLiteral text =>
    cases concrete
    rfl
  | _ =>
    cases concrete
    exact converts_self _

theorem common?_eq (concreteLeft : left.mobile? = some leftMobile)
    (concreteRight : right.mobile? = some rightMobile) :
    common? left right = if right.implicitlyConvertible leftMobile then some leftMobile
      else if left.implicitlyConvertible rightMobile then some rightMobile else none := by
  rw [common?, concreteLeft, concreteRight]
  rfl

/-- There is a common type whenever one side converts to the concrete type of the other. -/
theorem isSome_common?_iff : (common? left right).isSome = true ↔
      ∃ leftMobile rightMobile, left.mobile? = some leftMobile ∧ right.mobile? = some rightMobile ∧
        (right.implicitlyConvertible leftMobile = true ∨
          left.implicitlyConvertible rightMobile = true) := by
  constructor
  · intro given
    obtain ⟨t, common⟩ := isSome_iff_exists.mp given
    obtain ⟨leftMobile, rightMobile, concreteLeft, concreteRight, side⟩ := exists_of_common? common
    refine ⟨leftMobile, rightMobile, concreteLeft, concreteRight, ?_⟩
    rcases side with ⟨rfl, converts⟩ | ⟨rfl, converts⟩
    · exact .inl converts
    · exact .inr converts
  · rintro ⟨leftMobile, rightMobile, concreteLeft, concreteRight, converts⟩
    rw [common?_eq concreteLeft concreteRight]
    split
    · rfl
    · next refused =>
      rw [if_pos (converts.resolve_left refused)]
      rfl

theorem isSome_common?_symm (given : (common? left right).isSome = true) :
    (common? right left).isSome = true := by
  obtain ⟨leftMobile, rightMobile, concreteLeft, concreteRight, converts⟩ :=
    isSome_common?_iff.mp given
  exact isSome_common?_iff.mpr ⟨rightMobile, leftMobile, concreteRight, concreteLeft, converts.symm⟩

/-- Whether both of two types convert to a third one. -/
structure Bounded (left right bound : Ty) : Prop where
  left : left.implicitlyConvertible bound = true
  right : right.implicitlyConvertible bound = true

theorem bounded_of_common? (leftReduced : left.Reduced) (rightReduced : right.Reduced)
    (common : common? left right = some t) : Bounded left right t := by
  obtain ⟨leftMobile, rightMobile, concreteLeft, concreteRight, side⟩ := exists_of_common? common
  rcases side with ⟨rfl, converts⟩ | ⟨rfl, converts⟩
  · exact ⟨converts_mobile? leftReduced concreteLeft, converts⟩
  · exact ⟨converts, converts_mobile? rightReduced concreteRight⟩

/-! ## Operators -/

/-- Whether a type is that of a number literal. -/
def isNumber : Ty → Bool
  | number .. => true
  | _ => false

/-- Operators but shifts and powers work on the common type, unless both operands are literals. -/
theorem binaryResult?_eq (unshifted : op.isShift = false) (noPower : op ≠ .exp)
    (mixed : (left.isNumber && right.isNumber) = false) :
    binaryResult? op left right = (common? left right).bind (onCommon? op) := by
  unfold binaryResult?
  split
  · cases mixed
  · rw [if_neg (by simp [unshifted, noPower])]

/-- Arithmetic and bitwise operators stay in the common type. -/
theorem onCommon?_eq_some (closed : (op.isArithmetic || op.isBitwise) = true) {result : Ty}
    (given : onCommon? op t = some result) : result = t := by
  have untested : op.isBoolean = false ∧ op.isComparison = false := by
    cases op with
    | add | sub | mul | div | mod | bitAnd | bitOr | bitXor => exact ⟨rfl, rfl⟩
    | _ => cases closed
  rw [onCommon?, untested.1, untested.2] at given
  simp only [Bool.false_eq_true, if_false] at given
  split at given
  · exact (some.inj (ite_none_right_eq_some.mp given).2).symm
  · exact (some.inj (ite_none_right_eq_some.mp given).2).symm

end Ty

/-- **Common types are upper bounds.** Both sides convert to their common type, and there is one in
both orders or in none. Operators other than shifts and powers take operands that are not both
literals to their common type, so they have a result only if both operands convert to it; and for
arithmetic and bitwise operators the result is that type. -/
theorem common_upperBound {left right : Ty} (leftReduced : left.Reduced)
    (rightReduced : right.Reduced) :
    (∀ t, Ty.common? left right = some t → Ty.Bounded left right t) ∧
    ((Ty.common? left right).isSome = true ↔ (Ty.common? right left).isSome = true) ∧
    ∀ op result, op.isShift = false → op ≠ .exp → (left.isNumber && right.isNumber) = false →
      Ty.binaryResult? op left right = some result →
        ∃ t, Ty.common? left right = some t ∧ Ty.Bounded left right t ∧
          Ty.onCommon? op t = some result ∧
          ((op.isArithmetic || op.isBitwise) = true → result = t) := by
  refine ⟨fun t => Ty.bounded_of_common? leftReduced rightReduced,
    ⟨Ty.isSome_common?_symm, Ty.isSome_common?_symm⟩, ?_⟩
  intro op result unshifted noPower mixed given
  rw [Ty.binaryResult?_eq unshifted noPower mixed] at given
  obtain ⟨t, common, given⟩ := Option.bind_eq_some_iff.mp given
  exact ⟨t, common, Ty.bounded_of_common? leftReduced rightReduced common, given,
    fun closed => Ty.onCommon?_eq_some closed given⟩

/-- A signed byte and a literal just below its range. -/
theorem common_upperBound_below :
    let left := Ty.integer 8 true
    let right := Ty.number ⟨⟨true, ⟨[129]⟩⟩, ⟨[1]⟩⟩ none
    left.Reduced ∧ right.Reduced ∧ Ty.binaryResult? .add left right = some (.integer 16 true) ∧
      (left.isNumber && right.isNumber) = false ∧
      ∃ t, Ty.common? left right = some t ∧ Ty.Bounded left right t ∧ Ty.integer 16 true = t := by
  intro left right
  have reduced : right.Reduced := by
    show Fraction.LowestTerms _
    decide
  have added : Ty.binaryResult? .add left right = some (.integer 16 true) := by decide
  obtain ⟨-, -, results⟩ := @common_upperBound left right trivial reduced
  obtain ⟨t, common, bounded, -, same⟩ := results .add _ rfl (by decide) rfl added
  exact ⟨trivial, reduced, added, rfl, t, common, bounded, same rfl⟩

/-! ## Scalars in either order -/

namespace Ty

variable {left right leftMobile rightMobile : Ty}

/-- Integers of whole bytes, literals, truth values, addresses and fixed bytes. -/
inductive Scalar : Ty → Prop
  | integer {bits : Nat} (signed : Bool) :
      8 ∣ bits → 8 ≤ bits → bits ≤ 256 → Scalar (integer bits signed)
  | number {value : Fraction} (byteWidth : Option Nat) :
      value.LowestTerms → Scalar (number value byteWidth)
  | stringLiteral (text : String) : Scalar (stringLiteral text)
  | bool : Scalar bool
  | address (payable : Bool) : Scalar (address payable)
  | fixedBytes (size : Nat) : Scalar (fixedBytes size)

theorem integer_eq_of_converts {bits' : Nat} {signed' : Bool}
    (converts : (integer bits signed).implicitlyConvertible (integer bits' signed') = true)
    (converts' : (integer bits' signed').implicitlyConvertible (integer bits signed) = true) :
    integer bits signed = integer bits' signed' := by
  rw [integer_converts_iff] at converts converts'
  grind

/-- An integer type that holds a literal and converts to the concrete type of the literal is that
type, because no narrower type holds the literal. -/
theorem integer_eq_of_narrowest (lowest : value.LowestTerms) {width : Nat} {negative : Bool}
    (narrowest : value.smallestInteger? = some (width, negative)) (whole : 8 ∣ bits)
    (positive : 0 < bits) (fits : value.fitsInteger bits signed = true)
    (converts : (integer bits signed).implicitlyConvertible (integer width negative) = true) :
    integer bits signed = integer width negative := by
  have least : width ≤ bits := le_of_fitsInteger lowest narrowest fits whole positive
  rcases integer_converts_iff.mp converts with ⟨rfl, atMost⟩ | ⟨-, -, below⟩
  · rw [Nat.le_antisymm atMost least]
  · omega

theorem fixedBytes_converts_iff {size targetSize : Nat} :
    (fixedBytes size).implicitlyConvertible (fixedBytes targetSize) = true ↔ size ≤ targetSize := by
  rw [implicitlyConvertible.eq_def]
  simp
  omega

theorem address_converts_iff {payable targetPayable : Bool} :
    (address payable).implicitlyConvertible (address targetPayable) = true ↔
      (targetPayable = true → payable = true) := by
  rw [implicitlyConvertible.eq_def]
  cases payable <;> cases targetPayable <;> simp

variable (leftScalar : left.Scalar)

include leftScalar

variable (rightScalar : right.Scalar)

include rightScalar

/-- If two scalars convert to the concrete types of each other, these are the same. -/
theorem Scalar.agree (concreteLeft : left.mobile? = some leftMobile)
    (concreteRight : right.mobile? = some rightMobile)
    (toLeft : right.implicitlyConvertible leftMobile = true)
    (toRight : left.implicitlyConvertible rightMobile = true) : leftMobile = rightMobile := by
  -- Conversions that go both ways stay in one kind of scalars.
  cases leftScalar with
  | integer signed whole atLeast =>
    cases concreteLeft
    cases rightScalar with
    | integer =>
      cases concreteRight
      exact integer_eq_of_converts toRight toLeft
    | number byteWidth lowest =>
      obtain ⟨width, negative, narrowest, rfl⟩ := mobile?_number concreteRight
      exact integer_eq_of_narrowest lowest narrowest whole (by omega)
        (number_converts_integer_iff.mp toLeft) toRight
    | _ => cases toLeft
  | number byteWidth lowest =>
    obtain ⟨width, negative, narrowest, rfl⟩ := mobile?_number concreteLeft
    cases rightScalar with
    | integer signed whole atLeast =>
      cases concreteRight
      exact (integer_eq_of_narrowest lowest narrowest whole (by omega)
        (number_converts_integer_iff.mp toRight) toLeft).symm
    | number byteWidth' lowest' =>
      obtain ⟨width', negative', narrowest', rfl⟩ := mobile?_number concreteRight
      obtain ⟨sameWidth, sameSign⟩ := smallestInteger?_eq_of_fitsInteger lowest lowest' narrowest
        narrowest' (number_converts_integer_iff.mp toRight) (number_converts_integer_iff.mp toLeft)
      rw [sameWidth, sameSign]
    | _ => cases toLeft
  | stringLiteral text =>
    cases concreteLeft
    cases rightScalar with
    | stringLiteral => exact some.inj concreteRight
    | _ => cases toLeft
  | bool =>
    cases concreteLeft
    cases rightScalar with
    | bool => exact some.inj concreteRight
    | _ => cases toLeft
  | address payable =>
    cases concreteLeft
    cases rightScalar with
    | address payable' =>
      cases concreteRight
      rw [Bool.eq_iff_iff.mpr ⟨address_converts_iff.mp toLeft, address_converts_iff.mp toRight⟩]
    | _ => cases toLeft
  | fixedBytes size =>
    cases concreteLeft
    cases rightScalar with
    | fixedBytes size' =>
      cases concreteRight
      rw [Nat.le_antisymm (fixedBytes_converts_iff.mp toRight) (fixedBytes_converts_iff.mp toLeft)]
    | number =>
      obtain ⟨width, negative, narrowest, rfl⟩ := mobile?_number concreteRight
      cases toRight
    | stringLiteral =>
      cases concreteRight
      cases toRight
    | _ => cases toLeft

theorem Scalar.common?_swap (common : common? left right = some t) :
    common? right left = some t := by
  obtain ⟨leftMobile, rightMobile, concreteLeft, concreteRight, side⟩ := exists_of_common? common
  rw [common?_eq concreteRight concreteLeft]
  rcases side with ⟨rfl, toLeft⟩ | ⟨rfl, toRight⟩
  · -- In the other order the right side is tried first, so its concrete type might be taken.
    by_cases toRight : left.implicitlyConvertible rightMobile = true
    · rw [if_pos toRight, leftScalar.agree rightScalar concreteLeft concreteRight toLeft toRight]
    · rw [if_neg toRight, if_pos toLeft]
  · rw [if_pos toRight]

theorem Scalar.common?_comm : common? left right = common? right left :=
  ext fun _ => ⟨leftScalar.common?_swap rightScalar, rightScalar.common?_swap leftScalar⟩

end Ty

/-! ## Literals in either order -/

namespace Natural

/-- Combining limbs does not depend on the order of the lists, whichever is longer. -/
theorem zipLimbs_comm {op : UInt32 → UInt32 → UInt32} (comm : ∀ a b, op a b = op b a)
    (limbs others : List UInt32) : zipLimbs op limbs others = zipLimbs op others limbs := by
  induction limbs generalizing others with
  | nil =>
    cases others with
    | nil => rfl
    | cons b bs => simp [zipLimbs, comm]
  | cons a as ih =>
    cases others with
    | nil => simp [zipLimbs, comm]
    | cons b bs => simp [zipLimbs, comm a, ih]

end Natural

namespace Fraction

variable {x y : Fraction}

protected theorem add_comm (lowest : x.LowestTerms) (lowest' : y.LowestTerms) :
    x.add y = y.add x := by
  have exactly := add_exactly lowest' lowest
  rw [add_comm y.value] at exactly
  exact (add_exactly lowest lowest').unique exactly

protected theorem mul_comm (lowest : x.LowestTerms) (lowest' : y.LowestTerms) :
    x.mul y = y.mul x := by
  have exactly := mul_exactly lowest' lowest
  rw [mul_comm y.value] at exactly
  exact (mul_exactly lowest lowest').unique exactly

/-- Both operands are written with the same width, whichever of them needs it. -/
theorem bitwise_comm {op : UInt32 → UInt32 → UInt32} (comm : ∀ a b, op a b = op b a)
    (x y : Fraction) : bitwise op x y = bitwise op y x := by
  rw [bitwise, bitwise, Integer.bitwise, Integer.bitwise, Natural.bitwise, Natural.bitwise,
    Bool.and_comm, max_comm, Natural.zipLimbs_comm comm]

end Fraction

/-- The operators that do not depend on the order of their operands. -/
def BinaryOp.isCommutative : BinaryOp → Bool
  | add | mul | bitAnd | bitOr | bitXor | and | or | equal | notEqual => true
  | _ => false

variable (commutes : op.isCommutative = true)

include commutes

theorem BinaryOp.fold?_comm {x y : Fraction} (lowest : x.LowestTerms)
    (lowest' : y.LowestTerms) : op.fold? x y = op.fold? y x := by
  cases op with
  | add => exact Fraction.add_comm lowest lowest'
  | mul => exact Fraction.mul_comm lowest lowest'
  | bitAnd => exact bitwise_comm UInt32.and_comm x y
  | bitOr => exact bitwise_comm UInt32.or_comm x y
  | bitXor => exact bitwise_comm UInt32.xor_comm x y
  | and | or | equal | notEqual => rfl
  | _ => cases commutes

theorem BinaryOp.unshifted_of_isCommutative : op.isShift = false ∧ op ≠ .exp := by
  cases op with
  | sub | div | mod | exp | shl | shr | less | lessEqual | greater | greaterEqual => cases commutes
  | _ => exact ⟨rfl, by decide⟩

/-- Two literals are folded in either order, and others are taken to the same common type. -/
theorem Ty.Scalar.binaryResult?_comm {left right : Ty} (leftScalar : left.Scalar)
    (rightScalar : right.Scalar) : binaryResult? op left right = binaryResult? op right left := by
  cases literals : left.isNumber && right.isNumber with
  | true =>
    cases leftScalar with
    | number width lowest =>
      cases rightScalar with
      | number width' lowest' =>
        show foldNumbers op _ _ = foldNumbers op _ _
        rw [foldNumbers, foldNumbers, op.fold?_comm commutes lowest lowest']
      | _ => cases literals
    | _ => cases literals
  | false =>
    obtain ⟨unshifted, noPower⟩ := op.unshifted_of_isCommutative commutes
    have literals' : (right.isNumber && left.isNumber) = false := by rwa [Bool.and_comm]
    rw [binaryResult?_eq unshifted noPower literals, binaryResult?_eq unshifted noPower literals',
      leftScalar.common?_comm rightScalar]

omit commutes

/-- **Scalars commute.** Integers, literals, truth values, addresses and fixed bytes have the same
common type in either order, and so have the results of operators that do not depend on the order of
their operands: the exact value of two literals, or none if it is too long, and the type of the
operation otherwise. -/
theorem scalars_commute {left right : Ty} (leftScalar : left.Scalar) (rightScalar : right.Scalar) :
    Ty.common? left right = Ty.common? right left ∧
      ∀ op : BinaryOp, op.isCommutative = true →
        Ty.binaryResult? op left right = Ty.binaryResult? op right left :=
  ⟨leftScalar.common?_comm rightScalar, fun _ commutes =>
    Ty.Scalar.binaryResult?_comm commutes leftScalar rightScalar⟩

/-- A negative literal that takes two bytes, and one that fills an unsigned byte. -/
theorem scalars_commute_literals :
    let left := Ty.number ⟨⟨true, ⟨[129]⟩⟩, ⟨[1]⟩⟩ none
    let right := Ty.number ⟨⟨false, ⟨[255]⟩⟩, ⟨[1]⟩⟩ (some 1)
    left.Scalar ∧ right.Scalar ∧ Ty.common? left right = some (.integer 16 true) ∧
      Ty.common? left right = Ty.common? right left ∧
      Ty.binaryResult? .bitXor left right = Ty.binaryResult? .bitXor right left := by
  intro left right
  have leftScalar : left.Scalar := .number none (by decide)
  have rightScalar : right.Scalar := .number (some 1) (by decide)
  obtain ⟨common, results⟩ := scalars_commute leftScalar rightScalar
  exact ⟨leftScalar, rightScalar, by decide, common, results .bitXor rfl⟩

end ContractTyping
