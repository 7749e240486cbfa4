import ContractTyping.Exact.Natural

/-!
# Integers of any size

A sign and a magnitude. Zero is never negative, so equal integers have equal representations.
Bitwise operations read an integer as an endless two's complement word: both operands are written
with enough bits that the sign shows in the highest one.
-/

namespace ContractTyping

/-- A sign and a magnitude. -/
structure Integer where
  negative : Bool
  magnitude : Natural
deriving DecidableEq, Repr, Inhabited

namespace Integer

/-- The integer denoted. -/
def value (x : Integer) : Int :=
  if x.negative then -(x.magnitude.value : Int) else (x.magnitude.value : Int)

/-- Normal form: a trimmed magnitude, and zero without a sign. -/
def Canonical (x : Integer) : Prop :=
  x.magnitude.Trimmed ∧ (x.magnitude.isZero → x.negative = false)

instance (x : Integer) : Decidable x.Canonical :=
  inferInstanceAs (Decidable (x.magnitude.Trimmed ∧ (x.magnitude.isZero → x.negative = false)))

/-- The integer with the given sign and magnitude; a sign on zero is dropped. -/
def ofSign (negative : Bool) (magnitude : Natural) : Integer :=
  ⟨negative && !magnitude.isZero, magnitude⟩

def ofNatural (magnitude : Natural) : Integer := ofSign false magnitude

def zero : Integer := ⟨false, .zero⟩

/-- A signed 64-bit word. -/
def ofWord (word : Int64) : Integer :=
  ofSign (word < 0) (.ofWord word.toInt.natAbs.toUInt64)

def isZero (x : Integer) : Bool := x.magnitude.isZero

def neg (x : Integer) : Integer := ofSign (!x.negative) x.magnitude

def add (x y : Integer) : Integer :=
  if x.negative = y.negative then ofSign x.negative (x.magnitude.add y.magnitude)
  else if x.magnitude.cmp y.magnitude = .lt then ofSign y.negative (y.magnitude.sub x.magnitude)
  else ofSign x.negative (x.magnitude.sub y.magnitude)

def sub (x y : Integer) : Integer := x.add y.neg

def mul (x y : Integer) : Integer := ofSign (x.negative != y.negative) (x.magnitude.mul y.magnitude)

/-- The product with a natural number. -/
def scale (x : Integer) (factor : Natural) : Integer := ofSign x.negative (x.magnitude.mul factor)

def cmp (x y : Integer) : Ordering :=
  match x.negative, y.negative with
  | false, true => .gt
  | true, false => .lt
  | false, false => x.magnitude.cmp y.magnitude
  | true, true => y.magnitude.cmp x.magnitude

/-- The two's complement word of the given width. -/
def toTwosComplement (x : Integer) (width : Nat) : Natural :=
  if x.negative then (Natural.one.shl width).sub x.magnitude else x.magnitude

/-- The integer whose two's complement word of the given width is the number. -/
def ofTwosComplement (word : Natural) (width : Nat) : Integer :=
  if word.bit (width - 1) then ofSign true ((Natural.one.shl width).sub word) else ofSign false word

/-- Applies an operation on limbs to two's complement words that are one limb longer than needed. -/
def bitwise (op : UInt32 → UInt32 → UInt32) (x y : Integer) : Integer :=
  let width := (max x.magnitude.bits y.magnitude.bits / 32 + 2) * 32
  ofTwosComplement (Natural.bitwise op (x.toTwosComplement width) (y.toTwosComplement width)) width

/-- The decimal numeral, with a minus sign if negative. -/
def decimal (x : Integer) : String :=
  if x.negative then "-" ++ x.magnitude.decimal else x.magnitude.decimal

end Integer

end ContractTyping
