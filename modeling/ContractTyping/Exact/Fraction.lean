import ContractTyping.Exact.Integer

/-!
# Exact fractions with a size limit

The value of a number literal. A fraction is kept in lowest terms with a positive denominator, so
equal values have equal representations. Sums, differences, products, quotients and left shifts that
need more than `Natural.maxBits` bits in numerator or denominator have no result.
-/

namespace ContractTyping

/-- A numerator over a denominator. -/
structure Fraction where
  numerator : Integer
  denominator : Natural
deriving DecidableEq, Repr, Inhabited

namespace Fraction

/-- Normal form: parts in normal form, a nonzero denominator and no common divisor. -/
def LowestTerms (x : Fraction) : Prop :=
  x.numerator.Canonical ∧ x.denominator.Trimmed ∧ x.denominator.value ≠ 0 ∧
    Nat.gcd x.numerator.magnitude.value x.denominator.value = 1

instance (x : Fraction) : Decidable x.LowestTerms :=
  inferInstanceAs
    (Decidable (x.numerator.Canonical ∧ x.denominator.Trimmed ∧ x.denominator.value ≠ 0 ∧
    Nat.gcd x.numerator.magnitude.value x.denominator.value = 1))

/-- The fraction in lowest terms, unless the denominator is zero. -/
def make? (numerator : Integer) (denominator : Natural) : Option Fraction :=
  if denominator.isZero then none
  else
    let divisor := numerator.magnitude.gcd denominator
    if divisor.isZero || divisor.isOne then some ⟨numerator, denominator⟩
    else
      some ⟨.ofSign numerator.negative (numerator.magnitude.divmod divisor).1,
        (denominator.divmod divisor).1⟩

def ofInteger (x : Integer) : Fraction := ⟨x, .one⟩

def ofNatural (n : Natural) : Fraction := ofInteger (.ofNatural n)

def zero : Fraction := ofInteger .zero

def one : Fraction := ofNatural .one

def isInteger (x : Fraction) : Bool := x.denominator.isOne

def isNegative (x : Fraction) : Bool := x.numerator.negative

def isZero (x : Fraction) : Bool := x.numerator.isZero

/-- Whether numerator or denominator has more bits than a literal may have. -/
def exceedsLimit (x : Fraction) : Bool :=
  x.numerator.magnitude.bits > Natural.maxBits || x.denominator.bits > Natural.maxBits

/-- Keeps a result that is within the limit. -/
def limited (x : Option Fraction) : Option Fraction := x.filter (!·.exceedsLimit)

/-- The value as a 64-bit word, if it is a natural number that fits. -/
def toWord? (x : Fraction) : Option UInt64 :=
  if x.isInteger && !x.isNegative then x.numerator.magnitude.toWord? else none

/-- Whether the value is an integer of the given width and signedness. -/
def fitsInteger (x : Fraction) (bits : Nat) (signed : Bool) : Bool :=
  x.isInteger &&
    if signed then
      if x.isNegative then x.numerator.magnitude.cmp (Natural.one.shl (bits - 1)) != .gt
      else x.numerator.magnitude.bits < bits
    else !x.isNegative && x.numerator.magnitude.bits ≤ bits

/-- The least multiple of eight that is at least the number of bits, and at least eight. -/
def roundedWidth (bits : Nat) : Nat := max ((bits + 7) / 8) 1 * 8

/-- The narrowest integer type that holds the value, as width and signedness. -/
def smallestInteger? (x : Fraction) : Option (Nat × Bool) :=
  if !x.isInteger then none
  else
    let magnitude := x.numerator.magnitude
    let width :=
      if x.isNegative then roundedWidth ((magnitude.sub .one).bits + 1)
      else roundedWidth magnitude.bits
    if width ≤ 256 then some (width, x.isNegative) else none

/-- The number of bits of the numerator's magnitude. -/
def integerBits (x : Fraction) : Nat := x.numerator.magnitude.bits

/-! ## Order -/

def cmp (x y : Fraction) : Ordering :=
  (x.numerator.scale y.denominator).cmp (y.numerator.scale x.denominator)

/-! ## Arithmetic -/

def neg (x : Fraction) : Fraction := ⟨x.numerator.neg, x.denominator⟩

def add (x y : Fraction) : Option Fraction :=
  limited (make? ((x.numerator.scale y.denominator).add (y.numerator.scale x.denominator))
    (x.denominator.mul y.denominator))

def sub (x y : Fraction) : Option Fraction := x.add y.neg

def mul (x y : Fraction) : Option Fraction :=
  limited (make? (x.numerator.mul y.numerator) (x.denominator.mul y.denominator))

def div (x y : Fraction) : Option Fraction :=
  if y.isZero then none
  else
    let numerator := x.numerator.scale y.denominator
    limited (make? (.ofSign (numerator.negative != y.numerator.negative) numerator.magnitude)
      (x.denominator.mul y.numerator.magnitude))

/-- The integer between zero and the value that is nearest to the value. -/
def truncate (x : Fraction) : Fraction :=
  ofInteger (.ofSign x.numerator.negative (x.numerator.magnitude.divmod x.denominator).1)

/-- The remainder of truncating division, which has the sign of the dividend. -/
def rem (x y : Fraction) : Option Fraction := do
  let quotient ← x.div y
  let multiple ← quotient.truncate.mul y
  x.sub multiple

/-- The power with an integer exponent below `2 ^ 64` in magnitude. -/
def pow (x exponent : Fraction) : Option Fraction := do
  if !exponent.isInteger then none
  else
    let power ← exponent.numerator.magnitude.toWord?
    if exponent.isNegative && x.isZero then none
    else
      let numerator ← x.numerator.magnitude.pow power.toNat
      let denominator ← x.denominator.pow power.toNat
      let negative := x.numerator.negative && power.toNat % 2 == 1
      let result ← make? (.ofSign negative numerator) denominator
      if exponent.isNegative then one.div result else some result

/-! ## Shifts and bitwise operations, on integers only -/

def shl (x amount : Fraction) : Option Fraction := do
  if !x.isInteger then none
  else
    let amount ← amount.toWord?
    if amount.toNat > Natural.maxBits then none
    else
      limited (some (ofInteger (.ofSign x.numerator.negative
        (x.numerator.magnitude.shl amount.toNat))))

/-- The right shift, which rounds towards negative infinity. -/
def shr (x amount : Fraction) : Option Fraction := do
  if !x.isInteger then none
  else
    let amount ← amount.toWord?
    let shifted := x.numerator.magnitude.shr amount.toNat
    if !x.isNegative then some (ofNatural shifted)
    else
      let exact := shifted.shl amount.toNat == x.numerator.magnitude
      some (ofInteger (.ofSign true (if exact then shifted else shifted.add .one)))

def bitwise (op : UInt32 → UInt32 → UInt32) (x y : Fraction) : Option Fraction :=
  if x.isInteger && y.isInteger then some (ofInteger (Integer.bitwise op x.numerator y.numerator))
  else none

def bitAnd (x y : Fraction) : Option Fraction := bitwise (· &&& ·) x y

def bitOr (x y : Fraction) : Option Fraction := bitwise (· ||| ·) x y

def bitXor (x y : Fraction) : Option Fraction := bitwise (· ^^^ ·) x y

/-- The bitwise complement of an integer, which is one below its negation. -/
def bitNot (x : Fraction) : Option Fraction :=
  if x.isInteger then x.neg.sub one else none

/-- The text of the value: an integer, or numerator and denominator. -/
def text (x : Fraction) : String :=
  if x.isInteger then x.numerator.decimal
  else x.numerator.decimal ++ " / " ++ x.denominator.decimal

end Fraction

end ContractTyping
