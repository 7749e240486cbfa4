import ContractTyping.Text.Digit

/-!
# Natural numbers over 32-bit limbs

A number is the list of its digits in base `2 ^ 32`, least significant first, with no zero limb at
the most significant end. Shifts work on limbs, and all other steps on 64-bit words, which hold a
product of two limbs and the carries around it. A loop has no result if a word were to wrap around
or a limb were to be written beyond the end of a buffer; that never happens.

* `Natural.value` is the number that a limb list denotes, and `Natural.Trimmed` its normal form.
* `add`, `sub`, `mul`, `shl`, `shr` and `divmod` work on limbs; `gcd` is the Euclidean algorithm.
* `pow` gives no result when it would need more than `Natural.maxBits` bits.
* `ofDigits?` reads a numeral in any base up to thirty-six and `decimal` writes one.
-/

namespace ContractTyping

/-- A natural number in base `2 ^ 32`, least significant limb first. -/
structure Natural where
  limbs : List UInt32
deriving DecidableEq, Repr, Inhabited

namespace Natural

/-- The most bits that a numerator or a denominator of a literal may have. -/
def maxBits : Nat := 4096

/-- The number that a limb list denotes. -/
def limbsValue : List UInt32 → Nat
  | [] => 0
  | limb :: rest => limb.toNat + 2 ^ 32 * limbsValue rest

/-- The number denoted. -/
def value (n : Natural) : Nat := limbsValue n.limbs

/-- Normal form: the most significant limb is not zero. -/
def Trimmed (n : Natural) : Prop := n.limbs.getLast? ≠ some 0

instance (n : Natural) : Decidable n.Trimmed :=
  inferInstanceAs (Decidable (n.limbs.getLast? ≠ some 0))

/-- Drops the zero limbs at the most significant end. -/
def trim : List UInt32 → List UInt32
  | [] => []
  | limb :: rest =>
    match trim rest with
    | [] => if limb = 0 then [] else [limb]
    | high => limb :: high

/-- The number with the given limbs, in normal form. -/
def ofLimbs (limbs : List UInt32) : Natural := ⟨trim limbs⟩

def zero : Natural := ⟨[]⟩

/-- A number below `2 ^ 64`. -/
def ofWord (word : UInt64) : Natural := ofLimbs [word.toUInt32, (word >>> 32).toUInt32]

def one : Natural := ofWord 1

def ten : Natural := ofWord 10

def isZero (n : Natural) : Bool := n.limbs.isEmpty

def isOne (n : Natural) : Bool := n.limbs == [1]

/-- The number of bits of a limb up to its highest set bit. -/
def limbBits (limb : UInt32) : Nat := if limb = 0 then 0 else limb.toNat.log2 + 1

/-- The number of bits up to the highest set bit, none for zero. -/
def bits (n : Natural) : Nat :=
  match n.limbs.getLast? with
  | none => 0
  | some top => (n.limbs.length - 1) * 32 + limbBits top

/-- The bit at an index, false beyond the last limb. -/
def bit (n : Natural) (index : Nat) : Bool :=
  match n.limbs[index / 32]? with
  | none => false
  | some limb => limb.toNat.testBit (index % 32)

/-- The number as a 64-bit word, if it fits. -/
def toWord? (n : Natural) : Option UInt64 :=
  match n.limbs with
  | [] => some 0
  | [low] => some low.toUInt64
  | [low, high] => some (low.toUInt64 ||| (high.toUInt64 <<< 32))
  | _ => none

/-! ## Order -/

/-- Numeric order of limb lists in normal form: the longer is larger, and among equal lengths the
most significant difference decides. -/
def compareLimbs : List UInt32 → List UInt32 → Ordering
  | [], [] => .eq
  | [], _ :: _ => .lt
  | _ :: _, [] => .gt
  | a :: as, b :: bs => (compareLimbs as bs).then (compare a b)

def cmp (a b : Natural) : Ordering := compareLimbs a.limbs b.limbs

/-! ## Words

Sums, products and differences of words, as far as a word holds them. -/

def sum? (a b : UInt64) : Option UInt64 :=
  if a.toNat + b.toNat < UInt64.size then some (a + b) else none

def product? (a b : UInt64) : Option UInt64 :=
  if a.toNat * b.toNat < UInt64.size then some (a * b) else none

def difference? (a b : UInt64) : Option UInt64 := if b ≤ a then some (a - b) else none

/-! ## Sums and differences -/

/-- Adds a carry to a limb list. What is carried beyond the last limb becomes a limb of its own if
the list may grow, and has no place otherwise. -/
def addCarry (grows : Bool) : List UInt32 → UInt64 → Option (List UInt32)
  | [], carry =>
    if carry = 0 then some [] else if grows then some [carry.toUInt32] else none
  | limb :: rest, carry =>
    if carry = 0 then some (limb :: rest)
    else do
      let sum ← sum? limb.toUInt64 carry
      let high ← addCarry grows rest (sum >>> 32)
      some (sum.toUInt32 :: high)

/-- Adds two limb lists and a carry. -/
def addLimbs : List UInt32 → List UInt32 → UInt64 → Option (List UInt32)
  | [], right, carry => addCarry true right carry
  | left, [], carry => addCarry true left carry
  | a :: as, b :: bs, carry => do
    let sum ← sum? a.toUInt64 b.toUInt64
    let sum ← sum? sum carry
    let high ← addLimbs as bs (sum >>> 32)
    some (sum.toUInt32 :: high)

def add (a b : Natural) : Natural := ofLimbs ((addLimbs a.limbs b.limbs 0).getD [])

/-- Subtracts a limb list and a borrow of zero or one; exact when the result is not negative. -/
def subLimbs : List UInt32 → List UInt32 → UInt64 → Option (List UInt32)
  | [], _, _ => some []
  | a :: as, right, borrow => do
    let taken ← sum? (right.headD 0).toUInt64 borrow
    if a.toUInt64 < taken then
      let larger ← sum? a.toUInt64 0x100000000
      let difference ← difference? larger taken
      let high ← subLimbs as right.tail 1
      some (difference.toUInt32 :: high)
    else
      let difference ← difference? a.toUInt64 taken
      let high ← subLimbs as right.tail 0
      some (difference.toUInt32 :: high)

/-- The difference of a number and one that is not larger. -/
def sub (a b : Natural) : Natural := ofLimbs ((subLimbs a.limbs b.limbs 0).getD [])

/-! ## Products -/

/-- Adds a limb list times one limb, and a carry, to a buffer of limbs. -/
def mulLimb (factor : UInt32) : List UInt32 → List UInt32 → UInt64 → Option (List UInt32)
  | [], buffer, carry => addCarry false buffer carry
  | _ :: _, [], _ => none
  | limb :: rest, old :: buffer, carry => do
    let product ← product? factor.toUInt64 limb.toUInt64
    let sum ← sum? old.toUInt64 product
    let sum ← sum? sum carry
    let high ← mulLimb factor rest buffer (sum >>> 32)
    some (sum.toUInt32 :: high)

/-- Adds a product to a buffer of limbs by rows: one row for each limb of the left factor, each
starting one limb further up. -/
def mulRows : List UInt32 → List UInt32 → List UInt32 → Option (List UInt32)
  | [], _, buffer => some buffer
  | a :: as, right, buffer => do
    match ← mulLimb a right buffer 0 with
    | [] => none
    | low :: buffer =>
      let high ← mulRows as right buffer
      some (low :: high)

/-- The product in a buffer that has as many limbs as both factors together. -/
def mulLimbs (left right : List UInt32) : Option (List UInt32) :=
  mulRows left right (List.replicate (left.length + right.length) 0)

def mul (a b : Natural) : Natural := ofLimbs ((mulLimbs a.limbs b.limbs).getD [])

/-- The product with a number below `2 ^ 32`. -/
def mulSmall (a : Natural) (factor : UInt32) : Natural := (ofWord factor.toUInt64).mul a

/-! ## Shifts -/

/-- Shifts a limb list up by fewer than 32 bits, starting from the bits carried in. A limb cannot be
shifted by 32 bits, so that nothing is carried where the amount is zero. -/
def shlLimbs (amount : UInt32) : List UInt32 → UInt32 → List UInt32
  | [], carry => if carry = 0 then [] else [carry]
  | limb :: rest, carry =>
    if amount = 0 then limb :: shlLimbs amount rest carry
    else (limb <<< amount ||| carry) :: shlLimbs amount rest (limb >>> (32 - amount))

/-- Shifts up, by whole limbs and by what is left of the amount. -/
def shl (n : Natural) (amount : Nat) : Natural :=
  if n.isZero then zero
  else ofLimbs (List.replicate (amount / 32) 0 ++ shlLimbs (amount % 32).toUInt32 n.limbs 0)

/-- Shifts a limb list down by fewer than 32 bits. -/
def shrLimbs (amount : UInt32) : List UInt32 → List UInt32
  | [] => []
  | limb :: rest =>
    if amount = 0 then limb :: shrLimbs amount rest
    else (limb >>> amount ||| rest.headD 0 <<< (32 - amount)) :: shrLimbs amount rest

/-- Shifts down, by whole limbs and by what is left of the amount. -/
def shr (n : Natural) (amount : Nat) : Natural :=
  if amount / 32 ≥ n.limbs.length then zero
  else ofLimbs (shrLimbs (amount % 32).toUInt32 (n.limbs.drop (amount / 32)))

/-! ## Division -/

/-- Quotient and remainder of `a` by `b`, given that `a` is below `b * 2 ^ steps`: divide by the
double of `b` first, then decide the lowest bit of the quotient. -/
def divideSteps (a : Natural) : Nat → Natural → Natural × Natural
  | 0, _ => (zero, a)
  | steps + 1, b =>
    let (quotient, remainder) := divideSteps a steps (b.shl 1)
    if remainder.cmp b = .lt then (quotient.shl 1, remainder)
    else ((quotient.shl 1).add one, remainder.sub b)

/-- Quotient limbs and remainder of a limb list by one limb that is not zero. The remainder is below
the divisor, so that it and the next limb make a 64-bit word. -/
def divideLimb (divisor : UInt64) : List UInt32 → List UInt32 × UInt64
  | [] => ([], 0)
  | limb :: rest =>
    let (quotient, remainder) := divideLimb divisor rest
    let wide := (remainder <<< 32) ||| limb.toUInt64
    ((wide / divisor).toUInt32 :: quotient, wide % divisor)

/-- Quotient and remainder by a number that is not zero. -/
def divmod (a b : Natural) : Natural × Natural :=
  match b.limbs with
  | [divisor] =>
    let (quotient, remainder) := divideLimb divisor.toUInt64 a.limbs
    (ofLimbs quotient, ofWord remainder)
  | _ => divideSteps a (a.bits + 1 - b.bits) b

/-- The Euclidean algorithm, in at most the given number of rounds. -/
def gcdRounds : Nat → Natural → Natural → Natural
  | 0, a, _ => a
  | rounds + 1, a, b => if b.isZero then a else gcdRounds rounds b (a.divmod b).2

/-- The greatest common divisor. After the first round the larger operand comes first, and from then
on every round takes at least one bit from the two together. -/
def gcd (a b : Natural) : Natural := gcdRounds (a.bits + b.bits + 2) a b

/-! ## Powers -/

/-- The power by repeated multiplication. -/
def powUp (base : Natural) : Nat → Natural
  | 0 => one
  | exponent + 1 => base.mul (powUp base exponent)

/-- The power, if it has at most `maxBits` bits. A base of at least two gains a bit with every
factor, so an exponent beyond the limit is refused before anything is multiplied. -/
def pow (base : Natural) (exponent : Nat) : Option Natural :=
  if exponent = 0 then some one
  else if base.isZero || base.isOne then some base
  else if (base.bits - 1) * exponent > maxBits then none
  else
    let result := powUp base exponent
    if result.bits > maxBits then none else some result

/-! ## Bitwise operations -/

/-- Combines two limb lists limb by limb, the shorter one filled with zeros. -/
def zipLimbs (op : UInt32 → UInt32 → UInt32) : List UInt32 → List UInt32 → List UInt32
  | [], right => right.map (op 0)
  | left, [] => left.map (op · 0)
  | a :: as, b :: bs => op a b :: zipLimbs op as bs

def bitwise (op : UInt32 → UInt32 → UInt32) (a b : Natural) : Natural :=
  ofLimbs (zipLimbs op a.limbs b.limbs)

/-! ## Numerals -/

/-- Reads a non-empty numeral in the given base, most significant digit first. -/
def ofDigits? (base : Nat) (text : List Char) : Option Natural :=
  if text.isEmpty then none
  else
    text.foldlM (fun number c => do
      let digit ← digit? base c
      pure ((number.mulSmall base.toUInt32).add (ofWord digit.toUInt64))) zero

/-- The number of values of a group of nine decimal digits. -/
def groupSize : UInt64 := 1000000000

/-- The groups of nine decimal digits of a number, least significant first, one for each round. -/
def groupRounds : Nat → Natural → List UInt64
  | 0, _ => []
  | rounds + 1, n =>
    if n.isZero then []
    else
      let (quotient, group) := divideLimb groupSize n.limbs
      group :: groupRounds rounds (ofLimbs quotient)

/-- The groups of nine decimal digits of a number. Two rounds for each limb leave nothing of it. -/
def groups (n : Natural) : List UInt64 := groupRounds (2 * n.limbs.length) n

/-- A group written with all of its nine digits. -/
def groupText (group : UInt64) : String :=
  let digits := Nat.repr group.toNat
  "".pushn '0' (9 - digits.length) ++ digits

/-- The decimal numeral, without leading zeros. -/
def decimal (n : Natural) : String :=
  match n.groups.reverse with
  | [] => "0"
  | top :: rest => rest.foldl (fun text group => text ++ groupText group) (Nat.repr top.toNat)

end Natural

end ContractTyping
