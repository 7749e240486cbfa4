/-!
# Numbers in double precision

A double-precision number has 53 significant binary digits and lies below two to the power of 1024.
`nearest` rounds a whole number to so many digits, without a bound on its size. `isFiniteProduct`
says whether the product of two such numbers, rounded again, stays within the bound.
-/

namespace ContractTyping.Double

/-- A quotient rounded to the nearest whole number; a tie goes to the even neighbour. -/
def roundedQuotient (n divisor : Nat) : Nat :=
  let quotient := n / divisor
  let twice := 2 * (n % divisor)
  if divisor < twice ∨ (divisor = twice ∧ quotient % 2 = 1) then quotient + 1 else quotient

/-- The nearest number with 53 significant binary digits. -/
def nearest (n : Nat) : Nat :=
  if n < Nat.pow 2 53 then n
  else
    let place := Nat.pow 2 (n.log2 - 52)
    roundedQuotient n place * place

/-- The least number that rounds to infinity: it lies halfway between the largest finite number and
two to the power of 1024, and the tie goes up. -/
def overflow : Nat := Nat.pow 2 1024 - Nat.pow 2 970

/-- Whether the product of two numbers, each rounded first, is finite. -/
def isFiniteProduct (a b : Nat) : Bool := nearest a * nearest b < overflow

end ContractTyping.Double
