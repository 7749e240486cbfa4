/-!
Digits of a positional numeral. The letters follow the ten decimal digits, in either case, so bases
up to thirty-six can be written.
-/

namespace ContractTyping

/-- The number that a character stands for in some base, before the base limits it. -/
def digitValue? (c : Char) : Option Nat :=
  if '0' ≤ c ∧ c ≤ '9' then some (c.toNat - '0'.toNat)
  else if 'a' ≤ c ∧ c ≤ 'z' then some (c.toNat - 'a'.toNat + 10)
  else if 'A' ≤ c ∧ c ≤ 'Z' then some (c.toNat - 'A'.toNat + 10)
  else none

/-- The digit that a character is in the given base, or none. -/
def digit? (base : Nat) (c : Char) : Option Nat :=
  (digitValue? c).filter (· < base)

/-- The value of a list of digits, most significant first. -/
def digitsValue (base : Nat) (digits : List Nat) : Nat :=
  digits.foldl (fun value digit => value * base + digit) 0

/-- Reads a non-empty numeral in the given base. -/
def readNumeral? (base : Nat) (text : List Char) : Option Nat :=
  if text.isEmpty then none else (text.mapM (digit? base)).map (digitsValue base)

/-- Reads an unsigned decimal below the bound. A single plus sign may stand in front. -/
def readBounded? (bound : Nat) (text : List Char) : Option Nat :=
  let digits := match text with
    | '+' :: rest => rest
    | _ => text
  (readNumeral? 10 digits).filter (· < bound)

end ContractTyping
