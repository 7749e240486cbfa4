import ContractTyping.Exact.Double
import ContractTyping.Json.Value
import ContractTyping.Text.Digit

/-!
# Numbers in JSON text

A number is written as a whole part without leading zeros, an optional fraction and an optional
exponent. It stands for a whole number if it has neither fraction nor exponent; a negative zero does
not. A number whose value in double precision would be infinite stands for nothing.
-/

namespace ContractTyping

/-- A number as it is written. -/
structure Numeral where
  negative : Bool
  whole : List Char
  /-- The digits behind the point. -/
  fraction : List Char
  /-- The exponent with its mark and sign. -/
  exponent : List Char

namespace Numeral

/-! ## Reading -/

/-- Splits off the decimal digits in front. -/
def spanDigits (text : List Char) : List Char × List Char := text.span Char.isDigit

/-- Reads the digits of an optional fraction. -/
def parseFraction (text : List Char) : Option (List Char × List Char) :=
  match text with
  | '.' :: rest =>
    let (digits, rest) := spanDigits rest
    if digits.isEmpty then none else some (digits, rest)
  | _ => some ([], text)

/-- Reads an optional exponent: the characters it takes. -/
def parseExponent (text : List Char) : Option (List Char × List Char) :=
  match text with
  | c :: rest =>
    if c == 'e' || c == 'E' then
      let (sign, rest) := match rest with
        | '+' :: after => (['+'], after)
        | '-' :: after => (['-'], after)
        | _ => ([], rest)
      let (digits, rest) := spanDigits rest
      if digits.isEmpty then none else some (c :: sign ++ digits, rest)
    else some ([], text)
  | [] => some ([], [])

/-- Reads a number and the text after it. -/
def parse (text : List Char) : Option (Numeral × List Char) := do
  let (negative, text) := match text with
    | '-' :: rest => (true, rest)
    | _ => (false, text)
  let (whole, rest) := spanDigits text
  if whole.isEmpty || (whole.head? == some '0' && whole.length > 1) then none
  else
    let (fraction, rest) ← parseFraction rest
    let (exponent, rest) ← parseExponent rest
    pure (⟨negative, whole, fraction, exponent⟩, rest)

/-! ## Meaning -/

/-- The number as written. -/
def text (n : Numeral) : String :=
  let sign := if n.negative then ['-'] else []
  let fraction := if n.fraction.isEmpty then [] else '.' :: n.fraction
  String.ofList (sign ++ n.whole ++ fraction ++ n.exponent)

/-- The number as a value. -/
def toJson (n : Numeral) : Json :=
  let magnitude := (readNumeral? 10 n.whole).getD 0
  if n.fraction.isEmpty && n.exponent.isEmpty && !(n.negative && magnitude == 0) then
    .integer (if n.negative then -(magnitude : Int) else magnitude)
  else .real n.text

/-- The power of ten that the exponent names. -/
def exponentValue (n : Numeral) : Int :=
  let magnitude (digits : List Char) : Int := (readNumeral? 10 digits).getD 0
  match n.exponent.drop 1 with
  | '-' :: digits => -magnitude digits
  | '+' :: digits => magnitude digits
  | digits => magnitude digits

/-- Appends decimal digits to a number while it fits in 64 bits. Returns the digits left. -/
def appendDigits : Nat → List Char → Nat × List Char
  | value, [] => (value, [])
  | value, c :: rest =>
    let next := 10 * value + (c.toNat - '0'.toNat)
    if next < UInt64.size then appendDigits next rest else (value, c :: rest)

/-- The number as a factor of 64 bits and a power of ten, its sign apart. A digit of the whole part
that does not fit in the factor counts as a zero, one of the fraction is dropped. -/
def scientific (n : Numeral) : Nat × Int :=
  let (factor, wholeLeft) := appendDigits 0 n.whole
  let (factor, fractionLeft) := appendDigits factor n.fraction
  (factor, n.exponentValue + wholeLeft.length + fractionLeft.length - n.fraction.length)

/-- Whether the number is finite in double precision. Powers of ten above the 308th are not. -/
def isFinite (n : Numeral) : Bool :=
  match n.scientific with
  | (factor, .ofNat power) =>
    factor == 0 || (power ≤ 308 && Double.isFiniteProduct factor (Nat.pow 10 power))
  | (_, .negSucc _) => true

end Numeral

end ContractTyping
