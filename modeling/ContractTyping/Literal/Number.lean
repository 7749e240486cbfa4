import ContractTyping.Exact.Fraction

/-!
# Number literals

The text of a number literal is a hexadecimal integer (`0x1f`) or a decimal with an optional
fraction and exponent (`12`, `1_000`, `1.5`, `.5`, `2e18`, `25e-2`). Single underscores between
other characters only group digits. `NumberLiteral.parse` gives the exact value in lowest terms, or
the first reason to refuse the text.
-/

namespace ContractTyping

namespace NumberLiteral

/-- Why a text is no number literal. -/
inductive Refusal
  | empty
  | underscores
  | hexadecimal
  | missingDigits
  | missingFraction
  | decimal
  | exponent
  | tooLarge
deriving DecidableEq, Repr

namespace Refusal

def message : Refusal → String
  | empty => "empty literal"
  | underscores => "invalid use of underscores in number literal"
  | hexadecimal => "invalid hexadecimal number"
  | missingDigits => "missing digits"
  | missingFraction => "expected digits after the decimal point"
  | decimal => "invalid decimal number"
  | exponent => "invalid exponent"
  | tooLarge => "number literal too large"

end Refusal

/-- Two underscores in a row. -/
def hasDoubledUnderscore : List Char → Bool
  | '_' :: '_' :: _ => true
  | _ :: rest => hasDoubledUnderscore rest
  | [] => false

/-- Underscores stand only between other characters, one at a time. -/
def misplacedUnderscore (text : List Char) : Bool :=
  text.head? == some '_' || text.getLast? == some '_' || hasDoubledUnderscore text

/-- The text up to the first character that satisfies the test, and what follows that character. -/
def splitFirst (test : Char → Bool) : List Char → List Char × Option (List Char)
  | [] => ([], none)
  | c :: rest =>
    if test c then ([], some rest)
    else
      let (before, after) := splitFirst test rest
      (c :: before, after)

/-- The value if it is within the limit. -/
def within (x : Fraction) : Except Refusal Fraction :=
  if x.exceedsLimit then .error .tooLarge else .ok x

/-- Turns an absent value into a refusal. -/
def orRefuse {α : Type} (refusal : Refusal) : Option α → Except Refusal α
  | some a => .ok a
  | none => .error refusal

def parseHexadecimal (digits : List Char) : Except Refusal Fraction := do
  let value ← orRefuse .hexadecimal (Natural.ofDigits? 16 digits)
  within (.ofNatural value)

/-- The value of digits with an optional point: all digits together over a power of ten. -/
def parseMantissa (mantissa : List Char) : Except Refusal Fraction := do
  let (whole, fraction?) := splitFirst (· == '.') mantissa
  let fraction := fraction?.getD []
  if whole.isEmpty && fraction.isEmpty then throw .missingDigits
  if fraction?.isSome && fraction.isEmpty then throw .missingFraction
  let numerator ← orRefuse .decimal (Natural.ofDigits? 10 (whole ++ fraction))
  let denominator ← orRefuse .tooLarge (Natural.ten.pow fraction.length)
  orRefuse .decimal (Fraction.make? (.ofNatural numerator) denominator)

/-- Multiplies or divides by the power of ten that an exponent names. -/
def applyExponent (value : Fraction) (exponent : List Char) : Except Refusal Fraction := do
  let (negative, digits) := match exponent with
    | '-' :: rest => (true, rest)
    | _ => (false, exponent)
  let power ← orRefuse .exponent (readBounded? UInt64.size digits)
  let scale ← orRefuse .tooLarge (Natural.ten.pow power)
  orRefuse .tooLarge
    (if negative then value.div (.ofNatural scale) else value.mul (.ofNatural scale))

def parseDecimal (text : List Char) : Except Refusal Fraction := do
  let (mantissa, exponent?) := splitFirst (fun c => c == 'e' || c == 'E') text
  let value ← parseMantissa mantissa
  let value ← match exponent? with
    | none => pure value
    | some exponent => applyExponent value exponent
  within value

/-- The value of a number literal's characters. -/
def parseChars (text : List Char) : Except Refusal Fraction :=
  if text.isEmpty then .error .empty
  else if misplacedUnderscore text then .error .underscores
  else
    match text.filter (· != '_') with
    | '0' :: 'x' :: digits => parseHexadecimal digits
    | '0' :: 'X' :: digits => parseHexadecimal digits
    | cleaned => parseDecimal cleaned

/-- The value of a number literal's text. -/
def parse (text : String) : Except Refusal Fraction := parseChars text.toList

/-- The byte width of a hexadecimal literal with an even number of digits, at most sixty-four: such
a literal may be used as fixed bytes of exactly that width. -/
def byteWidth? (text : String) : Option Nat :=
  match text.toList with
  | '0' :: 'x' :: digits =>
    let count := (digits.filter (· != '_')).length
    if count % 2 = 0 ∧ count ≤ 64 then some (count / 2) else none
  | _ => none

end NumberLiteral

end ContractTyping
