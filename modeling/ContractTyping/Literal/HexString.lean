import ContractTyping.Text.Digit
import ContractTyping.Text.Utf8

/-!
# Hex-string literals

The contents of a hex-string literal are pairs of hexadecimal digits; underscores are ignored. Each
pair is a byte, and the bytes are read as text.
-/

namespace ContractTyping

namespace HexString

/-- The bytes of pairs of hexadecimal digits. -/
def pairBytes? : List Char → Option (List UInt8)
  | [] => some []
  | [_] => none
  | high :: low :: rest => do
    let high ← digit? 16 high
    let low ← digit? 16 low
    let bytes ← pairBytes? rest
    pure ((high * 16 + low).toUInt8 :: bytes)

/-- The bytes that the literal denotes, if its digits come in pairs. -/
def bytes? (contents : String) : Option (List UInt8) :=
  pairBytes? (contents.toList.filter (· != '_'))

/-- The text that the literal denotes. -/
def text? (contents : String) : Option String := (bytes? contents).map Utf8.decodeLossy

end HexString

end ContractTyping
