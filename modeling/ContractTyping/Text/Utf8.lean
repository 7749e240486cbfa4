/-!
# Text from bytes

Reads bytes as UTF-8. Bytes that are not part of a well-formed character are replaced: each longest
run that could begin a character, and otherwise each single byte, becomes one replacement character.
-/

namespace ContractTyping

namespace Utf8

/-- The replacement character. -/
def replacement : Char := Char.ofNat 0xFFFD

/-- The range of the second byte of a character of two or more bytes, and how many more continuation
bytes follow it, given the first byte. -/
def lead? (byte : UInt8) : Option (UInt8 × UInt8 × Nat) :=
  if 0xC2 ≤ byte && byte ≤ 0xDF then some (0x80, 0xBF, 0)
  else if byte = 0xE0 then some (0xA0, 0xBF, 1)
  else if byte = 0xED then some (0x80, 0x9F, 1)
  else if 0xE1 ≤ byte && byte ≤ 0xEF then some (0x80, 0xBF, 1)
  else if byte = 0xF0 then some (0x90, 0xBF, 2)
  else if 0xF1 ≤ byte && byte ≤ 0xF3 then some (0x80, 0xBF, 2)
  else if byte = 0xF4 then some (0x80, 0x8F, 2)
  else none

/-- The payload bits of a first byte with the given number of bytes after it. -/
def leadBits (byte : UInt8) (following : Nat) : Nat :=
  match following with
  | 1 => byte.toNat % 32
  | 2 => byte.toNat % 16
  | _ => byte.toNat % 8

/-- One byte's worth of reading: a character under way, as its bits so far, the range that the next
byte must lie in, and how many bytes follow that one. -/
structure Pending where
  code : Nat
  low : UInt8
  high : UInt8
  more : Nat

/-- Starts a character at a byte: what is finished at once, and what is under way. -/
def start (byte : UInt8) : List Char × Option Pending :=
  if byte < 0x80 then ([Char.ofNat byte.toNat], none)
  else
    match lead? byte with
    | none => ([replacement], none)
    | some (low, high, more) => ([], some ⟨leadBits byte (more + 1), low, high, more⟩)

/-- Reads the bytes after the ones already under way. -/
def decodeFrom : Option Pending → List UInt8 → List Char
  | none, [] => []
  | some _, [] => [replacement]
  | none, byte :: rest =>
    let (done, pending) := start byte
    done ++ decodeFrom pending rest
  | some p, byte :: rest =>
    if p.low ≤ byte && byte ≤ p.high then
      let code := p.code * 64 + byte.toNat % 64
      match p.more with
      | 0 => Char.ofNat code :: decodeFrom none rest
      | more + 1 => decodeFrom (some ⟨code, 0x80, 0xBF, more⟩) rest
    else
      let (done, pending) := start byte
      replacement :: (done ++ decodeFrom pending rest)

/-- The text of the bytes, with malformed parts replaced. -/
def decodeLossy (bytes : List UInt8) : String := String.ofList (decodeFrom none bytes)

end Utf8

end ContractTyping
