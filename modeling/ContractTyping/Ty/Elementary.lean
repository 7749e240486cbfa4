import ContractTyping.Ty.Basic

/-!
# Elementary type names

The types that are named by a single word. Widths are decimal numerals, with leading zeros or
without; an integer type without a width has 256 bits.
-/

namespace ContractTyping

/-- Why a word names no elementary type. -/
inductive ElementaryRefusal
  | unknown (name : String)
  | fixedPoint
deriving DecidableEq, Repr

def ElementaryRefusal.message : ElementaryRefusal → String
  | unknown name => "Unknown elementary type \"" ++ name ++ "\"."
  | fixedPoint => "Fixed point types are not yet supported."

namespace Ty

/-- An integer type by the digits of its width. -/
def integerOfWidth? (signed : Bool) (digits : List Char) : Option Ty :=
  let bits := if digits.isEmpty then some 256 else readNumeral? 10 digits
  (bits.filter fun bits => bits != 0 && bits ≤ 256 && bits % 8 == 0).map (integer · signed)

/-- A fixed bytes type by the digits of its size. -/
def fixedBytesOfSize? (digits : List Char) : Option Ty :=
  ((readNumeral? 10 digits).filter fun size => size != 0 && size ≤ 32).map fixedBytes

/-- The type with a width or a size in its name. -/
def sized? : List Char → Option Ty
  | 'u' :: 'i' :: 'n' :: 't' :: digits => integerOfWidth? false digits
  | 'i' :: 'n' :: 't' :: digits => integerOfWidth? true digits
  | 'b' :: 'y' :: 't' :: 'e' :: 's' :: digits => fixedBytesOfSize? digits
  | _ => none

/-- The elementary type of a name. Only addresses can be payable. -/
def elementary? (name : String) (payable : Bool) : Except ElementaryRefusal Ty :=
  match name with
  | "bool" => .ok bool
  | "address" => .ok (address payable)
  | "string" => .ok stringMemory
  | "bytes" => .ok bytesMemory
  | "byte" => .ok (fixedBytes 1)
  | _ =>
    match sized? name.toList with
    | some t => .ok t
    | none =>
      if ["fixed", "ufixed"].any fun word => word.toList.isPrefixOf name.toList then
        .error .fixedPoint
      else .error (.unknown name)

end Ty

end ContractTyping
