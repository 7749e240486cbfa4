import ContractTyping.Ty.Basic

/-!
# The text of a type

Types are shown with the place of their data, except inside arrays and mappings.
-/

namespace ContractTyping

/-- A long numeral shows its first and last four digits. -/
def abbreviateDigits (digits : List Char) : String :=
  if digits.length ≤ 32 then String.ofList digits
  else
    String.ofList (digits.take 4) ++ "...(" ++ Nat.repr
      (digits.length - 8) ++ " digits omitted)..." ++
      String.ofList (digits.drop (digits.length - 4))

/-- An integer with many digits is abbreviated. -/
def abbreviateNumeral (numeral : String) : String :=
  match numeral.toList with
  | '-' :: digits => "-" ++ abbreviateDigits digits
  | digits => abbreviateDigits digits

/-- A byte as two hexadecimal digits. -/
def hexByte (byte : UInt8) : String :=
  String.ofList [Nat.digitChar (byte.toNat / 16), Nat.digitChar (byte.toNat % 16)]

namespace Ty

/-- The text of a string literal, in hexadecimal when it has characters that cannot be shown. -/
def literalText (text : String) : String :=
  if text.toList.all fun c => ' ' ≤ c && c ≤ '~' then "literal_string \"" ++ text ++ "\""
  else "literal_string hex\"" ++ String.join (text.toUTF8.toList.map hexByte) ++ "\""

def contractText (c : ContractTy) : String :=
  (if c.kind == .library then "library " else "contract ") ++
    (if c.isSuper then "super " else "") ++ c.name

/-- The text of a place behind a type, left out in the short form. -/
def placeText (short : Bool) (place : Place) : String :=
  if short then "" else " " ++ place.label

mutual

/-- The text of a type. The short form leaves out the places. -/
def render (short : Bool) : Ty → String
  | integer bits signed => (if signed then "int" else "uint") ++ Nat.repr bits
  | number value _ =>
    if value.isInteger then "int_const " ++ abbreviateNumeral value.text
    else "rational_const " ++ value.text
  | stringLiteral text => literalText text
  | bool => "bool"
  | address payable => if payable then "address payable" else "address"
  | fixedBytes size => "bytes" ++ Nat.repr size
  | byteArray isString place => (if isString then "string" else "bytes") ++ placeText short place
  | array element length place =>
    let size := match length with
      | some length => Nat.repr length
      | none => ""
    render true element ++ "[" ++ size ++ "]" ++ placeText short place
  | mapping key value => "mapping(" ++ render true key ++ " => " ++ render true value ++ ")"
  | struct _ name place => "struct " ++ name ++ placeText short place
  | contract c => contractText c
  | function traits parameters returns =>
    "function (" ++ ",".intercalate (renderList short parameters) ++ ")" ++
      (if traits.mutability == .nonPayable then "" else " " ++ traits.mutability.word) ++
      (if traits.kind == .external then " external" else "") ++
      (if returns.isEmpty then ""
        else " returns (" ++ ",".intercalate (renderList short returns) ++ ")")
  | tuple components => "tuple(" ++ ",".intercalate (renderComponents short components) ++ ")"
  | typeType actual | metaType actual => "type(" ++ render short actual ++ ")"
  | magic kind => kind.word
  | modifier parameters => "modifier (" ++ ",".intercalate (renderList short parameters) ++ ")"
  | handle returns => "message_handle(" ++ ",".intercalate (renderList short returns) ++ ")"
  | overloaded _ => "overloaded function set"
  | invalid => "<invalid>"

def renderList (short : Bool) : List Ty → List String
  | [] => []
  | t :: rest => render short t :: renderList short rest

def renderComponents (short : Bool) : List (Option Ty) → List String
  | [] => []
  | none :: rest => "" :: renderComponents short rest
  | some t :: rest => render short t :: renderComponents short rest

end

/-- The text of a type in messages. -/
def text (t : Ty) : String := render false t

/-- The text of a type without places. -/
def shortText (t : Ty) : String := render true t

end Ty

end ContractTyping
