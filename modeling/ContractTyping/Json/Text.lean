import ContractTyping.Json.Number
import ContractTyping.Json.Shape

/-!
# JSON text

`Json.parse?` reads a document and `Json.compact` and `Json.pretty` write one. A string holds no
control character, and nothing but blanks follows the document. What is kept of the document has no
unpaired surrogate in a string, no number beyond all bounds, and no more than `Json.maxNesting`
arrays and objects around one another. Pretty text indents by two blanks and writes an empty
container without a line break.
-/

namespace ContractTyping

namespace Json

/-! ## Reading -/

def skipBlanks (text : List Char) : List Char :=
  text.dropWhile fun c => c == ' ' || c == '\n' || c == '\t' || c == '\r'

/-- A piece of a string: a character as written, or the number of a four-digit escape. -/
inductive Piece
  | plain (c : Char)
  | unit (n : Nat)

/-- The character of a one-letter escape. -/
def escaped? : Char → Option Char
  | '"' => some '"'
  | '\\' => some '\\'
  | '/' => some '/'
  | 'b' => some '\x08'
  | 'f' => some '\x0c'
  | 'n' => some '\n'
  | 'r' => some '\r'
  | 't' => some '\t'
  | _ => none

/-- The pieces up to the closing quote, last first, and the text after it. -/
def stringPieces : List Piece → List Char → Option (List Piece × List Char)
  | _, [] => none
  | pieces, '"' :: rest => some (pieces, rest)
  | pieces, '\\' :: 'u' :: a :: b :: c :: d :: rest =>
    match readNumeral? 16 [a, b, c, d] with
    | none => none
    | some n => stringPieces (.unit n :: pieces) rest
  | pieces, '\\' :: letter :: rest =>
    match escaped? letter with
    | none => none
    | some c => stringPieces (.plain c :: pieces) rest
  | pieces, c :: rest => if c.toNat < 0x20 then none else stringPieces (.plain c :: pieces) rest

/-- Joins pieces that come last first; a low surrogate has to follow a high one. -/
def joinPieces : List Char → List Piece → Option (List Char)
  | chars, [] => some chars
  | chars, .plain c :: rest => joinPieces (c :: chars) rest
  | chars, .unit low :: .unit high :: rest =>
    if 0xDC00 ≤ low && low ≤ 0xDFFF then
      if 0xD800 ≤ high && high ≤ 0xDBFF then
        joinPieces (Char.ofNat (0x10000 + (high - 0xD800) * 0x400 + (low - 0xDC00)) :: chars) rest
      else none
    else if 0xD800 ≤ low && low ≤ 0xDBFF then none
    else joinPieces (Char.ofNat low :: chars) (.unit high :: rest)
  | chars, .unit n :: rest =>
    if 0xD800 ≤ n && n ≤ 0xDFFF then none else joinPieces (Char.ofNat n :: chars) rest

/-- Reads a string after its opening quote. One that is not kept may have unpaired surrogates. -/
def parseString (kept : Bool) (text : List Char) : Option (String × List Char) := do
  let (pieces, rest) ← stringPieces [] text
  if kept then
    let chars ← joinPieces [] pieces
    pure (String.ofList chars, rest)
  else pure ("", rest)

/-- Reads a number, which has to be finite if it is kept. -/
def parseNumber (kept : Bool) (text : List Char) : Option (Json × List Char) := do
  let (n, rest) ← Numeral.parse text
  if kept && !n.isFinite then none else pure (n.toJson, rest)

/-- The most arrays and objects around one another in what is kept. -/
def maxNesting : Nat := 127

/-- How many arrays and objects there may be inside of one more, if there may be one more at all.
What is not kept may be nested at will. -/
def enter? (shape : Shape) (levels : Nat) : Option Nat :=
  if shape.isKept then (if levels = 0 then none else some (levels - 1)) else some levels

mutual

/-- Reads a value with at most so many levels of arrays and objects. Every call is paid for by a
character, so the length of the text suffices for the bound on calls. -/
def parseValue : Nat → Nat → Shape → List Char → Option (Json × List Char)
  | 0, _, _, _ => none
  | fuel + 1, levels, shape, text =>
    match skipBlanks text with
    | '"' :: rest => (parseString shape.isKept rest).map fun (s, rest) => (string s, rest)
    | '[' :: rest => do
      let levels ← enter? shape levels
      match skipBlanks rest with
      | ']' :: rest => some (array [], rest)
      | rest => parseItems fuel levels shape [] rest
    | '{' :: rest => do
      let levels ← enter? shape levels
      match skipBlanks rest with
      | '}' :: rest => some (object [], rest)
      | rest => parseFields fuel levels shape [] rest
    | 'n' :: 'u' :: 'l' :: 'l' :: rest => some (null, rest)
    | 't' :: 'r' :: 'u' :: 'e' :: rest => some (bool true, rest)
    | 'f' :: 'a' :: 'l' :: 's' :: 'e' :: rest => some (bool false, rest)
    | rest => parseNumber shape.isKept rest

/-- Reads the items of an array from the first one still missing; those read come last first. -/
def parseItems : Nat → Nat → Shape → List Json → List Char → Option (Json × List Char)
  | 0, _, _, _, _ => none
  | fuel + 1, levels, shape, items, text => do
    let (item, rest) ← parseValue fuel levels (shape.item items) text
    match skipBlanks rest with
    | ',' :: rest => parseItems fuel levels shape (item :: items) rest
    | ']' :: rest => some (array (item :: items).reverse, rest)
    | _ => none

/-- Reads the fields of an object from the first one still missing; those read come last first. -/
def parseFields :
    Nat → Nat → Shape → List (String × Json) → List Char → Option (Json × List Char)
  | 0, _, _, _, _ => none
  | fuel + 1, levels, shape, fields, text => do
    match skipBlanks text with
    | '"' :: rest =>
      let (name, rest) ← parseString shape.isKept rest
      match skipBlanks rest with
      | ':' :: rest =>
        let (value, rest) ← parseValue fuel levels (shape.field name) rest
        match skipBlanks rest with
        | ',' :: rest => parseFields fuel levels shape ((name, value) :: fields) rest
        | '}' :: rest => some (object ((name, value) :: fields).reverse, rest)
        | _ => none
      | _ => none
    | _ => none

end

/-- Reads a document of which the given shape is kept. The rest of it reads as any value. -/
def parse? (shape : Shape) (text : String) : Option Json := do
  let chars := text.toList
  let (value, rest) ← parseValue (chars.length + 1) maxNesting shape chars
  if (skipBlanks rest).isEmpty then some value else none

/-! ## Writing -/

/-- The two hexadecimal digits of a number below 256, in lower case. -/
def hexPair (n : Nat) : List Char := [Nat.digitChar (n / 16 % 16), Nat.digitChar (n % 16)]

/-- A character inside a string. -/
def escapeChar (c : Char) : List Char :=
  match c with
  | '"' => ['\\', '"']
  | '\\' => ['\\', '\\']
  | '\x08' => ['\\', 'b']
  | '\x0c' => ['\\', 'f']
  | '\n' => ['\\', 'n']
  | '\r' => ['\\', 'r']
  | '\t' => ['\\', 't']
  | _ => if c.toNat < 0x20 then ['\\', 'u', '0', '0'] ++ hexPair c.toNat else [c]

def quote (text : String) : String :=
  String.ofList ('"' :: (text.toList.flatMap escapeChar ++ ['"']))

def integerText : Int → String
  | .ofNat n => Nat.repr n
  | .negSucc n => "-" ++ Nat.repr (n + 1)

mutual

/-- The document without blanks. -/
def compact : Json → String
  | null => "null"
  | bool b => if b then "true" else "false"
  | integer n => integerText n
  | real text => text
  | string text => quote text
  | array items => "[" ++ compactItems items ++ "]"
  | object fields => "\x7b" ++ compactFields fields ++ "\x7d"

def compactItems : List Json → String
  | [] => ""
  | [item] => item.compact
  | item :: rest => item.compact ++ "," ++ compactItems rest

def compactFields : List (String × Json) → String
  | [] => ""
  | [(name, value)] => quote name ++ ":" ++ value.compact
  | (name, value) :: rest => quote name ++ ":" ++ value.compact ++ "," ++ compactFields rest

end

/-- A line break and the indentation of a level. -/
def newline (level : Nat) : String := "\n".pushn ' ' (2 * level)

mutual

/-- The document with one item or field a line, at the given level of indentation. -/
def prettyAt (level : Nat) : Json → String
  | array [] => "[]"
  | array (item :: rest) =>
    "[" ++ newline (level + 1) ++ item.prettyAt (level + 1) ++ prettyItems (level + 1) rest ++
      newline level ++ "]"
  | object [] => "\x7b\x7d"
  | object ((name, value) :: rest) =>
    "\x7b" ++ newline (level + 1) ++ quote name ++ ": " ++ value.prettyAt (level + 1) ++
      prettyFields (level + 1) rest ++ newline level ++ "\x7d"
  | null => "null"
  | bool b => if b then "true" else "false"
  | integer n => integerText n
  | real text => text
  | string text => quote text

def prettyItems (level : Nat) : List Json → String
  | [] => ""
  | item :: rest => "," ++ newline level ++ item.prettyAt level ++ prettyItems level rest

def prettyFields (level : Nat) : List (String × Json) → String
  | [] => ""
  | (name, value) :: rest =>
    "," ++ newline level ++ quote name ++ ": " ++ value.prettyAt level ++ prettyFields level rest

end

/-- The document over several lines. -/
def pretty (document : Json) : String := document.prettyAt 0

end Json

end ContractTyping
