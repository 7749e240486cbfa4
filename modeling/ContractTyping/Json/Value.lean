/-!
# JSON values

A document as data. An object keeps its fields in the order written, repetitions included; numbers
with a fraction or an exponent are kept as text, since nothing here computes with them.
-/

namespace ContractTyping

inductive Json
  | null
  | bool (b : Bool)
  | integer (n : Int)
  | real (text : String)
  | string (text : String)
  | array (items : List Json)
  | object (fields : List (String × Json))
deriving Inhabited

namespace Json

mutual

/-- How many arrays and objects lie around the innermost value, that value included. -/
def depth : Json → Nat
  | array items => depthItems items + 1
  | object fields => depthFields fields + 1
  | _ => 1

def depthItems : List Json → Nat
  | [] => 0
  | item :: rest => max item.depth (depthItems rest)

def depthFields : List (String × Json) → Nat
  | [] => 0
  | (_, value) :: rest => max value.depth (depthFields rest)

end

/-- Inserts a field into fields sorted by name, behind those of the same name. -/
def insertField (field : String × Json) : List (String × Json) → List (String × Json)
  | [] => [field]
  | next :: rest =>
    if field.1 < next.1 then field :: next :: rest else next :: insertField field rest

mutual

/-- Sorts the fields of every object by name. -/
def sorted : Json → Json
  | array items => array (sortedItems items)
  | object fields => object (sortedFields fields)
  | other => other

def sortedItems : List Json → List Json
  | [] => []
  | item :: rest => item.sorted :: sortedItems rest

def sortedFields : List (String × Json) → List (String × Json)
  | [] => []
  | (name, value) :: rest => insertField (name, value.sorted) (sortedFields rest)

end

/-! ## Writing plain values -/

def ofNat (n : Nat) : Json := integer n

/-- Null for an absent value. -/
def ofOption {α : Type} (write : α → Json) : Option α → Json
  | none => null
  | some a => write a

def ofList {α : Type} (write : α → Json) (items : List α) : Json := array (items.map write)

/-! ## Reading plain values -/

def asBool? : Json → Option Bool
  | bool b => some b
  | _ => none

def asString? : Json → Option String
  | string s => some s
  | _ => none

def asInteger? : Json → Option Int
  | integer n => some n
  | _ => none

def asNat? : Json → Option Nat
  | integer (.ofNat n) => some n
  | _ => none

/-- Reads every item of an array. -/
def asList? {α : Type} (read : Json → Option α) : Json → Option (List α)
  | array items => items.mapM read
  | _ => none

/-- Reads null as an absent value. -/
def asOption? {α : Type} (read : Json → Option α) : Json → Option (Option α)
  | null => some none
  | value => (read value).map some

end Json

end ContractTyping
