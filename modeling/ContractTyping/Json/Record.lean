import ContractTyping.Json.Value
import ContractTyping.Source.Word

/-!
# Records in JSON

A record is an object with named fields, or the array of its field values in order, where fields at
the end may be left out. Fields that the record does not have are ignored, and one that it has is
given at most once. A tagged object names its kind in the field `nodeType`.
-/

namespace ContractTyping

/-- The fields found in a record. -/
structure Record where
  fields : List (String × Json)

namespace Record

/-- Whether every one of the names is given at most once. -/
def unambiguous (names : List String) (fields : List (String × Json)) : Bool :=
  names.all fun name => (fields.filter fun field => field.1 == name).length ≤ 1

def find? (r : Record) (name : String) : Option Json := r.fields.lookup name

/-- A field that has to be given. -/
def required {α : Type} (r : Record) (name : String) (read : Json → Option α) : Option α :=
  (r.find? name).bind read

/-- A field that has a default. -/
def withDefault {α : Type} (r : Record) (name : String) (default : α) (read : Json → Option α) :
    Option α :=
  match r.find? name with
  | none => some default
  | some value => read value

/-- A field that may be missing or null. -/
def optional {α : Type} (r : Record) (name : String) (read : Json → Option α) :
    Option (Option α) :=
  r.withDefault name none (Json.asOption? read)

/-- A list that is empty when missing. -/
def list {α : Type} (r : Record) (name : String) (read : Json → Option α) : Option (List α) :=
  r.withDefault name [] (Json.asList? read)

/-- A flag that is false when missing. -/
def flag (r : Record) (name : String) : Option Bool := r.withDefault name false Json.asBool?

end Record

namespace Json

/-- The record with the given field names. -/
def record? (names : List String) : Json → Option Record
  | object fields => if Record.unambiguous names fields then some ⟨fields⟩ else none
  | array items => if items.length ≤ names.length then some ⟨names.zip items⟩ else none
  | _ => none

/-- The field that names a kind. -/
def kindField : String := "nodeType"

/-- The kind that a value names by its word. -/
def namedKind? (kinds : List (String × List String)) : Json → Option (String × List String)
  | string word => kinds.find? fun kind => kind.1 == word
  | _ => none

/-- The kind that a value names, by its word or by its position among the kinds. -/
def kind? (kinds : List (String × List String)) : Json → Option (String × List String)
  | integer (.ofNat position) => kinds[position]?
  | value => value.namedKind? kinds

/-- A node of one of the given kinds, each with its own field names, as an object. -/
def node? (kinds : List (String × List String)) : Json → Option (String × Record)
  | object fields => do
    let (kind, names) ← (fields.lookup kindField).bind (kind? kinds)
    if Record.unambiguous (kindField :: "id" :: "span" :: names) fields then
      some (kind, ⟨fields⟩)
    else none
  | _ => none

/-- A part, given how its kind is read: an object, or an array that starts with the kind. -/
def part? (readKind : Json → Option (String × List String)) : Json → Option (String × Record)
  | object fields => do
    let (kind, names) ← (fields.lookup kindField).bind readKind
    if Record.unambiguous (kindField :: names) fields then some (kind, ⟨fields⟩) else none
  | array (head :: items) => do
    let (kind, names) ← readKind head
    let r ← (array items).record? names
    some (kind, r)
  | _ => none

end Json

/-- Reads a word of a vocabulary: a string, or an object whose only field is the word, with null. -/
def Vocabulary.ofJson? {α : Type} [Vocabulary α] : Json → Option α
  | .string word => ofWord? word
  | .object [(word, .null)] => ofWord? word
  | _ => none

/-- Reads a word inside a node, where an empty object may stand for the null. -/
def Vocabulary.ofNodeJson? {α : Type} [Vocabulary α] : Json → Option α
  | .object [(word, .object [])] => ofWord? word
  | json => ofJson? json

end ContractTyping
