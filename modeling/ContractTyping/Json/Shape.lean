/-!
# What is kept of a document

A reader that knows the fields of a record passes over all others. Of what it passes over only the
form counts: brackets, commas, the escapes of strings and the digits of numbers. What it keeps has
to stand for a value as well.
-/

namespace ContractTyping

/-- What a reader keeps of a value: nothing, all of it, or the named fields of a record. -/
inductive Shape
  | skipped
  | whole
  | record (fields : List (String × Shape))
deriving Inhabited

namespace Shape

/-- Whether strings and numbers at this place have to stand for a value. -/
def isKept : Shape → Bool
  | skipped => false
  | _ => true

/-- The shape of the field of an object. -/
def field (shape : Shape) (name : String) : Shape :=
  match shape with
  | record fields => (fields.lookup name).getD skipped
  | _ => shape

/-- The shape of an array's item behind those given. A record may be written as the array of its
fields. -/
def item {α : Type} (shape : Shape) (before : List α) : Shape :=
  match shape with
  | record fields => (fields[before.length]?).elim whole Prod.snd
  | _ => shape

end Shape

end ContractTyping
