/-!
# Closed vocabularies

The enumerations that a source unit is written with. Each value has one word, and `ofWord?` is the
inverse of `word`.
-/

namespace ContractTyping

/-- A finite type whose values are written as words. -/
class Vocabulary (α : Type) where
  all : List α
  word : α → String

/-- The value that a word stands for. Words are case-sensitive. -/
def Vocabulary.ofWord? {α : Type} [Vocabulary α] (word : String) : Option α :=
  (Vocabulary.all : List α).find? fun a => Vocabulary.word a == word

/-! ## Declarations -/

inductive Visibility
  | unspecified
  | priv
  | internal
  | pub
  | external
deriving DecidableEq, Repr, Inhabited

namespace Visibility

def word : Visibility → String
  | unspecified => "default"
  | priv => "private"
  | internal => "internal"
  | pub => "public"
  | external => "external"

/-- Whether other contracts can call what has this visibility. -/
def isExternallyVisible : Visibility → Bool
  | pub | external => true
  | _ => false

end Visibility

instance : Vocabulary Visibility where
  all := [.unspecified, .priv, .internal, .pub, .external]
  word := Visibility.word

/-- What a function may do, from the most to the least restrictive. -/
inductive Mutability
  | pure
  | view
  | nonPayable
  | payable
deriving DecidableEq, Repr, Inhabited

namespace Mutability

def word : Mutability → String
  | pure => "pure"
  | view => "view"
  | nonPayable => "nonpayable"
  | payable => "payable"

end Mutability

instance : Vocabulary Mutability where
  all := [.pure, .view, .nonPayable, .payable]
  word := Mutability.word

/-- A data location as written, or its absence. -/
inductive LocationKeyword
  | unspecified
  | storage
  | memory
  | calldata
deriving DecidableEq, Repr, Inhabited

namespace LocationKeyword

def word : LocationKeyword → String
  | unspecified => "default"
  | storage => "storage"
  | memory => "memory"
  | calldata => "calldata"

/-- The text of a location in messages. -/
def label : LocationKeyword → String
  | unspecified => "none"
  | written => written.word

end LocationKeyword

instance : Vocabulary LocationKeyword where
  all := [.unspecified, .storage, .memory, .calldata]
  word := LocationKeyword.word

inductive ContractKind
  | contract
  | interface
  | library
deriving DecidableEq, Repr, Inhabited

def ContractKind.word : ContractKind → String
  | contract => "contract"
  | interface => "interface"
  | library => "library"

instance : Vocabulary ContractKind where
  all := [.contract, .interface, .library]
  word := ContractKind.word

inductive FunctionKind
  | function
  | constructor
  | fallback
  | receive
deriving DecidableEq, Repr, Inhabited

def FunctionKind.word : FunctionKind → String
  | function => "function"
  | constructor => "constructor"
  | fallback => "fallback"
  | receive => "receive"

instance : Vocabulary FunctionKind where
  all := [.function, .constructor, .fallback, .receive]
  word := FunctionKind.word

/-- Whether and when a variable may change. -/
inductive Changeability
  | mutable
  | constant
  | immutable
deriving DecidableEq, Repr, Inhabited

def Changeability.word : Changeability → String
  | mutable => "mutable"
  | constant => "constant"
  | immutable => "immutable"

instance : Vocabulary Changeability where
  all := [.mutable, .constant, .immutable]
  word := Changeability.word

/-! ## Literals and operators -/

inductive LiteralKind
  | number
  | bool
  | string
  | hexString
deriving DecidableEq, Repr, Inhabited

def LiteralKind.word : LiteralKind → String
  | number => "number"
  | bool => "bool"
  | string => "string"
  | hexString => "hexString"

instance : Vocabulary LiteralKind where
  all := [.number, .bool, .string, .hexString]
  word := LiteralKind.word

/-- A unit of currency or time behind a number literal. -/
inductive Denomination
  | wei
  | gwei
  | ether
  | seconds
  | minutes
  | hours
  | days
  | weeks
deriving DecidableEq, Repr, Inhabited

namespace Denomination

def word : Denomination → String
  | wei => "wei"
  | gwei => "gwei"
  | ether => "ether"
  | seconds => "seconds"
  | minutes => "minutes"
  | hours => "hours"
  | days => "days"
  | weeks => "weeks"

/-- The factor to the smallest unit of its kind. -/
def multiplier : Denomination → UInt64
  | wei | seconds => 1
  | gwei => 1000000000
  | ether => 1000000000000000000
  | minutes => 60
  | hours => 3600
  | days => 86400
  | weeks => 604800

end Denomination

instance : Vocabulary Denomination where
  all := [.wei, .gwei, .ether, .seconds, .minutes, .hours, .days, .weeks]
  word := Denomination.word

inductive UnaryOp
  | not
  | bitNot
  | negate
  | increment
  | decrement
  | delete
deriving DecidableEq, Repr, Inhabited

namespace UnaryOp

def word : UnaryOp → String
  | not => "!"
  | bitNot => "~"
  | negate => "-"
  | increment => "++"
  | decrement => "--"
  | delete => "delete"

/-- Whether the operator writes to its operand. -/
def isModifying : UnaryOp → Bool
  | increment | decrement | delete => true
  | _ => false

end UnaryOp

instance : Vocabulary UnaryOp where
  all := [.not, .bitNot, .negate, .increment, .decrement, .delete]
  word := UnaryOp.word

inductive BinaryOp
  | add
  | sub
  | mul
  | div
  | mod
  | exp
  | bitAnd
  | bitOr
  | bitXor
  | shl
  | shr
  | and
  | or
  | equal
  | notEqual
  | less
  | lessEqual
  | greater
  | greaterEqual
deriving DecidableEq, Repr, Inhabited

namespace BinaryOp

def word : BinaryOp → String
  | add => "+"
  | sub => "-"
  | mul => "*"
  | div => "/"
  | mod => "%"
  | exp => "**"
  | bitAnd => "&"
  | bitOr => "|"
  | bitXor => "^"
  | shl => "<<"
  | shr => ">>"
  | and => "&&"
  | or => "||"
  | equal => "=="
  | notEqual => "!="
  | less => "<"
  | lessEqual => "<="
  | greater => ">"
  | greaterEqual => ">="

def isEquality : BinaryOp → Bool
  | equal | notEqual => true
  | _ => false

def isComparison : BinaryOp → Bool
  | equal | notEqual | less | lessEqual | greater | greaterEqual => true
  | _ => false

def isBoolean : BinaryOp → Bool
  | and | or => true
  | _ => false

def isShift : BinaryOp → Bool
  | shl | shr => true
  | _ => false

def isBitwise : BinaryOp → Bool
  | bitAnd | bitOr | bitXor => true
  | _ => false

def isArithmetic : BinaryOp → Bool
  | add | sub | mul | div | mod => true
  | _ => false

end BinaryOp

instance : Vocabulary BinaryOp where
  all :=
    [.add, .sub, .mul, .div, .mod, .exp, .bitAnd, .bitOr, .bitXor, .shl, .shr, .and, .or, .equal,
    .notEqual, .less, .lessEqual, .greater, .greaterEqual]
  word := BinaryOp.word

end ContractTyping
