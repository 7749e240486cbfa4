import ContractTyping.Exact.Fraction
import ContractTyping.Source.Node
import ContractTyping.Source.Word

/-!
# Types

The resolved types of expressions and declarations. Widths are filled in, references to declared
types are identities, literals keep their exact value, and arrays and structs carry the place they
live at.

Equality of types is decidable (`Ty.beq_iff`).
-/

namespace ContractTyping

/-- Where data of a reference type lives. -/
inductive DataLocation
  | storage
  | memory
  | calldata
deriving DecidableEq, Repr, Inhabited

def DataLocation.word : DataLocation → String
  | storage => "storage"
  | memory => "memory"
  | calldata => "calldata"

instance : Vocabulary DataLocation where
  all := [.storage, .memory, .calldata]
  word := DataLocation.word

/-- A data location, and whether the value points to existing data there. Only in storage does the
difference show: assigning to a pointer redirects it, assigning to a reference copies. -/
structure Place where
  location : DataLocation
  isPointer : Bool := false
deriving DecidableEq, Repr, Inhabited

namespace Place

def memory : Place := ⟨.memory, false⟩

/-- The text of a place behind a type. -/
def label : Place → String
  | ⟨.storage, true⟩ => "storage pointer"
  | ⟨.storage, false⟩ => "storage ref"
  | ⟨location, _⟩ => location.word

end Place

/-- How a function value is invoked. -/
inductive CallKind
  | internal
  | external
  /-- A visible function of a library, called through the library's name. -/
  | delegateCall
  /-- Creates a contract. -/
  | creation
  /-- Allocates an array in memory. -/
  | objectCreation
  /-- Sends an asynchronous message to a contract. -/
  | message
  | event
  | send
  | transfer
  | bareCall
  | bareDelegateCall
  | bareStaticCall
  | arrayPush
  | arrayPop
  | require
  | assert
  | revert
  | keccak256
  | sha256
  | ripemd160
  | ecRecover
  | addMod
  | mulMod
  | gasLeft
  | blockHash
  | selfdestruct
  | abiEncode
  | abiEncodePacked
  | abiEncodeWithSelector
  | abiEncodeWithSignature
  | abiDecode
  | metaType
deriving DecidableEq, Repr, Inhabited

namespace CallKind

def isBareCall : CallKind → Bool
  | bareCall | bareDelegateCall | bareStaticCall => true
  | _ => false

/-- Whether control leaves the contract. -/
def isExternalCall : CallKind → Bool
  | external | delegateCall => true
  | kind => kind.isBareCall

def isAbiEncode : CallKind → Bool
  | abiEncode | abiEncodePacked | abiEncodeWithSelector | abiEncodeWithSignature => true
  | _ => false

end CallKind

/-- The globals that only have members. -/
inductive MagicKind
  | message
  | block
  | transaction
  | abi
deriving DecidableEq, Repr, Inhabited

def MagicKind.word : MagicKind → String
  | message => "msg"
  | block => "block"
  | transaction => "tx"
  | abi => "abi"

instance : Vocabulary MagicKind where
  all := [.message, .block, .transaction, .abi]
  word := MagicKind.word

structure ContractTy where
  id : NodeId
  name : String
  kind : ContractKind
  /-- Whether plain value transfers are accepted. -/
  canReceive : Bool
  /-- The view of the contract through its bases. -/
  isSuper : Bool
  /-- The contract and its bases, most derived first. -/
  bases : List NodeId
deriving DecidableEq, Repr, Inhabited

/-- What a function type has besides its parameter and return types. -/
structure CallTraits where
  kind : CallKind
  parameterNames : List String
  returnNames : List String
  mutability : Mutability
  declaration : Option NodeId := none
  /-- Takes any number of arguments of any type. -/
  arbitrary : Bool := false
  gasSet : Bool := false
  valueSet : Bool := false
  saltSet : Bool := false
  /-- A library function attached to its first argument. -/
  bound : Bool := false
deriving DecidableEq, Repr, Inhabited

inductive Ty
  | integer (bits : Nat) (signed : Bool)
  /-- The exact value of a number literal or of an operation on some. A hexadecimal literal with an
  even number of digits also has a width in bytes. -/
  | number (value : Fraction) (byteWidth : Option Nat)
  | stringLiteral (text : String)
  | bool
  | address (payable : Bool)
  | fixedBytes (size : Nat)
  | byteArray (isString : Bool) (place : Place)
  /-- An array without a length is dynamically sized. -/
  | array (element : Ty) (length : Option Nat) (place : Place)
  | mapping (key value : Ty)
  | struct (id : NodeId) (name : String) (place : Place)
  | contract (contract : ContractTy)
  | function (traits : CallTraits) (parameters returns : List Ty)
  /-- Components are missing only on the left of an assignment. -/
  | tuple (components : List (Option Ty))
  /-- A type used as a value, as in a conversion. -/
  | typeType (actual : Ty)
  | magic (kind : MagicKind)
  /-- What is known about a type, as its name or its range. -/
  | metaType (actual : Ty)
  | modifier (parameters : List Ty)
  /-- The pending result of a message. -/
  | handle (returns : List Ty)
  /-- The candidates that a call has not been narrowed to yet. -/
  | overloaded (candidates : List Ty)
  /-- Recorded after an error, to silence the errors that would follow from it. -/
  | invalid
deriving Repr

namespace Ty

instance : Inhabited Ty := ⟨invalid⟩

/-! ## Equality -/

mutual

def beq : Ty → Ty → Bool
  | integer bits signed, integer bits' signed' => bits == bits' && signed == signed'
  | number value width, number value' width' => value == value' && width == width'
  | stringLiteral text, stringLiteral text' => text == text'
  | bool, bool => true
  | address payable, address payable' => payable == payable'
  | fixedBytes size, fixedBytes size' => size == size'
  | byteArray isString place, byteArray isString' place' => isString == isString' && place == place'
  | array element length place, array element' length' place' =>
    beq element element' && length == length' && place == place'
  | mapping key value, mapping key' value' => beq key key' && beq value value'
  | struct id name place, struct id' name' place' => id == id' && name == name' && place == place'
  | contract c, contract c' => c == c'
  | function traits parameters returns, function traits' parameters' returns' =>
    traits == traits' && beqList parameters parameters' && beqList returns returns'
  | tuple components, tuple components' => beqComponents components components'
  | typeType actual, typeType actual' => beq actual actual'
  | magic kind, magic kind' => kind == kind'
  | metaType actual, metaType actual' => beq actual actual'
  | modifier parameters, modifier parameters' => beqList parameters parameters'
  | handle returns, handle returns' => beqList returns returns'
  | overloaded candidates, overloaded candidates' => beqList candidates candidates'
  | invalid, invalid => true
  | _, _ => false

def beqList : List Ty → List Ty → Bool
  | [], [] => true
  | t :: ts, t' :: ts' => beq t t' && beqList ts ts'
  | _, _ => false

def beqComponents : List (Option Ty) → List (Option Ty) → Bool
  | [], [] => true
  | none :: ts, none :: ts' => beqComponents ts ts'
  | some t :: ts, some t' :: ts' => beq t t' && beqComponents ts ts'
  | _, _ => false

end

mutual

theorem beq_iff : ∀ t t' : Ty, t.beq t' = true ↔ t = t'
  | integer _ _, t' | number _ _, t' | stringLiteral _, t' | bool, t' | address _, t'
  | fixedBytes _, t' | byteArray _ _, t' | struct _ _ _, t' | contract _, t' | magic _, t'
  | invalid, t' => by cases t' <;> simp [beq, and_assoc]
  | array element _ _, t' => by cases t' <;> simp [beq, beq_iff element, and_assoc]
  | mapping key value, t' => by cases t' <;> simp [beq, beq_iff key, beq_iff value]
  | function _ parameters returns, t' => by
    cases t' <;> simp [beq, beqList_iff parameters, beqList_iff returns, and_assoc]
  | tuple components, t' => by cases t' <;> simp [beq, beqComponents_iff components]
  | typeType actual, t' | metaType actual, t' => by cases t' <;> simp [beq, beq_iff actual]
  | modifier types, t' | handle types, t' | overloaded types, t' => by
    cases t' <;> simp [beq, beqList_iff types]

theorem beqList_iff : ∀ ts ts' : List Ty, beqList ts ts' = true ↔ ts = ts'
  | [], ts' => by cases ts' <;> simp [beqList]
  | t :: ts, ts' => by cases ts' <;> simp [beqList, beq_iff t, beqList_iff ts]

theorem beqComponents_iff : ∀ ts ts' : List (Option Ty), beqComponents ts ts' = true ↔ ts = ts'
  | [], ts' => by cases ts' <;> simp [beqComponents]
  | none :: ts, [] => by simp [beqComponents]
  | none :: ts, t' :: ts' => by cases t' <;> simp [beqComponents, beqComponents_iff ts]
  | some t :: ts, [] => by simp [beqComponents]
  | some t :: ts, t' :: ts' => by
    cases t' <;> simp [beqComponents, beq_iff t, beqComponents_iff ts]

end

instance : DecidableEq Ty := fun t t' => decidable_of_iff _ (beq_iff t t')

/-! ## Common types -/

def uint256 : Ty := integer 256 false

def bytesMemory : Ty := byteArray false .memory

def stringMemory : Ty := byteArray true .memory

/-- The type of no value. -/
def unit : Ty := tuple []

def tupleOf (types : List Ty) : Ty := tuple (types.map some)

/-! ## Places -/

/-- Moves an array or a struct to a place. Elements of an array are pointed to at its location. -/
def moveTo (t : Ty) (place : Place) : Ty :=
  match t with
  | byteArray isString _ => byteArray isString place
  | array element length _ => array (element.moveTo ⟨place.location, true⟩) length place
  | struct id name _ => struct id name place
  | other => other

/-- An array at a location, whose elements are moved there as well. -/
def arrayOf (element : Ty) (length : Option Nat) (location : DataLocation) : Ty :=
  array (element.moveTo ⟨location, true⟩) length ⟨location, false⟩

/-- A mapping takes its keys from memory and holds its values in storage. -/
def mappingOf (key value : Ty) : Ty := mapping (key.moveTo .memory) (value.moveTo ⟨.storage, true⟩)

/-- The place of an array or a struct. -/
def place? : Ty → Option Place
  | byteArray _ place | array _ _ place | struct _ _ place => some place
  | _ => none

/-- The data location of a reference type. Mappings are always in storage. -/
def location? : Ty → Option DataLocation
  | mapping _ _ => some .storage
  | t => t.place?.map Place.location

def isStoragePointer (t : Ty) : Bool := t.place? == some ⟨.storage, true⟩

/-- Whether assigning to a value of this type copies into storage. -/
def isStorageReference (t : Ty) : Bool := t.place? == some ⟨.storage, false⟩

/-! ## Classes of types -/

mutual

/-- Whether an error was recorded for this type or, in a tuple, for one of its components. -/
def isInvalid : Ty → Bool
  | invalid => true
  | tuple components => anyInvalid components
  | _ => false

def anyInvalid : List (Option Ty) → Bool
  | [] => false
  | none :: rest => anyInvalid rest
  | some t :: rest => isInvalid t || anyInvalid rest

end

def isValueType : Ty → Bool
  | integer .. | number .. | bool | address _ | fixedBytes _ | contract _ | function .. => true
  | _ => false

def isReferenceType : Ty → Bool
  | byteArray .. | array .. | struct .. | mapping .. => true
  | _ => false

def isInteger : Ty → Bool
  | integer .. => true
  | _ => false

def isByteArray : Ty → Bool
  | byteArray .. => true
  | _ => false

def isDynamicallySized : Ty → Bool
  | byteArray .. | array _ none _ => true
  | _ => false

/-- The type of the elements of an array. -/
def element? : Ty → Option Ty
  | byteArray .. => some (fixedBytes 1)
  | array element _ _ => some element
  | _ => none

/-- The type that a value takes when nothing else asks for one: literals become concrete, unless no
integer type holds their value. -/
def mobile? : Ty → Option Ty
  | number value _ => value.smallestInteger?.map fun (bits, signed) => integer bits signed
  | stringLiteral _ => some stringMemory
  | t => some t

end Ty

/-! ## Function types -/

/-- A function type on its own. -/
structure FunctionTy extends CallTraits where
  parameters : List Ty
  returns : List Ty
deriving DecidableEq, Repr, Inhabited

namespace FunctionTy

def toTy (f : FunctionTy) : Ty := .function f.toCallTraits f.parameters f.returns

/-- A function type whose parameters and return values have no names. -/
def of (kind : CallKind) (parameters returns : List Ty) (mutability : Mutability) : FunctionTy where
  kind := kind
  parameterNames := parameters.map fun _ => ""
  returnNames := returns.map fun _ => ""
  mutability := mutability
  parameters := parameters
  returns := returns

/-- The same function taking any arguments. -/
def withArbitraryParameters (f : FunctionTy) : FunctionTy := { f with arbitrary := true }

def isPayable (f : FunctionTy) : Bool := f.mutability == .payable

/-- The type of a list of values: the type of a single one, else a tuple. -/
def resultOf : List Ty → Ty
  | [t] => t
  | types => .tupleOf types

/-- The type of a call. -/
def callResult (f : FunctionTy) : Ty := resultOf f.returns

/-- Whether two functions are called alike: neither names nor mutability matter. -/
def sameSignature (f g : FunctionTy) : Bool :=
  f.kind == g.kind && f.parameters == g.parameters && f.returns == g.returns &&
    f.bound == g.bound && f.gasSet == g.gasSet && f.valueSet == g.valueSet

/-- Whether the parameter lists are identical. -/
def equalParameters (f g : FunctionTy) : Bool := f.parameters == g.parameters

end FunctionTy

namespace Ty

def function? : Ty → Option FunctionTy
  | function traits parameters returns => some { traits with parameters, returns }
  | _ => none

/-- Whether two candidates of an overloaded name are the same. -/
def sameSignature (t t' : Ty) : Bool :=
  match t.function?, t'.function? with
  | some f, some g => f.sameSignature g
  | _, _ => t == t'

end Ty

end ContractTyping
