import ContractTyping.Ty.Basic

/-!
# Conversions and common types

A value converts implicitly where nothing is lost, and explicitly where the change of representation
is well defined. Two types have a common type when one of them converts implicitly to the concrete
type of the other.
-/

namespace ContractTyping

/-- Whether a function may stand where one of the other mutability is expected. -/
def Mutability.convertible (source target : Mutability) : Bool :=
  source == target ||
    match target with
    | .view => source == .pure
    | .nonPayable => true
    | .pure | .payable => false

namespace Place

/-- Whether data at the source place may be used at the target place: a storage pointer needs data
in storage to point to, and only calldata is in calldata. -/
def convertible (source target : Place) : Bool :=
  match target with
  | ⟨.storage, true⟩ => source.location == .storage
  | ⟨.calldata, _⟩ => source.location == .calldata
  | _ => true

end Place

/-- Whether an array of the source length can be copied into one of the target length. -/
def lengthFits (source target : Option Nat) : Bool :=
  match source, target with
  | _, none => true
  | some length, some targetLength => length ≤ targetLength
  | none, some _ => false

namespace CallTraits

/-- Whether functions with the same types convert. A library function may become an internal one. -/
def convertible (source target : CallTraits) : Bool :=
  (source.kind == target.kind || source.kind == .delegateCall && target.kind == .internal) &&
    source.bound == target.bound && source.gasSet == target.gasSet &&
    source.valueSet == target.valueSet && source.mutability.convertible target.mutability

end CallTraits

namespace Ty

mutual

/-- Whether a value of the first type may be used where the second is expected. -/
def implicitlyConvertible (source target : Ty) : Bool :=
  source == target ||
    match source, target with
    | invalid, _ => true
    | _, invalid => true
    | integer bits signed, integer targetBits targetSigned =>
      if targetSigned then if signed then bits ≤ targetBits else bits < targetBits
      else !signed && bits ≤ targetBits
    | number value _, integer bits signed => value.fitsInteger bits signed
    | number value width, fixedBytes size => value.isZero || width == some size
    | number value _, number targetValue _ => value == targetValue
    | stringLiteral text, fixedBytes size => text.utf8ByteSize ≤ size
    | stringLiteral _, byteArray _ place =>
      place.location != .calldata && place != ⟨.storage, true⟩
    | fixedBytes size, fixedBytes targetSize => size ≤ targetSize
    | address _, address targetPayable => !targetPayable
    | contract c, contract target => !c.isSuper && !target.isSuper && c.bases.contains target.id
    | byteArray isString place, byteArray targetIsString targetPlace =>
      isString == targetIsString && place.convertible targetPlace
    | array element length place, array targetElement targetLength targetPlace =>
      place.convertible targetPlace &&
        if targetPlace == ⟨.storage, false⟩ then
          implicitlyConvertible element targetElement && lengthFits length targetLength
        else
          element.moveTo ⟨place.location, true⟩ == targetElement.moveTo ⟨place.location, true⟩ &&
            length == targetLength
    | struct id _ place, struct targetId _ targetPlace =>
      id == targetId && place.convertible targetPlace
    | tuple components, tuple targetComponents => componentsConvertible components targetComponents
    | function traits parameters returns, function targetTraits targetParameters targetReturns =>
      traits.convertible targetTraits && parameters == targetParameters && returns == targetReturns
    | _, _ => false

/-- Tuples convert component by component. A missing target takes anything. -/
def componentsConvertible : List (Option Ty) → List (Option Ty) → Bool
  | [], [] => true
  | _ :: rest, none :: targetRest => componentsConvertible rest targetRest
  | some t :: rest, some target :: targetRest =>
    implicitlyConvertible t target && componentsConvertible rest targetRest
  | _, _ => false

end

/-- Whether a value of the first type may be converted to the second by naming it. -/
def explicitlyConvertible (source target : Ty) : Bool :=
  implicitlyConvertible source target ||
    match source, target with
    | integer bits signed, integer targetBits targetSigned =>
      signed == targetSigned || bits == targetBits
    | integer bits _, fixedBytes size => bits == size * 8
    | fixedBytes size, integer bits _ => bits == size * 8
    | integer bits signed, address payable => bits == 160 && !signed && !payable
    | address _, integer bits signed => bits == 160 && !signed
    | number value _, address payable =>
      !payable && value.isInteger && !value.isNegative && value.integerBits ≤ 160
    | number value _, fixedBytes size =>
      value.isInteger && !value.isNegative && value.integerBits ≤ size * 8
    | address _, fixedBytes size => size == 20
    | fixedBytes size, address payable => size == 20 && !payable
    | address _, address payable => payable
    | contract c, address payable => !c.isSuper && (!payable || c.canReceive)
    | address _, contract c => !c.isSuper
    | fixedBytes _, fixedBytes _ => true
    | byteArray _ place, byteArray _ targetPlace => place.location == targetPlace.location
    | byteArray isString place, fixedBytes _ => !isString && place.location != .storage
    | _, _ => false

/-- The concrete type of one side that the other side converts to. The left side goes first. -/
def common? (left right : Ty) : Option Ty := do
  let leftMobile ← left.mobile?
  let rightMobile ← right.mobile?
  if implicitlyConvertible right leftMobile then some leftMobile
  else if implicitlyConvertible left rightMobile then some rightMobile
  else none

end Ty

end ContractTyping
