import ContractTyping.Source.Word
import ContractTyping.Text.Quoted

/-!
# Settings of a check

The target machine decides which features exist, the ABI coder which types can cross the interface
of a contract. A target gains features with every release and never loses one.
-/

namespace ContractTyping

/-- Releases of the target machine, oldest first. -/
inductive EvmVersion
  | homestead
  | tangerineWhistle
  | spuriousDragon
  | byzantium
  | constantinople
  | petersburg
  | istanbul
  | berlin
  | london
deriving DecidableEq, Repr, Inhabited

namespace EvmVersion

def all : List EvmVersion :=
  [homestead, tangerineWhistle, spuriousDragon, byzantium, constantinople, petersburg, istanbul,
    berlin, london]

def name : EvmVersion → String
  | homestead => "homestead"
  | tangerineWhistle => "tangerineWhistle"
  | spuriousDragon => "spuriousDragon"
  | byzantium => "byzantium"
  | constantinople => "constantinople"
  | petersburg => "petersburg"
  | istanbul => "istanbul"
  | berlin => "berlin"
  | london => "london"

/-- The place in the order of releases. -/
def rank : EvmVersion → Nat
  | homestead => 0
  | tangerineWhistle => 1
  | spuriousDragon => 2
  | byzantium => 3
  | constantinople => 4
  | petersburg => 5
  | istanbul => 6
  | berlin => 7
  | london => 8

/-- Whether a version is the given release or a later one. -/
def atLeast (version release : EvmVersion) : Bool := release.rank ≤ version.rank

def supportsReturndata (version : EvmVersion) : Bool := version.atLeast byzantium

def hasStaticCall (version : EvmVersion) : Bool := version.atLeast byzantium

def hasBitwiseShifting (version : EvmVersion) : Bool := version.atLeast constantinople

def hasCreate2 (version : EvmVersion) : Bool := version.atLeast constantinople

def hasExtCodeHash (version : EvmVersion) : Bool := version.atLeast constantinople

def hasChainId (version : EvmVersion) : Bool := version.atLeast istanbul

def hasSelfBalance (version : EvmVersion) : Bool := version.atLeast istanbul

def hasBaseFee (version : EvmVersion) : Bool := version.atLeast london

end EvmVersion

instance : Vocabulary EvmVersion where
  all := EvmVersion.all
  word := EvmVersion.name

/-- Generations of the rules for encoding values. -/
inductive AbiCoder
  | v1
  | v2
deriving DecidableEq, Repr, Inhabited

def AbiCoder.word : AbiCoder → String
  | v1 => "v1"
  | v2 => "v2"

instance : Vocabulary AbiCoder where
  all := [.v1, .v2]
  word := AbiCoder.word

/-- Why the name of a setting is refused. -/
inductive SettingError
  | unknownEvmVersion (given : String)
  | unknownAbiCoder (given : String)
deriving DecidableEq, Repr

def SettingError.message : SettingError → String
  | unknownEvmVersion given => "unknown EVM version " ++ quoted given
  | unknownAbiCoder given => "unknown ABI coder version " ++ quoted given ++ ", expected v1 or v2"

/-- The text with the capital letters of ASCII made small. -/
def lowered (text : String) : String := String.ofList (text.toList.map Char.toLower)

/-- Finds a version by its name, in any case. -/
def EvmVersion.ofName (given : String) : Except SettingError EvmVersion :=
  match EvmVersion.all.find? fun version => lowered version.name == lowered given with
  | some version => .ok version
  | none => .error (.unknownEvmVersion given)

/-- Finds a coder by its name or number, in any case. -/
def AbiCoder.ofName (given : String) : Except SettingError AbiCoder :=
  let name := lowered given
  if name == "v1" || name == "1" then .ok .v1
  else if name == "v2" || name == "2" then .ok .v2
  else .error (.unknownAbiCoder given)

/-- The settings of a run. The coder is the one for source units that do not name one. -/
structure Settings where
  evmVersion : EvmVersion := .london
  abiCoder : AbiCoder := .v2
deriving DecidableEq, Repr, Inhabited

end ContractTyping
