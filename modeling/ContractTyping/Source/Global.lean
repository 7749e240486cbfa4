import ContractTyping.Source.Node

/-!
# Globals of the language

Names such as `msg`, `abi` or `require` are linked to declarations with fixed negative identities.
An overloaded global has one identity for each overload.
-/

namespace ContractTyping

inductive GlobalKind
  | abi
  | block
  | message
  | transaction
  | this
  | super
  | metaType
  | require
  | requireWithMessage
  | assert
  | revert
  | revertWithMessage
  | keccak256
  | sha256
  | ripemd160
  | ecrecover
  | addMod
  | mulMod
  | gasLeft
  | blockHash
  | selfdestruct
deriving DecidableEq, Repr, Inhabited

structure Global where
  id : NodeId
  name : String
  kind : GlobalKind
deriving DecidableEq, Repr, Inhabited

namespace Global

def all : List Global := [
  ⟨⟨-1⟩, "abi", .abi⟩,
  ⟨⟨-2⟩, "addmod", .addMod⟩,
  ⟨⟨-3⟩, "assert", .assert⟩,
  ⟨⟨-4⟩, "block", .block⟩,
  ⟨⟨-5⟩, "blockhash", .blockHash⟩,
  ⟨⟨-6⟩, "ecrecover", .ecrecover⟩,
  ⟨⟨-7⟩, "gasleft", .gasLeft⟩,
  ⟨⟨-8⟩, "keccak256", .keccak256⟩,
  ⟨⟨-15⟩, "msg", .message⟩,
  ⟨⟨-16⟩, "mulmod", .mulMod⟩,
  ⟨⟨-18⟩, "require", .require⟩,
  ⟨⟨-19⟩, "require", .requireWithMessage⟩,
  ⟨⟨-20⟩, "revert", .revert⟩,
  ⟨⟨-21⟩, "revert", .revertWithMessage⟩,
  ⟨⟨-22⟩, "ripemd160", .ripemd160⟩,
  ⟨⟨-23⟩, "selfdestruct", .selfdestruct⟩,
  ⟨⟨-24⟩, "sha256", .sha256⟩,
  ⟨⟨-26⟩, "tx", .transaction⟩,
  ⟨⟨-27⟩, "type", .metaType⟩,
  ⟨⟨-28⟩, "this", .this⟩,
  ⟨⟨-29⟩, "super", .super⟩]

/-- The global with the given identity. -/
def ofId? (id : NodeId) : Option Global := all.find? fun global => global.id == id

/-- The identities of all overloads of a name. -/
def idsOf (name : String) : List NodeId :=
  (all.filter fun global => global.name == name).map Global.id

end Global

end ContractTyping
