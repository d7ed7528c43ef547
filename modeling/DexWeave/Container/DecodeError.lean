/-
  DexWeave/Container/DecodeError.lean --- why a container cannot be read.

  WHAT THIS FILE IS FOR.  Reading ends at the first fault.  Each kind of fault has a
  constructor that holds what the message names, and `DecodeError.message` is the one
  place where the wording stands.
-/
import DexWeave.Text.Hex
import DexWeave.Types.ClassName

set_option autoImplicit false

namespace DexWeave

/-- The pools of a container. -/
inductive PoolKind where
  | string
  | type
  | proto
  | method
  deriving DecidableEq, Repr, Inhabited

/-- The name of the pool inside messages. -/
def PoolKind.display : PoolKind → String
  | string => "string"
  | type => "type"
  | proto => "proto"
  | method => "method"

/-- Why a container cannot be read. -/
inductive DecodeError where
  /-- The bytes end inside an item. -/
  | endOfInput
  /-- The bytes do not open with the magic of a container. -/
  | notAContainer
  /-- The stored checksum is not that of the content. -/
  | checksumMismatch (stored computed : UInt32)
  /-- An index points behind the end of its pool. -/
  | badPoolIndex (pool : PoolKind) (index : UInt32)
  /-- A class is needed where the type pool holds another descriptor. -/
  | notAClassType (descriptor : String)
  /-- No instruction has the opcode. -/
  | unexpectedOpcode (byte : UInt8)
  /-- The branch at a position leaves the body. -/
  | invalidBranchTarget (position : Nat) (offset : Int32)
  /-- A flag word has bits without a meaning. -/
  | unknownFlags (flags : UInt32)
  /-- A type descriptor is malformed. -/
  | invalidDescriptor
  /-- A string of the pool is not valid UTF-8. -/
  | brokenUtf8
  /-- A byte has a value that nothing is stored as, or bytes follow the last class. -/
  | unexpectedData
  /-- The container does not define the class. -/
  | classNotFound (name : ClassName)
  /-- The container has no definition at the position. -/
  | noClassAt (position : Nat)
  deriving DecidableEq, Repr, Inhabited

namespace DecodeError

/-- The wording of a malformed descriptor, alone or inside another message. -/
def invalidDescriptorText : String := "Invalid descriptor"

/-- The text of the error. -/
def message : DecodeError → String
  | endOfInput => "Failed to read from buffer: failed to fill whole buffer"
  | notAContainer => "The buffer does not contain a dex container"
  | checksumMismatch stored computed =>
    "Checksum mismatch, expected 0x" ++ Hex.padded 8 stored.toNat ++ ", but found 0x" ++
      Hex.padded 8 computed.toNat
  | badPoolIndex pool index =>
    "Index " ++ toString index.toNat ++ " is out of bounds of the " ++ pool.display ++ " pool"
  | notAClassType descriptor => "Expected a class type, but found " ++ descriptor
  | unexpectedOpcode byte => "Unexpected opcode 0x" ++ Hex.padded 2 byte.toNat
  | invalidBranchTarget position offset =>
    "Branch at instruction " ++ toString position ++ " jumps out of the method body by " ++
      toString offset.toInt
  | unknownFlags flags => "Unknown access flags 0x" ++ Hex.ofNat flags.toNat
  | invalidDescriptor => "Fail to parse descriptor: " ++ invalidDescriptorText
  | brokenUtf8 => "Invalid UTF-8 string"
  | unexpectedData => "Unexpected data at the end of the container"
  | classNotFound name => "Class " ++ name.text ++ " is not defined in the container"
  | noClassAt position => "Class #" ++ toString position ++ " is not defined in the container"

/-- Whether the fault is a class that is not there, rather than a damaged layout. -/
def isClassNotFound : DecodeError → Bool
  | classNotFound _ | noClassAt _ => true
  | _ => false

end DecodeError

end DexWeave
