/-
  DexWeave/Instrument/Bridge.lean --- one class changed while it is loaded.

  WHAT THIS FILE IS FOR.  The bridge stands between the machine and the transforms of
  one class.  A load of another class passes through.  A load of its own class is
  decoded, transformed and stored again; if that fails, the machine keeps the bytes it
  has.  The bridge remembers what became of the latest load of its class.
-/
import DexWeave.Container.Decode
import DexWeave.Container.Encode
import DexWeave.Transform.Apply
import DexWeave.Vm.Basic

set_option autoImplicit false

namespace DexWeave

/-- Why a class keeps its bytes. -/
inductive BridgeError where
  /-- They cannot be read. -/
  | decode (e : DecodeError)
  /-- The transformed class cannot be stored. -/
  | encode (e : EncodeError)
  /-- The bridge was cut short. -/
  | aborted (message : String)
  deriving DecidableEq, Repr, Inhabited

namespace BridgeError

/-- The text of the error. -/
def message : BridgeError → String
  | decode e => "Malformed container: " ++ e.message
  | encode e => "Failed to encode the rewritten class: " ++ e.message
  | aborted text => "Rewriting panicked: " ++ text

/-- The error of a dex file that could not be stored. -/
def ofEncodeFailure : EncodeFailure → BridgeError
  | .error e => encode e
  | .aborted text => aborted text

end BridgeError

/-- The bytes of a class with its transforms applied in order. -/
def transformClass (name : ClassName) (transforms : List Transform) (allocate : Allocator)
    (bytes : Bytes) : Except BridgeError Bytes :=
  match DexFile.decode bytes name with
  | .error e => .error (.decode e)
  | .ok d =>
    match (Transform.applyAll transforms d).encode allocate with
    | .error e => .error (.ofEncodeFailure e)
    | .ok image => .ok image

/-- What became of the latest load of a class. -/
inductive BridgeOutcome where
  /-- The class was not loaded. -/
  | notReached
  /-- It got these bytes. -/
  | replaced (bytes : Bytes)
  /-- It kept its bytes. -/
  | failed (error : BridgeError)
  deriving DecidableEq, Repr, Inhabited

/-- What changes one class. -/
structure Bridge where
  /-- The class. -/
  name : ClassName
  /-- Its transforms, in the order they are applied. -/
  transforms : List Transform
  deriving DecidableEq, Repr, Inhabited

namespace Bridge

/-- Answers a load: the new bytes, if there are any, and what became of the class. -/
def onLoad (b : Bridge) (allocate : Allocator) (outcome : BridgeOutcome) (event : ClassLoad) :
    Option Bytes × BridgeOutcome :=
  if event.name = b.name then
    match transformClass b.name b.transforms allocate event.bytes with
    | .ok image => (some image, .replaced image)
    | .error e => (none, .failed e)
  else (none, outcome)

/-- Answers a load with the memory that comes with it, as the hook of a machine. -/
def hook (b : Bridge) (outcome : BridgeOutcome) (load : Allocator × ClassLoad) :
    Option Bytes × BridgeOutcome :=
  b.onLoad load.1 outcome load.2

/-- Answers loads one after the other. -/
def onLoads (b : Bridge) (outcome : BridgeOutcome) :
    List (Allocator × ClassLoad) → List (Option Bytes) × BridgeOutcome
  | [] => ([], outcome)
  | (allocate, event) :: events =>
    let (returned, outcome) := b.onLoad allocate outcome event
    let (rest, outcome) := b.onLoads outcome events
    (returned :: rest, outcome)

end Bridge

end DexWeave
