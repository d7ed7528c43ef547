/-
  DexWeave/Container/EncodeError.lean --- why a dex file cannot be stored.

  WHAT THIS FILE IS FOR.  Storing fails for a cause of its own, or is cut short: by
  the allocator, or by an item that is missing from the pools.
-/
import DexWeave.Code.Listing

set_option autoImplicit false

namespace DexWeave

/-- Why a dex file cannot be stored. -/
inductive EncodeError where
  /-- A count or an index does not fit its field. -/
  | outOfRange
  /-- A branch leads to a label that is nowhere placed. -/
  | undefinedLabel (l : Label)
  /-- A label is placed twice in one body. -/
  | duplicateLabel (l : Label)
  /-- A branch leads to a label behind the last instruction. -/
  | danglingLabel (l : Label)
  /-- The allocator did not hand out this many bytes. -/
  | allocationFailed (size : Nat)
  deriving DecidableEq, Repr, Inhabited

/-- The text of the error. -/
def EncodeError.message : EncodeError → String
  | outOfRange => "Out of range error: number too large to fit in target type"
  | undefinedLabel l => "Undefined label " ++ l.display
  | duplicateLabel l => "Duplicate label " ++ l.display
  | danglingLabel l => "Label " ++ l.display ++ " does not precede any instruction"
  | allocationFailed size => "Failed to allocate " ++ toString size ++ " bytes for the image"

/-- How storing a dex file ends without an image. -/
inductive EncodeFailure where
  /-- It cannot be stored. -/
  | error (e : EncodeError)
  /-- It was cut short. -/
  | aborted (message : String)
  deriving DecidableEq, Repr, Inhabited

/-- An item is looked up in a pool that does not hold it. -/
def EncodeFailure.notPooled : EncodeFailure := .aborted "no entry found for key"

end DexWeave
