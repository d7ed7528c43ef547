/-
  DexWeave/Container/Allocator.lean --- the memory an image is written into.

  WHAT THIS FILE IS FOR.  A machine wants new class bytes in memory it handed out
  itself.  An allocator is asked for a number of bytes; it may refuse, hand out memory
  of any length, or break off with a message of its own.
-/
import DexWeave.Bytes

set_option autoImplicit false

namespace DexWeave

/-- The answer of an allocator. -/
inductive Allocation where
  /-- No memory. -/
  | refused
  /-- Memory with whatever it held before. -/
  | memory (contents : Bytes)
  /-- The allocator broke off. -/
  | aborted (message : String)
  deriving DecidableEq, Repr, Inhabited

/-- What is asked for memory. -/
abbrev Allocator : Type := Nat → Allocation

/-- Always hands out as many zero bytes as asked. -/
def Allocator.heap : Allocator := fun size => .memory (List.replicate size 0)

end DexWeave
