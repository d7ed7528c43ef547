/-
  DexWeave/Code/Register.lean --- registers and the kinds of values they hold.

  WHAT THIS FILE IS FOR.  A method works on numbered registers of 32 bits.  A value
  of 64 bits takes a register and its successor and is named by the first of them.
-/
import DexWeave.Types.ValueType

set_option autoImplicit false

namespace DexWeave

/-- A virtual register. -/
structure Register where
  /-- The number of the register. -/
  index : UInt16
  deriving DecidableEq, Repr, Inhabited, Hashable

namespace Register

/-- The text shown in listings. -/
def display (r : Register) : String := "v" ++ toString r.index.toNat

/-- The second register of a pair. -/
def next (r : Register) : Register := ⟨r.index + 1⟩

end Register

/-- What is moved or returned by an instruction. -/
inductive ValueKind where
  /-- A primitive of 32 bits. -/
  | single
  /-- A primitive of 64 bits, in a pair of registers. -/
  | wide
  /-- A reference. -/
  | object
  deriving DecidableEq, Repr, Inhabited, Hashable

namespace ValueKind

/-- The kind of the values of a type. -/
def ofType (t : ValueType) : ValueKind :=
  if t.isWide then wide else if t.isReference then object else single

/-- The registers of a value of the kind that starts at `r`. -/
def registers (k : ValueKind) (r : Register) : List Register :=
  match k with
  | wide => [r, r.next]
  | _ => [r]

/-- What follows the name of an instruction on values of the kind. -/
def suffix : ValueKind → String
  | single => ""
  | wide => "-wide"
  | object => "-object"

theorem length_registers_ofType (t : ValueType) (r : Register) :
    ((ofType t).registers r).length = t.width := by
  unfold ofType ValueType.width
  split
  · rfl
  · split <;> rfl

end ValueKind

end DexWeave
