/-
  DexWeave/Stored/Opcode.lean --- the first byte of a stored instruction.

  WHAT THIS FILE IS FOR.  The opcode says which instruction is stored, of which kind,
  and which operands follow it.  Families of instructions have consecutive opcodes.
-/
import DexWeave.Format.Word
import DexWeave.Code.Instruction

set_option autoImplicit false

namespace DexWeave

/-- What the first byte of an instruction says. -/
inductive Opcode where
  | nop
  | move (kind : ValueKind)
  | moveResult (kind : ValueKind)
  | returnVoid
  | returnValue (kind : ValueKind)
  | const
  | constWide
  | constString
  | newInstance
  | throw
  | goto
  | branch (comparison : Comparison)
  | branchZero (comparison : Comparison)
  | binary (op : BinaryOp)
  | invoke (kind : InvokeKind)
  deriving DecidableEq, Repr, Inhabited

namespace Opcode

/-- The byte of an opcode. -/
def byte : Opcode → UInt8
  | nop => 0x00
  | move .single => 0x01
  | move .wide => 0x04
  | move .object => 0x07
  | moveResult .single => 0x0a
  | moveResult .wide => 0x0b
  | moveResult .object => 0x0c
  | returnVoid => 0x0e
  | returnValue .single => 0x0f
  | returnValue .wide => 0x10
  | returnValue .object => 0x11
  | const => 0x14
  | constWide => 0x18
  | constString => 0x1a
  | newInstance => 0x22
  | throw => 0x27
  | goto => 0x28
  | branch .eq => 0x32
  | branch .ne => 0x33
  | branch .lt => 0x34
  | branch .ge => 0x35
  | branch .gt => 0x36
  | branch .le => 0x37
  | branchZero .eq => 0x38
  | branchZero .ne => 0x39
  | branchZero .lt => 0x3a
  | branchZero .ge => 0x3b
  | branchZero .gt => 0x3c
  | branchZero .le => 0x3d
  | invoke .virtual => 0x6e
  | invoke .super => 0x6f
  | invoke .direct => 0x70
  | invoke .static => 0x71
  | invoke .interface => 0x72
  | binary .add => 0x90
  | binary .sub => 0x91
  | binary .mul => 0x92

/-- The kinds of values, in the order of the opcodes of a family. -/
def kinds : List ValueKind := [.single, .wide, .object]

/-- The comparisons, in the order of the opcodes of a family. -/
def comparisons : List Comparison := [.eq, .ne, .lt, .ge, .gt, .le]

/-- The dispatches of calls, in the order of their opcodes. -/
def dispatches : List InvokeKind := [.virtual, .super, .direct, .static, .interface]

/-- The opcode of a byte, if there is one.  A byte of a family is told by its distance from the
first one. -/
def ofByte? (b : UInt8) : Option Opcode :=
  if b = 0x00 then some nop
  else if b = 0x01 then some (move .single)
  else if b = 0x04 then some (move .wide)
  else if b = 0x07 then some (move .object)
  else if 0x0a ≤ b ∧ b ≤ 0x0c then kinds[(b - 0x0a).toNat]?.map moveResult
  else if b = 0x0e then some returnVoid
  else if 0x0f ≤ b ∧ b ≤ 0x11 then kinds[(b - 0x0f).toNat]?.map returnValue
  else if b = 0x14 then some const
  else if b = 0x18 then some constWide
  else if b = 0x1a then some constString
  else if b = 0x22 then some newInstance
  else if b = 0x27 then some throw
  else if b = 0x28 then some goto
  else if 0x32 ≤ b ∧ b ≤ 0x37 then comparisons[(b - 0x32).toNat]?.map branch
  else if 0x38 ≤ b ∧ b ≤ 0x3d then comparisons[(b - 0x38).toNat]?.map branchZero
  else if 0x6e ≤ b ∧ b ≤ 0x72 then dispatches[(b - 0x6e).toNat]?.map invoke
  else if b = 0x90 then some (binary .add)
  else if b = 0x91 then some (binary .sub)
  else if b = 0x92 then some (binary .mul)
  else none

/-- What is written for an opcode is read as it. -/
theorem ofByte?_byte (o : Opcode) : ofByte? o.byte = some o := by
  cases o with
  | move k | moveResult k | returnValue k => cases k <;> rfl
  | branch c | branchZero c => cases c <;> rfl
  | binary op => cases op <;> rfl
  | invoke k => cases k <;> rfl
  | _ => rfl

/-- What is read as an opcode is what is written for it. -/
theorem byte_of_ofByte? {b : UInt8} {o : Opcode} (h : ofByte? b = some o) : o.byte = b := by
  have hall : ∀ n < 256, ∀ o ∈ ofByte? (UInt8.ofNat n), o.byte = UInt8.ofNat n := by
    decide +kernel
  have hb := hall b.toNat b.toNat_lt
  rw [UInt8.ofNat_toNat] at hb
  exact hb o h

theorem ofByte?_eq_some_iff {b : UInt8} {o : Opcode} : ofByte? b = some o ↔ o.byte = b :=
  ⟨byte_of_ofByte?, fun h => h ▸ ofByte?_byte o⟩

/-- The first byte of an instruction. -/
def format : Format Opcode :=
  Format.u8.refine
    (fun b =>
      match ofByte? b with
      | some o => .ok o
      | none => .error (.unexpectedOpcode b))
    byte

theorem format_exact : format.Exact := by
  refine Format.refine_exact Format.u8_exact ?_
  intro b o
  constructor
  · intro h
    split at h
    · rename_i hb
      obtain rfl := Except.ok.inj h
      exact ofByte?_eq_some_iff.mp hb
    · simp at h
  · intro h
    rw [ofByte?_eq_some_iff.mpr h]

end Opcode

end DexWeave
