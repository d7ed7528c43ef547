/-
  DexWeave/Stored/Instruction.lean --- instructions as containers hold them.

  WHAT THIS FILE IS FOR.  A stored instruction names strings, types and methods by
  their position in the pools, and a branch target by its distance from the branch,
  counted in instructions.  It is an opcode followed by the operands the opcode asks
  for.
-/
import DexWeave.Stored.Opcode

set_option autoImplicit false

namespace DexWeave

/-- An instruction with pool indices and branch offsets. -/
abbrev StoredInstruction : Type := Instruction UInt32 UInt32 UInt32 Int32

/-- The operands behind an opcode. -/
def Opcode.Operands : Opcode → Type
  | nop | returnVoid => Unit
  | move _ => Register × Register
  | moveResult _ | returnValue _ | throw => Register
  | const => Register × Int32
  | constWide => Register × Int64
  | constString | newInstance => Register × UInt32
  | goto => Int32
  | branch _ => Register × Register × Int32
  | branchZero _ => Register × Int32
  | binary _ => Register × Register × Register
  | invoke _ => UInt32 × List Register

/-- How the operands behind an opcode are stored. -/
def Opcode.operands : (o : Opcode) → Format o.Operands
  | nop | returnVoid => Format.unit
  | move _ => Format.register.pair Format.register
  | moveResult _ | returnValue _ | throw => Format.register
  | const => Format.register.pair Format.i32
  | constWide => Format.register.pair Format.i64
  | constString | newInstance => Format.register.pair Format.u32
  | goto => Format.i32
  | branch _ => Format.register.pair (Format.register.pair Format.i32)
  | branchZero _ => Format.register.pair Format.i32
  | binary _ => Format.register.pair (Format.register.pair Format.register)
  | invoke _ => Format.u32.pair (Format.register.counted 1)

theorem Opcode.operands_exact (o : Opcode) : o.operands.Exact := by
  cases o
  case nop | returnVoid => exact Format.unit_exact
  case move => exact Format.pair_exact Format.register_exact Format.register_exact
  case moveResult | returnValue | throw => exact Format.register_exact
  case const | branchZero => exact Format.pair_exact Format.register_exact Format.i32_exact
  case constWide => exact Format.pair_exact Format.register_exact Format.i64_exact
  case constString | newInstance =>
    exact Format.pair_exact Format.register_exact Format.u32_exact
  case goto => exact Format.i32_exact
  case branch =>
    exact Format.pair_exact Format.register_exact
      (Format.pair_exact Format.register_exact Format.i32_exact)
  case binary =>
    exact Format.pair_exact Format.register_exact
      (Format.pair_exact Format.register_exact Format.register_exact)
  case invoke =>
    exact Format.pair_exact Format.u32_exact (Format.counted_exact Format.register_exact 1)

namespace StoredInstruction

/-- The instruction made of an opcode and its operands. -/
def ofParts : (o : Opcode) × o.Operands → StoredInstruction
  | ⟨.nop, _⟩ => .nop
  | ⟨.move k, d, s⟩ => .move k d s
  | ⟨.moveResult k, d⟩ => .moveResult k d
  | ⟨.returnVoid, _⟩ => .returnVoid
  | ⟨.returnValue k, s⟩ => .returnValue k s
  | ⟨.const, d, v⟩ => .const d v
  | ⟨.constWide, d, v⟩ => .constWide d v
  | ⟨.constString, d, i⟩ => .constString d i
  | ⟨.newInstance, d, i⟩ => .newInstance d i
  | ⟨.throw, s⟩ => .throw s
  | ⟨.goto, t⟩ => .goto t
  | ⟨.branch c, a, b, t⟩ => .branch c a b t
  | ⟨.branchZero c, a, t⟩ => .branchZero c a t
  | ⟨.binary op, d, a, b⟩ => .binary op d a b
  | ⟨.invoke k, m, args⟩ => .invoke k m args

/-- The opcode of an instruction with its operands. -/
def parts : StoredInstruction → (o : Opcode) × o.Operands
  | .nop => ⟨.nop, ()⟩
  | .move k d s => ⟨.move k, d, s⟩
  | .moveResult k d => ⟨.moveResult k, d⟩
  | .returnVoid => ⟨.returnVoid, ()⟩
  | .returnValue k s => ⟨.returnValue k, s⟩
  | .const d v => ⟨.const, d, v⟩
  | .constWide d v => ⟨.constWide, d, v⟩
  | .constString d i => ⟨.constString, d, i⟩
  | .newInstance d i => ⟨.newInstance, d, i⟩
  | .throw s => ⟨.throw, s⟩
  | .goto t => ⟨.goto, t⟩
  | .branch c a b t => ⟨.branch c, a, b, t⟩
  | .branchZero c a t => ⟨.branchZero c, a, t⟩
  | .binary op d a b => ⟨.binary op, d, a, b⟩
  | .invoke k m args => ⟨.invoke k, m, args⟩

/-- How an instruction is stored. -/
def format : Format StoredInstruction :=
  (Opcode.format.tagged Opcode.operands).map ofParts parts

theorem format_exact : format.Exact := by
  refine Format.map_exact_of_inverse
    (Format.tagged_exact Opcode.format_exact Opcode.operands_exact) ?_ ?_
  · intro i
    cases i <;> rfl
  · rintro ⟨o, args⟩
    cases o <;> rfl

end StoredInstruction

end DexWeave
