/-
  DexWeave/Stored/ClassDef.lean --- class definitions as containers hold them.

  WHAT THIS FILE IS FOR.  A stored definition names its class, its super class and
  its methods by their position in the pools.  An absent super class is the one index
  with all bits set.
-/
import DexWeave.Stored.Instruction

set_option autoImplicit false

namespace DexWeave

/-- A stored method body. -/
structure StoredBody where
  /-- How many registers the method uses. -/
  registers : UInt16
  /-- How many of them hold its arguments. -/
  ins : UInt16
  /-- How many argument registers its calls need. -/
  outs : UInt16
  /-- The instructions. -/
  instructions : List StoredInstruction
  deriving DecidableEq, Repr, Inhabited

namespace StoredBody

/-- How a body is stored. -/
def format : Format StoredBody :=
  (Format.u16.pair (Format.u16.pair (Format.u16.pair (StoredInstruction.format.counted 4)))).map
    (fun (registers, ins, outs, instructions) => ⟨registers, ins, outs, instructions⟩)
    (fun b => (b.registers, b.ins, b.outs, b.instructions))

theorem format_exact : format.Exact :=
  Format.map_exact_of_inverse
    (Format.pair_exact Format.u16_exact (Format.pair_exact Format.u16_exact
      (Format.pair_exact Format.u16_exact
        (Format.counted_exact StoredInstruction.format_exact 4))))
    (fun _ => rfl) (fun _ => rfl)

end StoredBody

/-- A stored method. -/
structure StoredMethod where
  /-- The position of the method in the method pool. -/
  ref : UInt32
  /-- The flag word. -/
  flags : UInt32
  /-- The body, if there is one. -/
  body : Option StoredBody
  deriving DecidableEq, Repr, Inhabited

namespace StoredMethod

/-- How a method is stored. -/
def format : Format StoredMethod :=
  (Format.u32.pair (Format.u32.pair StoredBody.format.optional)).map
    (fun (ref, flags, body) => ⟨ref, flags, body⟩)
    (fun m => (m.ref, m.flags, m.body))

theorem format_exact : format.Exact :=
  Format.map_exact_of_inverse
    (Format.pair_exact Format.u32_exact (Format.pair_exact Format.u32_exact
      (Format.optional_exact StoredBody.format_exact)))
    (fun _ => rfl) (fun _ => rfl)

end StoredMethod

/-- A stored class definition. -/
structure StoredClass where
  /-- The position of the class in the type pool. -/
  type : UInt32
  /-- The flag word. -/
  flags : UInt32
  /-- The position of the super class in the type pool, or `noIndex`. -/
  super : UInt32
  /-- The declared methods. -/
  methods : List StoredMethod
  deriving DecidableEq, Repr, Inhabited

namespace StoredClass

/-- The index that stands for an absent type. -/
def noIndex : UInt32 := 0xFFFFFFFF

/-- How a class definition is stored. -/
def format : Format StoredClass :=
  (Format.u32.pair (Format.u32.pair (Format.u32.pair (StoredMethod.format.counted 4)))).map
    (fun (type, flags, super, methods) => ⟨type, flags, super, methods⟩)
    (fun c => (c.type, c.flags, c.super, c.methods))

theorem format_exact : format.Exact :=
  Format.map_exact_of_inverse
    (Format.pair_exact Format.u32_exact (Format.pair_exact Format.u32_exact
      (Format.pair_exact Format.u32_exact (Format.counted_exact StoredMethod.format_exact 4))))
    (fun _ => rfl) (fun _ => rfl)

end StoredClass

end DexWeave
