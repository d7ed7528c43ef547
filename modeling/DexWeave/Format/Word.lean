/-
  DexWeave/Format/Word.lean --- fixed-width fields.

  WHAT THIS FILE IS FOR.  Counts, indices, registers, flags, literals and branch
  offsets are words of a fixed width; signed ones are stored in two's complement.
-/
import DexWeave.Format.Basic
import DexWeave.Code.Register

set_option autoImplicit false

namespace DexWeave.Format

/-- A byte. -/
def u8 : Format UInt8 := (number 1).map UInt8.ofNat UInt8.toNat

/-- A word of two bytes. -/
def u16 : Format UInt16 := (number 2).map UInt16.ofNat UInt16.toNat

/-- A word of four bytes. -/
def u32 : Format UInt32 := (number 4).map UInt32.ofNat UInt32.toNat

/-- A word of eight bytes. -/
def u64 : Format UInt64 := (number 8).map UInt64.ofNat UInt64.toNat

/-- A signed word of four bytes. -/
def i32 : Format Int32 := u32.map UInt32.toInt32 Int32.toUInt32

/-- A signed word of eight bytes. -/
def i64 : Format Int64 := u64.map UInt64.toInt64 Int64.toUInt64

/-- A register, by its number. -/
def register : Format Register := u16.map Register.mk Register.index

theorem u8_exact : u8.Exact :=
  map_exact (number_exact 1) (fun _ => UInt8.ofNat_toNat)
    fun h => UInt8.toNat_ofNat_of_lt (number_lt h)

theorem u16_exact : u16.Exact :=
  map_exact (number_exact 2) (fun _ => UInt16.ofNat_toNat)
    fun h => UInt16.toNat_ofNat_of_lt (number_lt h)

theorem u32_exact : u32.Exact :=
  map_exact (number_exact 4) (fun _ => UInt32.ofNat_toNat)
    fun h => UInt32.toNat_ofNat_of_lt (number_lt h)

theorem u64_exact : u64.Exact :=
  map_exact (number_exact 8) (fun _ => UInt64.ofNat_toNat)
    fun h => UInt64.toNat_ofNat_of_lt (number_lt h)

theorem i32_exact : i32.Exact :=
  map_exact_of_inverse u32_exact (fun _ => rfl) (fun _ => rfl)

theorem i64_exact : i64.Exact :=
  map_exact_of_inverse u64_exact (fun _ => rfl) (fun _ => rfl)

theorem register_exact : register.Exact :=
  map_exact_of_inverse u16_exact (fun _ => rfl) (fun _ => rfl)

end DexWeave.Format
