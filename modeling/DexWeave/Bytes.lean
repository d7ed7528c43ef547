/-
  DexWeave/Bytes.lean --- byte strings and the little-endian numbers inside them.

  WHAT THIS FILE IS FOR.  Every number of a container is stored least significant
  byte first, in a field of one, two, four or eight bytes.  The digits are defined
  once for every width, over `Nat`; the fixed-width fields of `Format/Word.lean`
  are instances.

  WHAT IS PROVED.  `digits width` and `value` are inverse to each other on the
  numbers below `capacity width`, which is 256 to the power `width`, and on the byte
  strings of length `width`.
-/
set_option autoImplicit false

namespace DexWeave

/-- A string of bytes, in file order. -/
abbrev Bytes : Type := List UInt8

namespace LittleEndian

/-- The `width` low base-256 digits of `n`, least significant first. -/
def digits : Nat → Nat → Bytes
  | 0, _ => []
  | width + 1, n => UInt8.ofNat n :: digits width (n / 256)

/-- The number of values that `width` bytes can hold. -/
def capacity : Nat → Nat
  | 0 => 1
  | width + 1 => 256 * capacity width

/-- The number whose base-256 digits are given, least significant first. -/
def value : Bytes → Nat
  | [] => 0
  | b :: bs => b.toNat + 256 * value bs

@[simp] theorem length_digits (width n : Nat) : (digits width n).length = width := by
  induction width generalizing n with
  | zero => rfl
  | succ width ih => simp [digits, ih]

theorem value_lt (bs : Bytes) : value bs < capacity bs.length := by
  induction bs with
  | nil => simp [value, capacity]
  | cons b bs ih =>
    have hb := b.toNat_lt
    rw [value, List.length_cons, capacity]
    omega

theorem value_digits {width n : Nat} (h : n < capacity width) : value (digits width n) = n := by
  induction width generalizing n with
  | zero => simp [capacity] at h; simp [digits, value, h]
  | succ width ih =>
    have hq : n / 256 < capacity width := by
      rw [capacity] at h
      omega
    rw [digits, value, ih hq, UInt8.toNat_ofNat']
    omega

theorem digits_value (bs : Bytes) : digits bs.length (value bs) = bs := by
  induction bs with
  | nil => rfl
  | cons b bs ih =>
    have hb := b.toNat_lt
    have hq : (b.toNat + 256 * value bs) / 256 = value bs := by omega
    have hr : UInt8.ofNat (b.toNat + 256 * value bs) = b := by
      apply UInt8.toNat_inj.mp
      rw [UInt8.toNat_ofNat']
      omega
    rw [List.length_cons, digits, value, hq, hr, ih]

end LittleEndian

end DexWeave
