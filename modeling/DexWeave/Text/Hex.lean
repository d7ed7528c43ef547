/-
  DexWeave/Text/Hex.lean --- lower-case hexadecimal text.

  WHAT THIS FILE IS FOR.  Digests and payload identities are written two digits a
  byte; numbers inside messages are written with as few digits as they need, or
  padded with zeros to a fixed count.
-/
import DexWeave.Bytes

set_option autoImplicit false

namespace DexWeave.Hex

/-- The lower-case digit of a number below sixteen. -/
def digit (n : Nat) : Char :=
  if n < 10 then Char.ofNat ('0'.toNat + n) else Char.ofNat ('a'.toNat + (n - 10))

/-- The number a digit stands for, in either case. -/
def digitValue? (c : Char) : Option Nat :=
  if '0' ≤ c ∧ c ≤ '9' then some (c.toNat - '0'.toNat)
  else if 'a' ≤ c ∧ c ≤ 'f' then some (c.toNat - 'a'.toNat + 10)
  else if 'A' ≤ c ∧ c ≤ 'F' then some (c.toNat - 'A'.toNat + 10)
  else none

/-- The two digits of a byte, the high one first. -/
def ofByte (b : UInt8) : List Char :=
  [digit (b.toNat / 16), digit (b.toNat % 16)]

/-- The text of a byte string, two digits a byte. -/
def ofBytes (bs : Bytes) : String := String.ofList (bs.flatMap ofByte)

/-- Reads pairs of digits as bytes; an odd count or another character is refused. -/
def bytesOfChars? : List Char → Option Bytes
  | [] => some []
  | high :: low :: rest => do
    let h ← digitValue? high
    let l ← digitValue? low
    let bs ← bytesOfChars? rest
    some (UInt8.ofNat (16 * h + l) :: bs)
  | _ => none

/-- The byte string a text of digit pairs stands for. -/
def toBytes? (text : String) : Option Bytes := bytesOfChars? text.toList

/-- A number with as few digits as it needs. -/
def ofNat (n : Nat) : String := String.ofList (Nat.toDigits 16 n)

/-- A number with at least `width` digits, zeros in front. -/
def padded (width n : Nat) : String :=
  let ds := Nat.toDigits 16 n
  String.ofList (List.replicate (width - ds.length) '0' ++ ds)

end DexWeave.Hex
