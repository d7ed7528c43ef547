/-
  DexWeave/Text/Quoted.lean --- a text literal as a listing shows it.

  WHAT THIS FILE IS FOR.  A listing puts a string literal between double quotes on
  one line.  NUL, tab, line feed and carriage return, the double quote and the
  backslash have short escapes; every other character that would not be seen, or
  would join the character before it, is written as its number in hexadecimal.
-/
import DexWeave.Text.Hex
import DexWeave.Text.ExtendingMark
import DexWeave.Text.Invisible

set_option autoImplicit false

namespace DexWeave.Text.Quoted

/-- Whether a character is shown as itself. -/
def isPlain (c : Char) : Bool :=
  if c.toNat < 0x7f then 0x20 ≤ c.toNat
  else !(invisible.holds c || extendingMark.holds c)

/-- The number of a character, in the escape that any character has. -/
def numbered (c : Char) : List Char :=
  ['\\', 'u', '\x7b'] ++ (Hex.ofNat c.toNat).toList ++ ['\x7d']

/-- One character of the literal. -/
def escape (c : Char) : List Char :=
  match c.toNat with
  | 0x00 => ['\\', '0']
  | 0x09 => ['\\', 't']
  | 0x0a => ['\\', 'n']
  | 0x0d => ['\\', 'r']
  | 0x22 => ['\\', c]
  | 0x5c => ['\\', c]
  | _ => if isPlain c then [c] else numbered c

/-- The literal between its quotes. -/
def render (text : String) : String :=
  String.ofList ('\x22' :: (text.toList.flatMap escape ++ ['\x22']))

end DexWeave.Text.Quoted
