/-
  DexWeave/Code/Listing.lean --- method bodies as text.

  WHAT THIS FILE IS FOR.  A listing has one line for every label and instruction: the
  name of the instruction, its registers, and what it refers to.
-/
import DexWeave.Code.Body
import DexWeave.Text.Quoted

set_option autoImplicit false

namespace DexWeave

/-- The text of a label, where it is placed and where it is a target. -/
def Label.display (l : Label) : String := ":L" ++ toString l.id.toNat

/-- The dispatch as part of an instruction's name. -/
def InvokeKind.display : InvokeKind → String
  | virtual => "virtual"
  | super => "super"
  | direct => "direct"
  | static => "static"
  | interface => "interface"

/-- The comparison as part of an instruction's name. -/
def Comparison.display : Comparison → String
  | eq => "eq"
  | ne => "ne"
  | lt => "lt"
  | ge => "ge"
  | gt => "gt"
  | le => "le"

/-- The name of the instruction that computes the operation. -/
def BinaryOp.display : BinaryOp → String
  | add => "add-int"
  | sub => "sub-int"
  | mul => "mul-int"

/-- Operands parted by commas. -/
def operands (texts : List String) : String := ", ".intercalate texts

/-- The text of an instruction. -/
def SymbolicInstruction.display : SymbolicInstruction → String
  | .nop => "nop"
  | .move k d s => "move" ++ k.suffix ++ " " ++ operands [d.display, s.display]
  | .moveResult k d => "move-result" ++ k.suffix ++ " " ++ d.display
  | .returnVoid => "return-void"
  | .returnValue k s => "return" ++ k.suffix ++ " " ++ s.display
  | .const d v => "const " ++ operands [d.display, toString v.toInt]
  | .constWide d v => "const-wide " ++ operands [d.display, toString v.toInt]
  | .constString d t => "const-string " ++ operands [d.display, Text.Quoted.render t]
  | .newInstance d t => "new-instance " ++ operands [d.display, t.display]
  | .throw s => "throw " ++ s.display
  | .goto l => "goto " ++ l.display
  | .branch c a b l => "if-" ++ c.display ++ " " ++ operands [a.display, b.display, l.display]
  | .branchZero c a l => "if-" ++ c.display ++ "z " ++ operands [a.display, l.display]
  | .binary op d a b => op.display ++ " " ++ operands [d.display, a.display, b.display]
  | .invoke k m args =>
    "invoke-" ++ k.display ++ " \x7b" ++ operands (args.map Register.display) ++ "\x7d, " ++
      m.display

/-- The text of a line. -/
def Line.display : Line → String
  | label l => l.display
  | instruction i => SymbolicInstruction.display i

/-- The text of every line. -/
def Body.listing (b : Body) : List String := b.lines.map Line.display

/-- The text of every instruction, without the labels. -/
def Body.instructionListing (b : Body) : List String :=
  (instructionsOf b.lines).map SymbolicInstruction.display

end DexWeave
