/-
  DexWeave/Code/Body.lean --- editable method bodies.

  WHAT THIS FILE IS FOR.  The lines of a body are instructions with labels placed
  between them.  A label takes no room: it names the first instruction behind it.
  The last registers of a method hold its arguments on entry, and a method states how
  many argument registers the calls in its body need at most.
-/
import DexWeave.Code.Instruction

set_option autoImplicit false

namespace DexWeave

/-- A line of a body. -/
inductive Line where
  /-- Names the first instruction behind the line. -/
  | label (l : Label)
  /-- An instruction. -/
  | instruction (i : SymbolicInstruction)
  deriving DecidableEq, Repr, Inhabited

namespace Line

/-- The instruction of the line, if it holds one. -/
def instruction? : Line → Option SymbolicInstruction
  | instruction i => some i
  | label _ => none

/-- The label placed by the line, if it places one. -/
def label? : Line → Option Label
  | label l => some l
  | instruction _ => none

/-- Whether the line leaves the method normally. -/
def isReturn (line : Line) : Bool := line.instruction?.any Instruction.isReturn

/-- The label the line jumps to, if it jumps. -/
def target? (line : Line) : Option Label := line.instruction?.bind Instruction.target?

end Line

/-- The instructions among the lines. -/
def instructionsOf (lines : List Line) : List SymbolicInstruction :=
  lines.filterMap Line.instruction?

/-- The labels placed among the lines, in order. -/
def labelsOf (lines : List Line) : List Label := lines.filterMap Line.label?

@[simp] theorem instructionsOf_nil : instructionsOf [] = [] := rfl

@[simp] theorem instructionsOf_label_cons (l : Label) (lines : List Line) :
    instructionsOf (.label l :: lines) = instructionsOf lines := rfl

@[simp] theorem instructionsOf_instruction_cons (i : SymbolicInstruction) (lines : List Line) :
    instructionsOf (.instruction i :: lines) = i :: instructionsOf lines := rfl

@[simp] theorem instructionsOf_append (front back : List Line) :
    instructionsOf (front ++ back) = instructionsOf front ++ instructionsOf back :=
  List.filterMap_append

@[simp] theorem instructionsOf_map_instruction (is : List SymbolicInstruction) :
    instructionsOf (is.map .instruction) = is := by
  induction is with
  | nil => rfl
  | cons i is ih => rw [List.map_cons, instructionsOf_instruction_cons, ih]

@[simp] theorem labelsOf_nil : labelsOf [] = [] := rfl

@[simp] theorem labelsOf_label_cons (l : Label) (lines : List Line) :
    labelsOf (.label l :: lines) = l :: labelsOf lines := rfl

@[simp] theorem labelsOf_instruction_cons (i : SymbolicInstruction) (lines : List Line) :
    labelsOf (.instruction i :: lines) = labelsOf lines := rfl

@[simp] theorem labelsOf_append (front back : List Line) :
    labelsOf (front ++ back) = labelsOf front ++ labelsOf back :=
  List.filterMap_append

@[simp] theorem labelsOf_map_instruction (is : List SymbolicInstruction) :
    labelsOf (is.map .instruction) = [] := by
  induction is with
  | nil => rfl
  | cons i is ih => rw [List.map_cons, labelsOf_instruction_cons, ih]

/-- The body of a method. -/
structure Body where
  /-- How many registers the method uses. -/
  registers : UInt16
  /-- How many of them, the last ones, hold its arguments on entry. -/
  ins : UInt16
  /-- How many argument registers the calls in the body need at most. -/
  outs : UInt16
  /-- The labels and instructions. -/
  lines : List Line
  deriving DecidableEq, Repr, Inhabited

namespace Body

/-- The first register that holds an argument; a body with more arguments than registers has
them from its first register on. -/
def firstIncoming (b : Body) : Register := ⟨UInt16.ofNat (b.registers.toNat - b.ins.toNat)⟩

/-- The registers that hold arguments on entry, in order. -/
def incoming (b : Body) : List Register :=
  let first := b.registers.toNat - b.ins.toNat
  (List.range' first (b.registers.toNat - first)).map fun n => ⟨UInt16.ofNat n⟩

/-- Makes room for calls with `count` argument registers, as far as the field can say so. -/
def reserveOuts (b : Body) (count : Nat) : Body :=
  { b with outs := max b.outs (UInt16.ofNat (min count 65535)) }

end Body

end DexWeave
