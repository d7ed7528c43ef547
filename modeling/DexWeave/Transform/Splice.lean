/-
  DexWeave/Transform/Splice.lean --- instructions woven into a body.

  WHAT THIS FILE IS FOR.  Every change of a body has one shape.  Some instructions
  are put before everything else, labels included, so that no branch leads to them;
  and single instructions of the body are each replaced by a block.  A block takes the
  place of its instruction behind the labels that name it, so a branch to the
  instruction leads to the start of its block.
-/
import DexWeave.Code.Body

set_option autoImplicit false

namespace DexWeave

/-- What is woven into a body. -/
structure Splice where
  /-- The instructions run once, on entry. -/
  opening : List SymbolicInstruction
  /-- The block that takes the place of an instruction, if one does. -/
  block : SymbolicInstruction → Option (List SymbolicInstruction)
  /-- The argument registers that the inserted calls need at most. -/
  room : Nat

namespace Splice

/-- The instructions that stand for one instruction of the old body. -/
def blockOf (s : Splice) (i : SymbolicInstruction) : List SymbolicInstruction :=
  (s.block i).getD [i]

/-- The lines that stand for one line of the old body. -/
def weaveLine (s : Splice) : Line → List Line
  | .label l => [.label l]
  | .instruction i => (s.blockOf i).map .instruction

/-- The lines of the new body. -/
def weave (s : Splice) (lines : List Line) : List Line :=
  s.opening.map .instruction ++ lines.flatMap s.weaveLine

/-- Whether anything is inserted into, or replaced in, the body. -/
def touches (s : Splice) (lines : List Line) : Bool :=
  !s.opening.isEmpty || (instructionsOf lines).any fun i => (s.block i).isSome

/-- The body with the splice woven in. -/
def apply (s : Splice) (b : Body) : Body :=
  { b with lines := s.weave b.lines }.reserveOuts s.room

theorem instructionsOf_weave (s : Splice) (lines : List Line) :
    instructionsOf (s.weave lines) =
      s.opening ++ (instructionsOf lines).flatMap s.blockOf := by
  rw [weave, instructionsOf_append, instructionsOf_map_instruction]
  congr 1
  induction lines with
  | nil => rfl
  | cons line lines ih =>
    cases line <;> simp [weaveLine, ih]

theorem labelsOf_weave (s : Splice) (lines : List Line) :
    labelsOf (s.weave lines) = labelsOf lines := by
  rw [weave, labelsOf_append, labelsOf_map_instruction, List.nil_append]
  induction lines with
  | nil => rfl
  | cons line lines ih =>
    cases line <;> simp [weaveLine, ih]

end Splice

end DexWeave
