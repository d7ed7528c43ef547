/-
  DexWeave/Code/Instruction.lean --- the instructions of method bodies.

  WHAT THIS FILE IS FOR.  The same instructions occur twice: in a container they
  name strings, types and methods by pool index and branch targets by distance; in
  an editable body they carry the string, the type, the method and a label.  So the
  type of instructions leaves open what stands in these four places, and passing from
  one form to the other is one function, `Instruction.traverse`.
-/
import DexWeave.Code.Register
import DexWeave.Types.MethodRef

set_option autoImplicit false

namespace DexWeave

/-- A branch target in an editable body. -/
structure Label where
  /-- The number of the label. -/
  id : UInt32
  deriving DecidableEq, Repr, Inhabited, Hashable

/-- How an invoked method is dispatched. -/
inductive InvokeKind where
  | virtual
  | super
  | direct
  | static
  | interface
  deriving DecidableEq, Repr, Inhabited, Hashable

/-- The comparison made by a conditional branch. -/
inductive Comparison where
  | eq
  | ne
  | lt
  | ge
  | gt
  | le
  deriving DecidableEq, Repr, Inhabited, Hashable

/-- The arithmetic operation on two integers. -/
inductive BinaryOp where
  | add
  | sub
  | mul
  deriving DecidableEq, Repr, Inhabited, Hashable

/-- An instruction.  The parameters are what stands for a string, a type, a method and a branch
target. -/
inductive Instruction (Text Typ Method Target : Type) where
  /-- Does nothing. -/
  | nop
  /-- Copies a value. -/
  | move (kind : ValueKind) (dst src : Register)
  /-- Takes the result of the invoke just before. -/
  | moveResult (kind : ValueKind) (dst : Register)
  /-- Leaves a method without a result. -/
  | returnVoid
  /-- Leaves a method with a result. -/
  | returnValue (kind : ValueKind) (src : Register)
  /-- Loads a literal of 32 bits. -/
  | const (dst : Register) (value : Int32)
  /-- Loads a literal of 64 bits. -/
  | constWide (dst : Register) (value : Int64)
  /-- Loads a string literal. -/
  | constString (dst : Register) (text : Text)
  /-- Makes an instance of a class. -/
  | newInstance (dst : Register) (type : Typ)
  /-- Throws an exception. -/
  | throw (src : Register)
  /-- Jumps. -/
  | goto (target : Target)
  /-- Jumps if two registers compare as asked. -/
  | branch (comparison : Comparison) (left right : Register) (target : Target)
  /-- Jumps if a register compares with zero as asked. -/
  | branchZero (comparison : Comparison) (operand : Register) (target : Target)
  /-- Computes an integer. -/
  | binary (op : BinaryOp) (dst left right : Register)
  /-- Calls a method; the receiver, if there is one, is the first argument. -/
  | invoke (kind : InvokeKind) (method : Method) (args : List Register)
  deriving DecidableEq, Repr, Inhabited

namespace Instruction

variable {Text Typ Method Target : Type} {Text' Typ' Method' Target' : Type} {ε : Type}

/-- Replaces what an instruction refers to; the four functions may fail, and each instruction
calls at most one of them. -/
def traverse (onText : Text → Except ε Text') (onType : Typ → Except ε Typ')
    (onMethod : Method → Except ε Method') (onTarget : Target → Except ε Target') :
    Instruction Text Typ Method Target → Except ε (Instruction Text' Typ' Method' Target')
  | nop => .ok nop
  | move k d s => .ok (move k d s)
  | moveResult k d => .ok (moveResult k d)
  | returnVoid => .ok returnVoid
  | returnValue k s => .ok (returnValue k s)
  | const d v => .ok (const d v)
  | constWide d v => .ok (constWide d v)
  | constString d t => (onText t).map (constString d)
  | newInstance d t => (onType t).map (newInstance d)
  | throw s => .ok (throw s)
  | goto t => (onTarget t).map goto
  | branch c a b t => (onTarget t).map (branch c a b)
  | branchZero c a t => (onTarget t).map (branchZero c a)
  | binary op d a b => .ok (binary op d a b)
  | invoke k m args => (onMethod m).map fun m' => invoke k m' args

/-- The branch target of the instruction, if it has one. -/
def target? : Instruction Text Typ Method Target → Option Target
  | goto t | branch _ _ _ t | branchZero _ _ t => some t
  | _ => none

/-- The string the instruction loads, if it loads one. -/
def text? : Instruction Text Typ Method Target → Option Text
  | constString _ t => some t
  | _ => none

/-- The type the instruction instantiates, if it does. -/
def type? : Instruction Text Typ Method Target → Option Typ
  | newInstance _ t => some t
  | _ => none

/-- The method the instruction calls, if it calls one. -/
def method? : Instruction Text Typ Method Target → Option Method
  | invoke _ m _ => some m
  | _ => none

/-- Whether the instruction leaves the method normally. -/
def isReturn : Instruction Text Typ Method Target → Bool
  | returnVoid | returnValue .. => true
  | _ => false

end Instruction

/-- An instruction of an editable body. -/
abbrev SymbolicInstruction : Type := Instruction String ValueType MethodRef Label

/-- A call of a static method. -/
def SymbolicInstruction.invokeStatic (m : MethodRef) (args : List Register) :
    SymbolicInstruction :=
  .invoke .static m args

end DexWeave
