/-
  DexWeave/Container/Mention.lean --- what a dex file refers to.

  WHAT THIS FILE IS FOR.  The pools of a container hold exactly what its classes
  mention: the methods they declare and call, the types that occur, and the strings.
-/
import DexWeave.Dex.DexFile

set_option autoImplicit false

namespace DexWeave

/-- The instructions of a method, none if it has no body. -/
def Method.instructions (m : Method) : List SymbolicInstruction :=
  match m.body with
  | none => []
  | some b => instructionsOf b.lines

/-- The descriptors of the types in a method reference. -/
def MethodRef.descriptors (m : MethodRef) : List String :=
  m.owner.descriptor :: m.prototype.result.descriptor ::
    m.prototype.parameters.map ValueType.descriptor

namespace DexFile

/-- The instructions of all bodies. -/
def instructions (d : DexFile) : List SymbolicInstruction :=
  d.classes.flatMap fun c => c.methods.flatMap Method.instructions

/-- The methods that are declared. -/
def declaredMethods (d : DexFile) : List MethodRef :=
  d.classes.flatMap fun c => c.methods.map Method.ref

/-- The methods that are declared or called. -/
def mentionedMethods (d : DexFile) : List MethodRef :=
  d.declaredMethods ++ d.instructions.filterMap Instruction.method?

/-- The classes that are defined, and their super classes. -/
def definedClasses (d : DexFile) : List ClassName :=
  d.classes.flatMap fun c => c.name :: c.super.toList

/-- The descriptors of all types that occur. -/
def mentionedDescriptors (d : DexFile) : List String :=
  d.definedClasses.map ClassName.descriptor ++
    d.mentionedMethods.flatMap MethodRef.descriptors ++
    (d.instructions.filterMap Instruction.type?).map ValueType.descriptor

/-- The string literals, the names of methods and the descriptors. -/
def mentionedStrings (d : DexFile) : List String :=
  d.instructions.filterMap Instruction.text? ++
    d.mentionedMethods.map MethodRef.name ++ d.mentionedDescriptors

end DexFile

end DexWeave
