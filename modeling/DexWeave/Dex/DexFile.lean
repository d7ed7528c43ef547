/-
  DexWeave/Dex/DexFile.lean --- classes and methods in editable form.

  WHAT THIS FILE IS FOR.  A dex file is a list of class definitions; each declares
  methods, some of them with a body.  A definition is found by the name of its class
  and a method by its name and prototype.  Neither has to be unique: the first one
  found counts.
-/
import DexWeave.Code.Body
import DexWeave.Dex.AccessFlags

set_option autoImplicit false

namespace DexWeave

/-- A method declared by a class. -/
structure Method where
  /-- The identity of the method. -/
  ref : MethodRef
  /-- The access flags. -/
  flags : AccessFlags
  /-- The body, absent for abstract and native methods. -/
  body : Option Body
  deriving DecidableEq, Repr, Inhabited

/-- Whether the method has no receiver. -/
def Method.isStatic (m : Method) : Bool := m.flags.isStatic

/-- Whether the method has the name and prototype of a reference, whatever its owner. -/
def Method.isNamedBy (m : Method) (target : MethodRef) : Bool :=
  m.ref.answersTo target.name target.prototype

/-- The definition of a class. -/
structure ClassDef where
  /-- The class that is defined. -/
  name : ClassName
  /-- The access flags. -/
  flags : AccessFlags
  /-- The super class, if there is one. -/
  super : Option ClassName
  /-- The declared methods. -/
  methods : List Method
  deriving DecidableEq, Repr, Inhabited

/-- The first declared method with the name and prototype of a reference. -/
def ClassDef.method? (c : ClassDef) (target : MethodRef) : Option Method :=
  c.methods.find? (·.isNamedBy target)

/-- The editable form of a container. -/
structure DexFile where
  /-- The defined classes. -/
  classes : List ClassDef
  deriving DecidableEq, Repr, Inhabited

/-- Changes the first element that passes a test. -/
def modifyFirst {α : Type} (test : α → Bool) (change : α → α) : List α → List α
  | [] => []
  | x :: xs => if test x then change x :: xs else x :: modifyFirst test change xs

namespace DexFile

/-- A dex file that defines nothing. -/
def empty : DexFile := ⟨[]⟩

/-- The first definition of a class. -/
def class? (d : DexFile) (name : ClassName) : Option ClassDef :=
  d.classes.find? (·.name = name)

/-- The method a reference names: the first one with its name and prototype in the first
definition of its owner. -/
def method? (d : DexFile) (target : MethodRef) : Option Method :=
  (d.class? target.owner).bind (·.method? target)

/-- Replaces the body of the method a reference names. -/
def setBody (d : DexFile) (target : MethodRef) (body : Body) : DexFile where
  classes := modifyFirst (·.name = target.owner)
    (fun c => { c with
      methods := modifyFirst (·.isNamedBy target) (fun m => { m with body := some body })
        c.methods })
    d.classes

end DexFile

end DexWeave
