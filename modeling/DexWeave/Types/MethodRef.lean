/-
  DexWeave/Types/MethodRef.lean --- methods by owner, name and prototype.

  WHAT THIS FILE IS FOR.  Methods are never referred to by position: a reference
  gives the class that declares the method, its name and its prototype, and is
  ordered by them in this order.
-/
import DexWeave.Types.Prototype

set_option autoImplicit false

namespace DexWeave

/-- A reference to a method. -/
structure MethodRef where
  /-- The class that declares the method. -/
  owner : ClassName
  /-- The name of the method. -/
  name : String
  /-- The parameter and result types. -/
  prototype : Prototype
  deriving DecidableEq, Repr, Inhabited, Hashable, Ord

namespace MethodRef

/-- Whether the reference has the given name and prototype, whatever its owner. -/
def answersTo (m : MethodRef) (name : String) (prototype : Prototype) : Bool :=
  m.name = name ∧ m.prototype = prototype

/-- The text shown to people. -/
def display (m : MethodRef) : String :=
  m.owner.text ++ "." ++ m.name ++ m.prototype.descriptor

instance : ToString MethodRef := ⟨display⟩

end MethodRef

end DexWeave
