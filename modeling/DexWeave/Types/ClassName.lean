/-
  DexWeave/Types/ClassName.lean --- classes by their binary name.

  WHAT THIS FILE IS FOR.  A class is known by its binary name, such as
  java/lang/Thread.  A name is any text: nothing checks it when it is made, and only
  its descriptor, the name between a leading L and a trailing semicolon, is ever
  stored.
-/
set_option autoImplicit false

namespace DexWeave

/-- A class, identified by its binary name. -/
structure ClassName where
  /-- The binary name, its packages parted by slashes. -/
  text : String
  deriving DecidableEq, Repr, Inhabited, Hashable, Ord

namespace ClassName

/-- The root of the class hierarchy. -/
def javaLangObject : ClassName := ⟨"java/lang/Object"⟩

/-- The descriptor of the class. -/
def descriptor (c : ClassName) : String := "L" ++ c.text ++ ";"

/-- The class whose descriptor is given: what stands between a leading L and a trailing
semicolon, which must not be empty. -/
def ofDescriptor? (descriptor : String) : Option ClassName :=
  match descriptor.toList with
  | 'L' :: body =>
    if body.getLast? = some ';' ∧ body.dropLast ≠ [] then some ⟨String.ofList body.dropLast⟩
    else none
  | _ => none

instance : ToString ClassName := ⟨ClassName.text⟩

end ClassName

end DexWeave
