/-
  DexWeave/Dex/AccessFlags.lean --- the access flags of classes and methods.

  WHAT THIS FILE IS FOR.  Access flags are one word with a bit for each property.
  Bits without a meaning are kept where a definition is built by hand, and refused
  where it is read from a container.
-/
set_option autoImplicit false

namespace DexWeave

/-- A word of access flags. -/
structure AccessFlags where
  /-- The flag word. -/
  bits : UInt32
  deriving DecidableEq, Repr, Inhabited, Hashable

namespace AccessFlags

/-- The known flags by name, in ascending order of their bits. -/
def names : List (String × UInt32) :=
  [("PUBLIC", 0x1), ("PRIVATE", 0x2), ("PROTECTED", 0x4), ("STATIC", 0x8), ("FINAL", 0x10),
   ("SYNCHRONIZED", 0x20), ("BRIDGE", 0x40), ("VARARGS", 0x80), ("NATIVE", 0x100),
   ("INTERFACE", 0x200), ("ABSTRACT", 0x400), ("STRICT", 0x800), ("SYNTHETIC", 0x1000),
   ("ANNOTATION", 0x2000), ("ENUM", 0x4000), ("CONSTRUCTOR", 0x10000),
   ("DECLARED_SYNCHRONIZED", 0x20000)]

/-- Every bit with a meaning. -/
def known : UInt32 := (names.map Prod.snd).foldl (· ||| ·) 0

/-- The bit of methods without a receiver. -/
def static : UInt32 := 0x8

/-- Whether every bit of the word has a meaning. -/
def isKnown (f : AccessFlags) : Bool := f.bits &&& ~~~ known = 0

/-- The bits of the word that have a meaning. -/
def truncate (f : AccessFlags) : AccessFlags := ⟨f.bits &&& known⟩

/-- Whether the word says that there is no receiver. -/
def isStatic (f : AccessFlags) : Bool := f.bits &&& static = static

/-- The names of the flags that are set, in ascending order of their bits. -/
def setNames (f : AccessFlags) : List String :=
  (names.filter fun flag => f.bits &&& flag.2 = flag.2).map Prod.fst

end AccessFlags

end DexWeave
