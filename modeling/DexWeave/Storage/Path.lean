/-
  DexWeave/Storage/Path.lean --- paths as text.

  WHAT THIS FILE IS FOR.  A path is a text whose parts are parted by slashes, and
  absolute if it starts with one.  Joining an absolute path to another replaces it;
  otherwise a slash is put between the two where one is missing.  Nothing is
  normalised.
-/
set_option autoImplicit false

namespace DexWeave

/-- A path. -/
structure Path where
  /-- The path as text. -/
  text : String
  deriving DecidableEq, Repr, Inhabited

namespace Path

/-- Whether the path starts at the root. -/
def isAbsolute (p : Path) : Bool := p.text.toList.head? = some '/'

/-- Whether a part can follow the path without a slash between them. -/
def takesPart (p : Path) : Bool := p.text.toList.getLast?.all (· = '/')

/-- The path of `part` as seen from `p`. -/
def join (p part : Path) : Path :=
  if part.isAbsolute then part
  else if p.takesPart then ⟨p.text ++ part.text⟩
  else ⟨p.text ++ "/" ++ part.text⟩

/-- Cuts a text at every slash. -/
def cut : List Char → List (List Char)
  | [] => [[]]
  | '/' :: cs => [] :: cut cs
  | c :: cs =>
    match cut cs with
    | [] => [[c]]
    | first :: others => (c :: first) :: others

/-- The names on the way to the path; empty names and single dots lead nowhere. -/
def components (p : Path) : List String :=
  ((cut p.text.toList).map String.ofList).filter fun name => name ≠ "" ∧ name ≠ "."

end Path

end DexWeave
