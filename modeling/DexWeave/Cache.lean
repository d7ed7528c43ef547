/-
  DexWeave/Cache.lean --- transformed classes kept between attachments.

  WHAT THIS FILE IS FOR.  A cache holds one file of transformed bytes for each class, in
  one flat directory: the slashes of a class name become dots.  An entry is written
  under a temporary name and then renamed, so that a reader finds an old entry or the
  new one whole.

  WHERE CACHES ARE.  Entries are good only for the payload and the transforms that
  produced them, so both are part of the path of the directory.
-/
import DexWeave.Payload
import DexWeave.Storage.FileTree
import DexWeave.Types.ClassName

set_option autoImplicit false

namespace DexWeave

/-- Where transformed classes are read from and written to, on some state. -/
structure ClassCache (φ : Type) where
  /-- The entry of a class; nothing on a miss. -/
  read : φ → ClassName → Except FileError (Option Bytes)
  /-- Replaces the entry of a class. -/
  write : φ → ClassName → Bytes → Except FileError Unit × φ

namespace Cache

/-- The directory of the cache for a payload and a list of transforms. -/
def rootFor (base : Path) (payloadHash fingerprint : String) : Path :=
  (base.join ⟨payloadHash⟩).join ⟨fingerprint⟩

/-- The name of the file that holds the entry of a class. -/
def entryName (c : ClassName) : String :=
  String.ofList (c.text.toList.map fun x => if x = '/' then '.' else x) ++ ".dex"

/-- The path of the file that holds the entry of a class. -/
def entryPath (root : Path) (c : ClassName) : Path := root.join ⟨entryName c⟩

/-- A file name without its last extension; a dot in front of the name starts none. -/
def stem (name : String) : String :=
  let cs := name.toList
  let front := (cs.reverse.dropWhile (· ≠ '.')).drop 1
  if front = [] then name else String.ofList front.reverse

/-- The name an entry is written under before it is renamed.  The new extension goes behind the
dot of the old one; where only that dot and another one stand before it, they lead to the
directory above, which takes no extension and is no file, so such an entry is never written. -/
def temporaryName (name : String) : String :=
  if stem name = "." then ".." else stem name ++ ".dex.tmp"

/-- The path an entry is written to before it is renamed. -/
def temporaryPath (root : Path) (c : ClassName) : Path :=
  root.join ⟨temporaryName (entryName c)⟩

/-- Reads the entry of a class. -/
def readEntry (root : Path) (t : FileTree) (c : ClassName) : Except FileError (Option Bytes) :=
  match t.read (entryPath root c).components with
  | .ok bs => .ok (some bs)
  | .error .notFound => .ok none
  | .error e => .error e

/-- Writes the entry of a class; when the renaming fails, the temporary file stays. -/
def writeEntry (root : Path) (t : FileTree) (c : ClassName) (bs : Bytes) :
    Except FileError Unit × FileTree :=
  match t.write (temporaryPath root c).components bs with
  | .error e => (.error e, t)
  | .ok t =>
    match t.rename (temporaryPath root c).components (entryPath root c).components with
    | .error e => (.error e, t)
    | .ok t => (.ok (), t)

/-- The cache in a directory. -/
def inDirectory (root : Path) : ClassCache FileTree where
  read := readEntry root
  write := writeEntry root

end Cache

end DexWeave
