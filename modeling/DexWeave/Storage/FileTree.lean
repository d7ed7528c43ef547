/-
  DexWeave/Storage/FileTree.lean --- files and directories.

  WHAT THIS FILE IS FOR.  A file tree maps places, lists of names from the root, to
  files and directories.  The operations are those a cache needs, each of which either
  fails and changes nothing or succeeds: making a directory with all that lead to it,
  reading and writing a whole file, renaming a file over another, and listing.

  WHAT IS ASSUMED OF NAMES.  A name has at most 255 bytes and holds no NUL.  Two dots
  lead back to the directory above and are the name of nothing in the tree.
-/
import DexWeave.Collection.Table
import DexWeave.Storage.Path
import DexWeave.Text.Utf8

set_option autoImplicit false

namespace DexWeave

/-- A place in a file tree: the names from the root to it. -/
abbrev Place : Type := List String

/-- What a place holds. -/
inductive Node where
  /-- A file with its content. -/
  | file (content : Bytes)
  /-- A directory. -/
  | directory
  deriving DecidableEq, Repr, Inhabited

/-- Why an operation on a file tree fails. -/
inductive FileError where
  /-- Nothing is there. -/
  | notFound
  /-- A file stands where a directory is needed. -/
  | notADirectory
  /-- A directory stands where a file is needed. -/
  | isADirectory
  /-- A name that no file can have. -/
  | invalidName
  deriving DecidableEq, Repr, Inhabited

/-- Files and directories by place; the root is a directory without an entry. -/
structure FileTree where
  /-- The entries, at most one for each place. -/
  entries : Table Place Node
  deriving DecidableEq, Repr, Inhabited

namespace FileTree

/-- The tree with nothing in it. -/
def empty : FileTree := ⟨[]⟩

/-- What a place holds. -/
def node? (t : FileTree) (place : Place) : Option Node :=
  if place = [] then some .directory else t.entries.lookup place

/-- Puts a node at a place. -/
def put (t : FileTree) (place : Place) (node : Node) : FileTree := ⟨t.entries.put place node⟩

/-- Takes away a place with all below it. -/
def remove (t : FileTree) (place : Place) : FileTree :=
  ⟨t.entries.filter fun e => !place.isPrefixOf e.1⟩

theorem node?_put {t : FileTree} {place other : Place} {node : Node} (h : other ≠ []) :
    (t.put place node).node? other = if other = place then some node else t.node? other := by
  simp [node?, put, h, Table.lookup_put]

theorem node?_remove {t : FileTree} {place other : Place} (h : other ≠ []) :
    (t.remove place).node? other =
      if place.isPrefixOf other then none else t.node? other := by
  have hf := Table.lookup_filter t.entries (fun e => !place.isPrefixOf e) other
  simp only [node?, remove, if_neg h]
  rw [hf]
  cases place.isPrefixOf other <;> rfl

/-- Whether a file can have the name. -/
def validName (name : String) : Bool :=
  (Utf8.encode name).length ≤ 255 && !name.toList.contains '\x00' && name ≠ ".."

/-- The directories on the way to a place, the root first and the place itself left out. -/
def ancestors (place : Place) : List Place :=
  (List.range place.length).map place.take

/-- Succeeds if the place is a directory and can be entered. -/
def enter (t : FileTree) (place : Place) : Except FileError Unit :=
  match t.node? place with
  | some .directory => .ok ()
  | some (.file _) => .error .notADirectory
  | none => .error .notFound

/-- Walks to the directory that holds a place. -/
def walk (t : FileTree) (place : Place) : Except FileError Unit :=
  if place.all validName then (ancestors place).forM t.enter else .error .invalidName

/-- The content of a file. -/
def read (t : FileTree) (place : Place) : Except FileError Bytes := do
  t.walk place
  match t.node? place with
  | some (.file content) => .ok content
  | some .directory => .error .isADirectory
  | none => .error .notFound

/-- Writes a whole file, in a directory that is there. -/
def write (t : FileTree) (place : Place) (content : Bytes) : Except FileError FileTree := do
  t.walk place
  match t.node? place with
  | some .directory => .error .isADirectory
  | _ => .ok (t.put place (.file content))

/-- Moves a file to a place where there is no directory; a file there is replaced. -/
def rename (t : FileTree) (source target : Place) : Except FileError FileTree := do
  let content ← t.read source
  t.walk target
  match t.node? target with
  | some .directory => .error .isADirectory
  | _ => .ok ((t.remove source).put target (.file content))

/-- Makes a directory in one that is there, unless it is there already. -/
def createDirectory (t : FileTree) (place : Place) : Except FileError FileTree :=
  if place.all validName then
    match t.node? place with
    | some .directory => .ok t
    | some (.file _) => .error .notADirectory
    | none => .ok (t.put place .directory)
  else .error .invalidName

/-- Makes a directory and all that lead to it. -/
def createDirectories (t : FileTree) (place : Place) : Except FileError FileTree :=
  (ancestors place ++ [place]).foldlM createDirectory t

/-- Whether the place is a directory with nothing in it. -/
def isEmptyDirectory (t : FileTree) (place : Place) : Bool :=
  t.node? place = some .directory &&
    t.entries.all fun e => !(place.isPrefixOf e.1 && place ≠ e.1)

/-- The files below a place with their content, and the empty directories with a slash behind
their name; ordered by name, all names being relative to the place. -/
def listing (t : FileTree) (place : Place) : List (String × Option Bytes) :=
  let below := t.entries.filter fun e => place.isPrefixOf e.1 && place ≠ e.1
  let shown := below.filterMap fun e =>
    let name := "/".intercalate (e.1.drop place.length)
    match e.2 with
    | .file content => some (name, some content)
    | .directory => if t.isEmptyDirectory e.1 then some (name ++ "/", none) else none
  shown.mergeSort fun a b => a.1 ≤ b.1

end FileTree

end DexWeave
