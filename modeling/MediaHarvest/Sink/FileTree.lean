import MediaHarvest.Text.Bytes
import MediaHarvest.SortedMap

/-!
# A tree of files

Folders and files below a root.  A path is a list of names, in which `.` stays where it is and `..`
goes one folder up.  Every step of a path but the last has to lead into a folder, and a name has at
most 255 bytes.
-/

namespace MediaHarvest

/-- Why a file or folder cannot be had. -/
inductive FileFault where
  /-- A folder on the way is missing. -/
  | notFound
  /-- There is a file in place of a folder. -/
  | exists
  | notFolder
  /-- There is a folder in place of a file. -/
  | isFolder
  | nameTooLong
  /-- A name holds the character zero. -/
  | zeroCharacter
deriving DecidableEq, Repr

/-- The wording of a fault. -/
def FileFault.message : FileFault → String
  | .notFound => "No such file or directory (os error 2)"
  | .exists => "File exists (os error 17)"
  | .notFolder => "Not a directory (os error 20)"
  | .isFolder => "Is a directory (os error 21)"
  | .nameTooLong => "File name too long (os error 36)"
  | .zeroCharacter => "file name contained an unexpected NUL byte"

/-- What stands at a path. -/
inductive FileEntry where
  | folder
  | file (contents : Bytes)
deriving DecidableEq, Repr

/-- The names on the way to an entry, the innermost first. -/
abbrev FilePath := List String

/-- Folders and files by their paths.  The root is always a folder. -/
structure FileTree where
  entries : List (FilePath × FileEntry)
deriving DecidableEq, Repr

namespace FileTree

/-- The tree of the root alone. -/
def empty : FileTree := ⟨[]⟩

instance : Inhabited FileTree := ⟨empty⟩

/-- What stands at a path. -/
def entry? (tree : FileTree) (path : FilePath) : Option FileEntry :=
  if path = [] then some .folder else tree.entries.lookup path

/-- The tree with an entry at a path. -/
def put (tree : FileTree) (path : FilePath) (entry : FileEntry) : FileTree :=
  ⟨(path, entry) :: tree.entries.filter fun other => other.1 ≠ path⟩

/-- The contents of the file at a path. -/
def read? (tree : FileTree) (path : FilePath) : Option Bytes :=
  match tree.entry? path with
  | some (.file contents) => some contents
  | _ => none

/-- Changes the contents of the file at a path, if it is there. -/
def change (tree : FileTree) (path : FilePath) (edit : Bytes → Bytes) : FileTree :=
  match tree.read? path with
  | some contents => tree.put path (.file (edit contents))
  | none => tree

/-- The tree without a folder and everything in it. -/
def removeFolder (tree : FileTree) (path : FilePath) : FileTree :=
  ⟨tree.entries.filter fun other => !path.isSuffixOf other.1⟩

/-- Whether a folder stands at a path. -/
def isFolder (tree : FileTree) (path : FilePath) : Bool := tree.entry? path == some .folder

/-! ## Walking -/

/-- The number of bytes that a name may have. -/
def maxNameLength : Nat := 255

/-- Whether a name has more bytes than it may. -/
def isTooLong (name : String) : Bool := maxNameLength < name.utf8ByteSize

/-- Enters the folder with a name. -/
def enter (tree : FileTree) (path : FilePath) (name : String) : Except FileFault FilePath :=
  if name = "." then .ok path
  else if name = ".." then .ok (path.drop 1)
  else if isTooLong name then .error .nameTooLong
  else
    match tree.entry? (name :: path) with
    | some .folder => .ok (name :: path)
    | some (.file _) => .error .notFolder
    | none => .error .notFound

/-- Enters the folders with the given names one after another. -/
def walk (tree : FileTree) (names : List String) : Except FileFault FilePath :=
  names.foldlM tree.enter []

/-- Makes a folder in the folder at a path; tells if something stands there already. -/
def makeFolder (tree : FileTree) (path : FilePath) (name : String) : Except FileFault FileTree :=
  if name = "." ∨ name = ".." then .error .exists
  else if isTooLong name then .error .nameTooLong
  else
    match tree.entry? (name :: path) with
    | some _ => .error .exists
    | none => .ok (tree.put (name :: path) .folder)

/-- Makes the last of the folders with the given names, the innermost name first. -/
def makeLast (tree : FileTree) : List String → Except FileFault FileTree
  | [] => .ok tree
  | name :: outer => do tree.makeFolder (← tree.walk outer.reverse) name

/-- Whether the given names, the innermost first, lead to a folder. -/
def leadsToFolder (tree : FileTree) (names : List String) : Bool :=
  (tree.walk names.reverse).isOk

/-- Makes the folders with the given names, the innermost first, where they are missing. -/
def makeFolders : List String → FileTree → Except FileFault FileTree
  | [], tree => .ok tree
  | name :: outer, tree =>
      match tree.makeLast (name :: outer) with
      | .ok tree => .ok tree
      | .error .notFound => do
          let tree ← makeFolders outer tree
          match tree.makeLast (name :: outer) with
          | .ok tree => return tree
          | .error fault =>
              if tree.leadsToFolder (name :: outer) then return tree else throw fault
      | .error fault => if tree.leadsToFolder (name :: outer) then .ok tree else .error fault

/-! ## Paths as texts -/

/-- The names of a path, from the outermost on. -/
def names (path : String) : List String :=
  ((path.toList.splitOn '/').map String.ofList).filter fun name => name ≠ "" ∧ name ≠ "."

/-- Whether a path ends so that it can only name a folder. -/
def endsInFolder (path : String) : Bool :=
  path.endsWith "/" || path == "." || path.endsWith "/."

/-- Makes the folders on the way to a path. -/
def makeWay (tree : FileTree) (path : String) : Except FileFault FileTree :=
  let way := (names path).reverse.drop 1
  if way.any (·.contains '\x00') then .error .zeroCharacter else makeFolders way tree

/-- Makes an empty file at a path, in place of the file that may stand there. -/
def create (tree : FileTree) (path : String) : Except FileFault (FileTree × FilePath) :=
  if path.contains '\x00' then .error .zeroCharacter
  else
    match (names path).reverse with
    | [] => .error .isFolder
    | name :: outer => do
        let folder ← tree.walk outer.reverse
        if endsInFolder path ∨ name = ".." then
          if path.endsWith "/." ∨ name = ".." then
            let _ ← tree.enter folder name
          throw .isFolder
        else if isTooLong name then throw .nameTooLong
        else
          match tree.entry? (name :: folder) with
          | some .folder => throw .isFolder
          | _ => return (tree.put (name :: folder) (.file []), name :: folder)

/-- A path relative to a folder; one that starts at the root stays as it is. -/
def join (folder path : String) : String :=
  if path.startsWith "/" ∨ folder = "" then path
  else if folder.endsWith "/" then folder ++ path
  else folder ++ "/" ++ path

end FileTree

end MediaHarvest
