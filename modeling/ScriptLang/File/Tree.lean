import ScriptLang.File.Path
import ScriptLang.Table

/-!
# File trees

The files that a run can see, as they are when it starts: a tree of directories and files, and the
working directory, from which relative paths are followed.

## Main definitions

* `FileNode`: a file with its bytes, or a directory
* `FileTree`: a tree and the working directory in it
* `FileTree.locate`: where a path leads
* `FileTree.read`, `FileTree.isFile`: the text of a file, and whether there is one
-/

namespace ScriptLang

/-- A file with its bytes, or a directory with the nodes in it by name. -/
inductive FileNode where
  | file (bytes : ByteArray)
  | directory (entries : List (String × FileNode))

namespace FileNode

instance : Inhabited FileNode := ⟨directory []⟩

/-- The nodes in a directory by name; there are none in a file. -/
def entries : FileNode → List (String × FileNode)
  | file _ => []
  | directory entries => entries

/-- Whether a node is a directory. -/
def isDirectory : FileNode → Bool
  | file _ => false
  | directory _ => true

/-- The node under a list of names. -/
def get? (node : FileNode) : List String → Option FileNode
  | [] => some node
  | name :: names =>
    match findEntry name node.entries with
    | some child => child.get? names
    | none => none

/-- Put a node under a list of names, in new directories where there are none. -/
def put (node : FileNode) (new : FileNode) : List String → FileNode
  | [] => new
  | name :: names =>
    let child := (findEntry name node.entries).getD default
    directory (insertEntry name (child.put new names) node.entries)

end FileNode

/-- Why a file cannot be read. -/
inductive FileError where
  | notFound
  | notDirectory
  | isDirectory
  | nameTooLong
  | nulInName
  | notText
  deriving DecidableEq, Repr, Inhabited

/-- How the reason is spoken of. -/
def FileError.text : FileError → String
  | notFound => "No such file or directory (os error 2)"
  | notDirectory => "Not a directory (os error 20)"
  | isDirectory => "Is a directory (os error 21)"
  | nameTooLong => "File name too long (os error 36)"
  | nulInName => "file name contained an unexpected NUL byte"
  | notText => "stream did not contain valid UTF-8"

/-- How many bytes a name may have. -/
def longestName : Nat := 255

/-- How many bytes a path may have. -/
def longestPath : Nat := 4095

/-- A tree of files and the working directory in it. -/
structure FileTree where
  /-- What the full path of a file begins with. -/
  top : Path := "/"
  /-- The names from the top to the working directory. -/
  workingDirectory : List String := []
  root : FileNode := default

namespace FileTree

/-- Where a step leads from a directory. The directory around the topmost one is itself. -/
def step (tree : FileTree) (place : List String) (name : String) : Except FileError (List String) :=
  match tree.root.get? place with
  | none => .error .notFound
  | some node =>
    if !node.isDirectory then .error .notDirectory
    else if name = "" ∨ name = "." then .ok place
    else if name = ".." then .ok place.dropLast
    else if longestName < name.utf8ByteSize then .error .nameTooLong
    else if (findEntry name node.entries).isSome then .ok (place ++ [name])
    else .error .notFound

/-- Where steps lead, one after the other. -/
def walk (tree : FileTree) (place : List String) : List String → Except FileError (List String)
  | [] => .ok place
  | name :: names =>
    match tree.step place name with
    | .ok place => tree.walk place names
    | .error why => .error why

/-- The names from the top to what a path leads to. No path has a zero character in it, so that is
found out before the path is followed. -/
def locate (tree : FileTree) (p : Path) : Except FileError (List String) :=
  if p.toList.contains '\x00' then .error .nulInName
  else if p.isEmpty then .error .notFound
  else if longestPath < p.utf8ByteSize then .error .nameTooLong
  else tree.walk (if p.isAbsolute then [] else tree.workingDirectory) p.steps

/-- The bytes of the file that a path leads to. -/
def readBytes (tree : FileTree) (p : Path) : Except FileError ByteArray :=
  match tree.locate p with
  | .error why => .error why
  | .ok place =>
    match tree.root.get? place with
    | some (.file bytes) => .ok bytes
    | some (.directory _) => .error .isDirectory
    | none => .error .notFound

/-- The text of the file that a path leads to. -/
def read (tree : FileTree) (p : Path) : Except FileError String :=
  match tree.readBytes p with
  | .error why => .error why
  | .ok bytes =>
    match String.fromUTF8? bytes with
    | some text => .ok text
    | none => .error .notText

/-- Whether a path leads to a file. -/
def isFile (tree : FileTree) (p : Path) : Bool :=
  match tree.readBytes p with
  | .ok _ => true
  | .error _ => false

/-- The full path of what a path leads to, which is the same for all paths that lead there. -/
def fullPath (tree : FileTree) (p : Path) : Path :=
  match tree.locate p with
  | .ok place => tree.top ++ String.intercalate "/" place
  | .error _ => p

/-- A tree with one more file, at a path below the working directory. -/
def withFile (tree : FileTree) (p : Path) (bytes : ByteArray) : FileTree :=
  { tree with root := tree.root.put (.file bytes) (tree.workingDirectory ++ p.steps) }

end FileTree

end ScriptLang
