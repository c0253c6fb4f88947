/-!
# Paths

A path is a text in which slashes separate names. It is kept as it was given, since reports show it
so; what it leads to is a matter of the tree it is followed in.

## Main definitions

* `Path`: a path as it was given
* `Path.join`: a path seen from the end of another
* `Path.steps`: the names in a path
-/

namespace ScriptLang

/-- A path as it was given. -/
abbrev Path := String

namespace Path

/-- Whether a path starts at the top of the tree instead of the working directory. -/
def isAbsolute (p : Path) : Bool := p.toList.head? = some '/'

/-- A path as seen from a directory. An absolute path is the same from everywhere. -/
def join (directory p : Path) : Path :=
  if p.isAbsolute || directory.isEmpty then p
  else if directory.toList.getLast? = some '/' then directory ++ p
  else directory ++ "/" ++ p

/-- The parts of a text between slashes; one more than there are slashes. -/
def split (text : List Char) : List (List Char) :=
  text.foldr (fun c parts => if c = '/' then [] :: parts else parts.modifyHead (c :: ·)) [[]]

/-- The names in a path. Slashes in a row have empty names between them. -/
def steps (p : Path) : List String := (split p.toList).map String.ofList

end Path

end ScriptLang
