import ScriptLang.File.Tree
import ScriptLang.Module.Resolver

/-!
# Modules in files

Modules are searched in a list of directories, in order. In each of them a module is a file with its
name and the ending of source files, or the main or the index file of the directory with its name.

## Main definitions

* `candidates`: the files in which a module may be
* `FileTree.resolve`: the search in directories
* `FileTree.resolver`: the same search with reports of its failures
-/

namespace ScriptLang

/-- The files in which a module may be, as seen from a directory. A name with the ending of source
files means that file. -/
def candidates (name : String) : List Path :=
  if sourceSuffix.toList.isSuffixOf name.toList then [name]
  else
    [name ++ sourceSuffix, Path.join name ("main" ++ sourceSuffix),
      Path.join name ("index" ++ sourceSuffix)]

/-- The search in directories. The first file that exists is taken; its full path is the key, so that
all names of one file stand for one module. -/
def FileTree.resolve (tree : FileTree) (roots : List Path) (name : String) :
    Except Fault ResolvedModule :=
  let paths := roots.flatMap fun root => (candidates name).map (Path.join root)
  match paths.find? tree.isFile with
  | none => .error (.moduleNotFound name (.searched roots))
  | some path =>
    match tree.read path with
    | .ok text => .ok ⟨tree.fullPath path, text⟩
    | .error _ => .error (.moduleNotFound name (.notText path))

/-- The search in directories, as a session asks for it. -/
def FileTree.resolver (tree : FileTree) (roots : List Path) : Resolver := fun name =>
  (tree.resolve roots name).mapError Fault.report

end ScriptLang
