import ScriptLang.CommandLine

/-!
# The program

Looks at the files that a command can need, as they are when it starts, and does what the command
says. An interactive session answers every input before it reads the next line.

## Main definitions

* `seen`: a tree with what a path leads to
* `serve`: an interactive session
* `main`: the command
-/

namespace ScriptLang

/-- The source files and directories below a directory. Links are not followed. -/
partial def sourcesBelow (path : Path) : IO FileNode := do
  let mut node : FileNode := default
  for entry in ← (← IO.FS.realPath path).readDir do
    let name := entry.fileName
    try
      match (← entry.path.symlinkMetadata).type with
      | .dir => node := node.put (← sourcesBelow entry.path.toString) [name]
      | _ =>
        if sourceSuffix.toList.isSuffixOf name.toList then
          node := node.put (.file (← IO.FS.readBinFile entry.path)) [name]
    catch _ => pure ()
  return node

/-- The names from the top of the tree to a full path. -/
def placeOf (fullPath : Path) : List String := fullPath.steps.filter (· != "")

/-- A tree with the file that a path leads to, or the source files below the directory. -/
def seen (tree : FileTree) (path : Path) : IO FileTree := do
  try
    let real ← IO.FS.realPath path
    let node ← if ← real.isDir then sourcesBelow real.toString
      else pure (.file (← IO.FS.readBinFile real))
    return { tree with root := tree.root.put node (placeOf real.toString) }
  catch _ => return tree

/-- An interactive session on standard input, after lines that need more lines. -/
partial def serve (setting : Setting) (asJson : Bool) (loop : LineLoop) (pending : String) :
    IO Unit := do
  let line ← (← IO.getStdin).getLine
  if line.isEmpty then
    return
  match intake pending (typedLine line.toList) with
  | .finished => return
  | .skipped => serve setting asJson loop ""
  | .pending text => serve setting asJson loop text
  | .complete text =>
    let loop := loop.evaluate setting asJson text
    IO.print loop.output
    IO.eprint loop.errors
    (← IO.getStdout).flush
    serve setting asJson loop.taken ""

/-- End a command. -/
def leave (ended : Exit) : IO UInt32 := do
  IO.print ended.output
  IO.eprint ended.errors
  return ended.code.toUInt32

end ScriptLang

open ScriptLang in
/-- The command: run a script, or without one an interactive session. -/
def main (arguments : List String) : IO UInt32 := do
  match Arguments.ofList? arguments with
  | none => leave CommandLine.misuse
  | some a =>
    let place := placeOf (← IO.FS.realPath ".").toString
    let empty : FileTree := { workingDirectory := place, root := FileNode.put default default place }
    let settings ← (Config.fileName :: a.config.toList).foldlM seen empty
    match Config.load settings "." a.config with
    | .error why => leave (CommandLine.failure why)
    | .ok config =>
      let tree ← (config.moduleRoots ++ a.script.toList).foldlM seen empty
      match a.script with
      | some path => leave (CommandLine.runScript tree config a.json path)
      | none =>
        serve (config.setting tree) a.json (LineLoop.start config) ""
        return 0
