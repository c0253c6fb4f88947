/-!
# Program output

The lines that a program prints. They are written at once, or held back until somebody takes them.

## Main definitions

* `Output.emit`: print a line
* `Output.flush`: write the lines held back
* `Output.takeHeld`: take the lines held back instead of writing them
* `Output.write`: write a line that is not the program's own
* `Output.text`: what has been written
-/

namespace ScriptLang

/-- The lines printed so far. -/
structure Output where
  /-- Whether lines are written at once. -/
  echo : Bool
  /-- The lines written, in order. -/
  written : Array String := #[]
  /-- The lines held back, in order. -/
  held : Array String := #[]
  deriving Repr, Inhabited

namespace Output

/-- Print a line. -/
def emit (o : Output) (line : String) : Output :=
  if o.echo then { o with written := o.written.push line } else { o with held := o.held.push line }

/-- Write the lines held back. -/
def flush (o : Output) : Output := { o with written := o.written ++ o.held, held := #[] }

/-- Take the lines held back. -/
def takeHeld (o : Output) : Array String × Output := (o.held, { o with held := #[] })

/-- Write a line that is not the program's own. -/
def write (o : Output) (line : String) : Output := { o with written := o.written.push line }

/-- Lines as text, each with the newline that ends it. -/
def textOf (lines : Array String) : String := lines.foldl (fun text line => text ++ line ++ "\n") ""

/-- What has been written, as text. -/
def text (o : Output) : String := textOf o.written

end Output

end ScriptLang
