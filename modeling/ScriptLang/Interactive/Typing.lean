import ScriptLang.Text.Cluster

/-!
# Typing with an erase key

What stands in a line after its keys have been pressed. The erase key takes back what was typed last:
not a character but a grapheme cluster, since that is what a reader sees as one. This is the part of a
line editor; the session itself is given the lines as they stand in the end.

## Main definitions

* `Typing`: what has been typed
* `typed`: what stands in a line in the end
* `typedLines`: the lines of a text, once they have been typed
-/

namespace ScriptLang

/-- The key that takes back what was typed before it. -/
def eraseKey : Char := '\x08'

/-- The characters of a list that are left when bytes are taken off its front. A character of which
only a part would be taken is left. -/
def dropBytes : Nat → List Char → List Char
  | _, [] => []
  | n, c :: cs => if c.utf8Size ≤ n then dropBytes (n - c.utf8Size) cs else c :: cs

/-- What has been typed. -/
structure Typing where
  /-- The characters that stand there, the last one first. -/
  chars : List Char := []
  /-- How many bytes each cluster gives back when it is erased, the last one first. -/
  sizes : List Nat := []
  deriving DecidableEq, Repr

namespace Typing

/-- The number of bytes of a cluster, as far as one byte can hold it. -/
def keptSize (cluster : List Char) : Nat := (String.ofList cluster).utf8ByteSize % 256

/-- Type a cluster. The erase key, which is always a cluster of its own, takes back the last one that
was typed; if nothing is left it does nothing. -/
def press (t : Typing) (cluster : List Char) : Typing :=
  if cluster = [eraseKey] then
    match t.sizes with
    | [] => t
    | n :: sizes => ⟨dropBytes n t.chars, sizes⟩
  else ⟨cluster.reverse ++ t.chars, keptSize cluster :: t.sizes⟩

end Typing

/-- What stands in a line once all its characters have been typed. -/
def typed (line : List Char) : List Char :=
  ((Text.clusters line).foldl Typing.press {}).chars.reverse

/-- The lines of a text, each with the newline that ends it. -/
def linesWithEnds (text : List Char) : List (List Char) :=
  text.foldr (fun c lines =>
    match c, lines with
    | '\n', lines => ['\n'] :: lines
    | c, [] => [[c]]
    | c, line :: lines => (c :: line) :: lines) []

/-- A line without its end: a newline and a carriage return before it. -/
def withoutEnd (line : List Char) : List Char :=
  match line.reverse with
  | '\n' :: '\r' :: rest => rest.reverse
  | '\n' :: rest => rest.reverse
  | _ => line

/-- What stands in a line that has been ended, once it has been typed. -/
def typedLine (line : List Char) : String := String.ofList (typed (withoutEnd line))

/-- The lines of a text, as they stand once they have been typed. -/
def typedLines (text : String) : List String := (linesWithEnds text.toList).map typedLine

end ScriptLang
