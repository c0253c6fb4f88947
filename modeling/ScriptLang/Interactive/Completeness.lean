/-!
# Whether an input goes on

An interactive input may take several lines. It goes on while a string or a comment in delimiters is
open, or while more brackets have been opened than closed; brackets inside strings and comments do
not count. Brackets that close too much are left for the parser to report.

The count has no bound here. A counter of 32 bits shows the same in every text of fewer than 2³¹
characters, since each character changes it by one at most.

## Main definitions

* `isIncomplete`: whether more lines are needed
-/

namespace ScriptLang

/-- How a character changes the number of open brackets. -/
def bracketWeight (c : Char) : Int :=
  if c = '{' ∨ c = '(' then 1 else if c = '}' ∨ c = ')' then -1 else 0

mutual

/-- Whether a text goes on, given how many brackets are open before it. -/
def goesOn (depth : Int) : List Char → Bool
  | [] => 0 < depth
  | '"' :: rest => goesOnInString depth rest
  | '/' :: '/' :: rest => goesOnInLine depth rest
  | '/' :: '*' :: rest => goesOnInBlock depth rest
  | c :: rest => goesOn (depth + bracketWeight c) rest

/-- The same inside a string; a character after a backslash does not close it. -/
def goesOnInString (depth : Int) : List Char → Bool
  | [] => true
  | ['\\'] => true
  | '\\' :: _ :: rest => goesOnInString depth rest
  | '"' :: rest => goesOn depth rest
  | _ :: rest => goesOnInString depth rest

/-- The same inside a comment that ends with its line. -/
def goesOnInLine (depth : Int) : List Char → Bool
  | [] => 0 < depth
  | '\n' :: rest => goesOn depth rest
  | _ :: rest => goesOnInLine depth rest

/-- The same inside a comment in delimiters. -/
def goesOnInBlock (depth : Int) : List Char → Bool
  | [] => true
  | '*' :: '/' :: rest => goesOn depth rest
  | _ :: rest => goesOnInBlock depth rest

end

/-- Whether a text needs more lines before it can be run. -/
def isIncomplete (text : String) : Bool := goesOn 0 text.toList

end ScriptLang
