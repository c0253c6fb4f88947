import ScriptLang.Diagnostic.Basic
import ScriptLang.Syntax.Tree
import ScriptLang.Token.Basic

/-!
# Reading a list of tokens

A parser takes tokens off the front of what is ahead, or ends with a diagnostic. It looks at the next
token, in one place at the one after it, and never back.

## Main definitions

* `Cursor`: the tokens ahead, and the places to report
* `Parser`: a reader of tokens
* `Parser.many`, `Parser.commaList`: repetition, in a body and between parentheses
-/

namespace ScriptLang

/-- Where a reader of tokens stands. -/
structure Cursor where
  /-- The tokens not read yet. -/
  ahead : List Token
  /-- Where the end of the text is reported. -/
  finish : Span
  /-- Where the token read last stands. -/
  previous : Span := Span.point Position.start

namespace Cursor

/-- Where the next token stands, or the end of the text. -/
def span (c : Cursor) : Span :=
  match c.ahead with
  | token :: _ => token.span
  | [] => c.finish

/-- How the next token is shown in reports. -/
def found (c : Cursor) : String :=
  match c.ahead with
  | token :: _ => token.lexeme.text
  | [] => endOfText

/-- The next token. -/
def lexeme? (c : Cursor) : Option Lexeme := c.ahead.head?.map Token.lexeme

/-- Past the next token. -/
def next (c : Cursor) : Cursor :=
  match c.ahead with
  | token :: rest => { c with ahead := rest, previous := token.span }
  | [] => c

/-- Whether the text ends here. -/
def atEnd (c : Cursor) : Bool := c.ahead.isEmpty

/-- Whether the next token is a given sign. -/
def sees (c : Cursor) (s : Sign) : Bool :=
  match c.ahead with
  | ⟨.sign s', _⟩ :: _ => s' = s
  | _ => false

/-- Whether the next token is a given reserved word. -/
def seesWord (c : Cursor) (k : Keyword) : Bool :=
  match c.ahead with
  | ⟨.keyword k', _⟩ :: _ => k' = k
  | _ => false

end Cursor

/-- A reader of tokens. -/
abbrev Parser (α : Type) := StateT Cursor (Except Diagnostic) α

namespace Parser

variable {α : Type}

/-- The next token. -/
def peek : Parser (Option Lexeme) := fun c => .ok (c.lexeme?, c)

/-- Where the next token stands. -/
def here : Parser Span := fun c => .ok (c.span, c)

/-- Where the token read last stands. -/
def behind : Parser Span := fun c => .ok (c.previous, c)

/-- Read the next token, whatever it is. -/
def take : Parser Span := fun c => .ok (c.span, c.next)

/-- End with a fault at a place. -/
def failAt (fault : Fault) (span : Span) : Parser α := fun _ => .error (fault.at span)

/-- End because something else is expected than the next token. -/
def unexpected (expected : String) : Parser α :=
  fun c => .error ((Fault.unexpected expected c.found).at c.span)

/-- Whether the next token is a given sign. -/
def sees (s : Sign) : Parser Bool := fun c => .ok (c.sees s, c)

/-- Read a sign if it is next. -/
def eat (s : Sign) : Parser Bool := fun c => if c.sees s then .ok (true, c.next) else .ok (false, c)

/-- Read a reserved word if it is next. -/
def eatWord (k : Keyword) : Parser Bool :=
  fun c => if c.seesWord k then .ok (true, c.next) else .ok (false, c)

/-- Read a sign that must be next. -/
def expect (s : Sign) : Parser Span :=
  fun c => if c.sees s then .ok (c.span, c.next) else unexpected ("'" ++ s.text ++ "'") c

/-- Read a name. -/
def identifier : Parser Ident := fun c =>
  match c.ahead with
  | ⟨.name name, span⟩ :: _ => .ok (⟨name, span⟩, c.next)
  | _ => unexpected "identifier" c

/-- Read a string literal that names a module. -/
def modulePath : Parser ModulePath := fun c =>
  match c.ahead with
  | ⟨.string path, span⟩ :: _ => .ok (⟨path, span⟩, c.next)
  | _ => unexpected "string literal" c

/-- Read the name of a parameter: a name, or the word for the receiver. -/
def parameterName : Parser Ident := fun c =>
  if c.seesWord .selfWord then .ok (⟨selfName, c.span⟩, c.next) else identifier c

/-- Read items as long as `more` holds of what is ahead, at most `count` of them. -/
def manyUpTo (more : Cursor → Bool) (item : Parser α) : Nat → Parser (List α)
  | 0 => fun c => if more c then unexpected endOfText c else .ok ([], c)
  | count + 1 => fun c =>
    if more c then
      (do
        let first ← item
        let rest ← manyUpTo more item count
        return first :: rest : Parser (List α)) c
    else .ok ([], c)

/-- Read items as long as `more` holds of what is ahead. Every item takes a token at least, so there
are no more of them than tokens. -/
def many (more : Cursor → Bool) (item : Parser α) : Parser (List α) :=
  fun c => manyUpTo more item (c.ahead.length + 1) c

/-- Read items with commas between them, up to a closing parenthesis or a missing comma; `earlier`
holds the items read so far, in order. -/
def commaListUpTo (item : List α → Parser α) : Nat → List α → Parser (List α)
  | 0, _ => unexpected endOfText
  | count + 1, earlier => do
    if ← sees .rightParen then
      return earlier
    let next ← item earlier
    if ← eat .comma then
      commaListUpTo item count (earlier ++ [next])
    else
      return earlier ++ [next]

/-- Read items with commas between them up to a closing parenthesis, which stays ahead. A comma may
follow the last item. An item sees the ones before it. -/
def commaList (item : List α → Parser α) : Parser (List α) :=
  fun c => commaListUpTo item (c.ahead.length + 1) [] c

end Parser

end ScriptLang
