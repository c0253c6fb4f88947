import ScriptLang.Decimal.Text
import ScriptLang.Source.Span

/-!
# Tokens

The units that program text is made of: literals with the value they denote, names, reserved words,
and signs.

## Main definitions

* `Keyword`, `Sign`: the reserved words and the signs, with their spelling
* `Lexeme`: what a token is
* `Token`: a lexeme and where it stands
* `TokenStream`: the tokens of a text and where the text ends
-/

namespace ScriptLang

/-- The reserved words. -/
inductive Keyword where
  | bag
  | load
  | fx
  | clx
  | returnWord
  | ifWord
  | elseWord
  | trueWord
  | falseWord
  | nilWord
  | selfWord
  deriving DecidableEq, Repr, Inhabited

namespace Keyword

/-- Every reserved word. -/
def all : List Keyword :=
  [bag, load, fx, clx, returnWord, ifWord, elseWord, trueWord, falseWord, nilWord, selfWord]

/-- How a reserved word is spelled. -/
def text : Keyword → String
  | bag => "bag"
  | load => "load"
  | fx => "fx"
  | clx => "clx"
  | returnWord => "return"
  | ifWord => "if"
  | elseWord => "else"
  | trueWord => "true"
  | falseWord => "false"
  | nilWord => "nil"
  | selfWord => "self"

/-- The reserved word with a given spelling. -/
def ofText? (word : String) : Option Keyword := all.find? (·.text = word)

theorem ofText?_text (k : Keyword) : ofText? k.text = some k := by
  cases k <;> decide +kernel

end Keyword

/-- The signs: operators and punctuation. -/
inductive Sign where
  | plus
  | minus
  | star
  | slash
  | percent
  | assign
  | equal
  | notEqual
  | bang
  | less
  | greater
  | lessEqual
  | greaterEqual
  | andAnd
  | orOr
  | leftParen
  | rightParen
  | leftBrace
  | rightBrace
  | comma
  | dot
  | semicolon
  deriving DecidableEq, Repr, Inhabited

namespace Sign

/-- Every sign. A sign stands before the signs that begin it. -/
def all : List Sign :=
  [equal, assign, notEqual, bang, lessEqual, less, greaterEqual, greater, andAnd, orOr, plus, minus,
    star, slash, percent, leftParen, rightParen, leftBrace, rightBrace, comma, dot, semicolon]

/-- The characters of a sign. -/
def chars : Sign → List Char
  | plus => ['+']
  | minus => ['-']
  | star => ['*']
  | slash => ['/']
  | percent => ['%']
  | assign => ['=']
  | equal => ['=', '=']
  | notEqual => ['!', '=']
  | bang => ['!']
  | less => ['<']
  | greater => ['>']
  | lessEqual => ['<', '=']
  | greaterEqual => ['>', '=']
  | andAnd => ['&', '&']
  | orOr => ['|', '|']
  | leftParen => ['(']
  | rightParen => [')']
  | leftBrace => ['{']
  | rightBrace => ['}']
  | comma => [',']
  | dot => ['.']
  | semicolon => [';']

/-- How a sign is written. -/
def text (s : Sign) : String := String.ofList s.chars

/-- The longest sign at the front of a text, with the text after it. -/
def scan? (text : List Char) : Option (Sign × List Char) :=
  (all.find? (·.chars.isPrefixOf text)).map fun s => (s, text.drop s.chars.length)

theorem eq_append_of_scan? {text rest : List Char} {s : Sign} (h : scan? text = some (s, rest)) :
    text = s.chars ++ rest := by
  simp only [scan?, Option.map_eq_some_iff, Prod.mk.injEq] at h
  obtain ⟨s', hs, rfl, rfl⟩ := h
  have := List.find?_some hs
  exact (List.prefix_iff_eq_append.1 (List.isPrefixOf_iff_prefix.1 this)).symm

theorem chars_ne_nil (s : Sign) : s.chars ≠ [] := by cases s <;> simp [chars]

end Sign

/-- What a token is. -/
inductive Lexeme where
  | int (n : Int64)
  | float (x : Float)
  /-- A string literal, by the text it denotes. -/
  | string (s : String)
  | name (s : String)
  | keyword (k : Keyword)
  | sign (s : Sign)

namespace Lexeme

/-- How a token is shown in reports: numbers by their value, a string by its text between quotes. -/
def text : Lexeme → String
  | int n => int64Text n
  | float x => floatText x
  | string s => "\"" ++ s ++ "\""
  | name s => s
  | keyword k => k.text
  | sign s => s.text

/-- Whether a token is a reserved word. -/
def isKeyword : Lexeme → Bool
  | keyword _ => true
  | _ => false

/-- What a word is: reserved or a name. -/
def ofWord (word : String) : Lexeme :=
  match Keyword.ofText? word with
  | some k => keyword k
  | none => name word

end Lexeme

/-- A token: what it is and where it stands. -/
structure Token where
  lexeme : Lexeme
  span : Span

/-- The tokens of a text, in order, and the mark that ends them. -/
structure TokenStream where
  tokens : List Token
  /-- Where the end of the text is reported. -/
  finish : Span

/-- How the end of the text is shown in reports. -/
def endOfText : String := "end of file"

/-- The stream of a list of tokens alone: it ends where the last token stands. -/
def TokenStream.ofTokens (tokens : List Token) : TokenStream where
  tokens := tokens
  finish := (tokens.getLast?.map Token.span).getD (Span.point Position.start)

end ScriptLang
