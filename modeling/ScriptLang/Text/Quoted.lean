import ScriptLang.Text.Unprintable

/-!
# Quoted text

The form in which a text is shown as a literal: between double quotes, with the quote, the backslash
and the common controls escaped by a letter and everything that is not visible escaped by number.

## Main definitions

* `quotedChar`: the form of one character
* `quoted`: the form of a text
-/

namespace ScriptLang.Text

/-- An escape by number: the code point in hexadecimal between braces. -/
def numberedEscape (c : Char) : List Char :=
  ['\\', 'u', '{'] ++ Nat.toDigits 16 c.toNat ++ ['}']

/-- How a character is written inside a quoted text. -/
def quotedChar (c : Char) : List Char :=
  match c with
  | '"' => ['\\', '"']
  | '\\' => ['\\', '\\']
  | '\n' => ['\\', 'n']
  | '\r' => ['\\', 'r']
  | '\t' => ['\\', 't']
  | '\x00' => ['\\', '0']
  | c => if isVisible c then [c] else numberedEscape c

/-- A text between double quotes, escaped so that it shows on one line. -/
def quoted (s : String) : String :=
  String.ofList ('"' :: s.toList.flatMap quotedChar ++ ['"'])

end ScriptLang.Text
