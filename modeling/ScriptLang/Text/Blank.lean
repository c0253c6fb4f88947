import ScriptLang.Text.CodePoints

/-!
# White space

The Unicode property *White_Space*, and the trimming of text by it.

## Main definitions

* `isBlank`: the property
* `trim`: a text without the white space around it
-/

namespace ScriptLang.Text

/-- The code points with the property White_Space. -/
def blanks : CodePoints :=
  [(0x0009, 0x000D), (0x0020, 0x0020), (0x0085, 0x0085), (0x00A0, 0x00A0), (0x1680, 0x1680),
   (0x2000, 0x200A), (0x2028, 0x2029), (0x202F, 0x202F), (0x205F, 0x205F), (0x3000, 0x3000)]

/-- White space, in any script. -/
def isBlank (c : Char) : Bool := blanks.contains c

/-- The characters of a text without the white space at either end. -/
def trim (cs : List Char) : List Char :=
  ((cs.dropWhile isBlank).reverse.dropWhile isBlank).reverse

end ScriptLang.Text
