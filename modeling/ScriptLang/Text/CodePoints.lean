/-!
# Sets of code points

A set of characters given by the ranges of its code points, the form in which properties of
characters are published.

## Main definitions

* `CodePoints`: a list of ranges, each from its first to its last code point
* `CodePoints.contains`: membership of a character
-/

namespace ScriptLang.Text

/-- Ranges of code points, each with both ends included. -/
abbrev CodePoints := List (Nat × Nat)

/-- Whether a character lies in one of the ranges. -/
def CodePoints.contains (ranges : CodePoints) (c : Char) : Bool :=
  ranges.any fun range => range.1 ≤ c.toNat && c.toNat ≤ range.2

theorem CodePoints.contains_iff {ranges : CodePoints} {c : Char} :
    ranges.contains c = true ↔ ∃ range ∈ ranges, range.1 ≤ c.toNat ∧ c.toNat ≤ range.2 := by
  simp [contains]

end ScriptLang.Text
