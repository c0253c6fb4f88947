import Mathlib.Data.List.DropRight
import Mathlib.Order.Defs.LinearOrder
import ScriptLang.Source.Span

/-!
# Where a text ends, and what comes first

The position past a text is found by advancing over its characters one by one. It can be told by
counting too: the line from the newlines, the column from the characters behind the last of them.

Positions are ordered by line and then by column. Advancing over a text leads on, and over a text with
a character in it strictly on.

## Main definitions

* `Position.counted`: where a text ends, by counting
* `Position.advanceWord`: the same step in words of 32 bits

## Main results

* `Position.after_start`: from the start of a text, advancing gives what counting does
* `Position.toNat_foldl_advanceWord`: words count the same in a text that is not too long
* `Position.le_after`, `Position.lt_after`: a text ends where it begins or later, and later if there
  is something in it
-/

namespace ScriptLang.Position

/-- Where a text ends: past as many lines as it has newlines, and on the last line past the characters
that stand there. -/
def counted (text : List Char) : Position :=
  ⟨text.count '\n' + 1, (text.rtakeWhile (· ≠ '\n')).length + 1⟩

theorem after_start (text : List Char) : start.after text = counted text := by
  induction text using List.reverseRecOn with
  | nil => rfl
  | append_singleton text c ih =>
    rw [after_append, ih, after_cons, after_nil]
    by_cases hc : c = '\n'
    · simp [counted, advance, hc]
    · simp [counted, advance, hc]

/-- Behind what was counted, advancing goes on with the count. -/
theorem after_counted (front text : List Char) :
    (counted front).after text = counted (front ++ text) := by
  rw [← after_start, ← after_append, after_start]

/-! ### Words -/

/-- The position past a character, counted in words of 32 bits. -/
def advanceWord (p : UInt32 × UInt32) (c : Char) : UInt32 × UInt32 :=
  if c = '\n' then (p.1 + 1, 1) else (p.1, p.2 + 1)

theorem foldl_advanceWord (text : List Char) :
    text.foldl advanceWord (1, 1) =
      (UInt32.ofNat (counted text).line, UInt32.ofNat (counted text).column) := by
  rw [← after_start]
  induction text using List.reverseRecOn with
  | nil => rfl
  | append_singleton text c ih =>
    rw [List.foldl_append, ih, after_append, after_cons, after_nil, List.foldl_cons, List.foldl_nil]
    by_cases hc : c = '\n'
    · simp [advanceWord, advance, hc, UInt32.ofNat_add]
    · simp [advanceWord, advance, hc, UInt32.ofNat_add]

/-- Neither number is greater than that of the characters and one more, so that words count the same
where there are fewer characters than they can count. -/
theorem toNat_foldl_advanceWord {text : List Char} (h : text.length + 1 < UInt32.size) :
    (text.foldl advanceWord (1, 1)).1.toNat = (counted text).line ∧
      (text.foldl advanceWord (1, 1)).2.toNat = (counted text).column := by
  have hline : (counted text).line < UInt32.size :=
    (Nat.succ_le_succ List.count_le_length).trans_lt h
  have hcolumn : (counted text).column < UInt32.size :=
    (Nat.succ_le_succ (List.IsSuffix.length_le (List.rtakeWhile_suffix _ text))).trans_lt h
  rw [foldl_advanceWord]
  exact ⟨UInt32.toNat_ofNat_of_lt hline, UInt32.toNat_ofNat_of_lt hcolumn⟩

/-! ### Order -/

theorem le_iff {p q : Position} :
    p ≤ q ↔ p.line < q.line ∨ p.line = q.line ∧ p.column ≤ q.column := Iff.rfl

instance : LT Position where
  lt p q := p ≤ q ∧ ¬q ≤ p

instance : LinearOrder Position where
  le_refl p := Or.inr ⟨rfl, Nat.le_refl _⟩
  le_trans p q r hpq hqr := by
    rw [le_iff] at hpq hqr ⊢
    omega
  le_antisymm p q hpq hqp := by
    rw [le_iff] at hpq hqp
    obtain ⟨line, column⟩ := p
    obtain ⟨line', column'⟩ := q
    simp only [mk.injEq] at hpq hqp ⊢
    omega
  le_total p q := by
    rw [le_iff, le_iff]
    omega
  toDecidableLE := inferInstance
  toDecidableEq := inferInstance
  min_def _ _ := rfl
  max_def _ _ := rfl

theorem lt_advance (p : Position) (c : Char) : p < p.advance c := by
  rw [← not_le, le_iff]
  unfold advance
  split <;> simp

theorem le_after (p : Position) (text : List Char) : p ≤ p.after text := by
  induction text generalizing p with
  | nil => exact le_refl p
  | cons c text ih => exact le_trans (le_of_lt (lt_advance p c)) (ih (p.advance c))

theorem lt_after (p : Position) {text : List Char} (h : text ≠ []) : p < p.after text := by
  obtain ⟨c, text, rfl⟩ := List.exists_cons_of_ne_nil h
  exact lt_of_lt_of_le (lt_advance p c) (le_after _ text)

end ScriptLang.Position
