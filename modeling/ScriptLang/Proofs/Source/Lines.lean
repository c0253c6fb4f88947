import ScriptLang.Proofs.Source.Position
import ScriptLang.Source.Unit

/-!
# Lines of a text

A line stands between two newlines, or between one and an end of the text. Its number is told by the
newlines in front of it, and so is that of a position; so both ways to count, the one that splits the
text and the one that advances over it, speak of the same lines.

## Main definitions

* `IsLine`: a stretch of a text that is one of its lines

## Main results

* `IsLine.line?`: the line that a unit has under its number
* `exists_isLine`: the line that a stretch without a newline lies on, and the columns that it takes
-/

namespace ScriptLang

/-- The text is `front`, then a whole line, then `back`. -/
structure IsLine (text front line back : List Char) : Prop where
  eq : text = front ++ line ++ back
  unbroken : '\n' ∉ line
  opens : ∀ c ∈ front.getLast?, c = '\n'
  closes : ∀ c ∈ back.head?, c = '\n'

variable {text front line back : List Char}

/-! ### Splitting a text -/

theorem head?_splitLines (hline : '\n' ∉ line) (hback : ∀ c ∈ back.head?, c = '\n') :
    (splitLines (line ++ back)).head? = some line := by
  induction line with
  | nil =>
    cases back with
    | nil => rfl
    | cons c back =>
      rw [List.nil_append, splitLines_cons, if_pos (hback c rfl)]
      rfl
  | cons c line ih =>
    rw [List.mem_cons, not_or] at hline
    rw [List.cons_append, splitLines_cons, if_neg (Ne.symm hline.1), List.head?_modifyHead, ih hline.2]
    rfl

/-- The induction is on what stands in front. It ends with a newline, so the line is never the first
one of a text in which something stands in front of it. -/
theorem IsLine.getElem?_splitLines (h : IsLine text front line back) :
    (splitLines text)[front.count '\n']? = some line := by
  obtain ⟨rfl, hline, hfront, hback⟩ := h
  induction front with
  | nil =>
    rw [List.nil_append, List.count_nil, ← List.head?_eq_getElem?]
    exact head?_splitLines hline hback
  | cons c front ih =>
    have hrest : ∀ d ∈ front.getLast?, d = '\n' := by
      intro d hd
      cases front with
      | nil => cases hd
      | cons e front =>
        rw [List.getLast?_cons_cons] at hfront
        exact hfront d hd
    rw [List.cons_append, List.cons_append, splitLines_cons]
    by_cases hc : c = '\n'
    · rw [if_pos hc, hc, List.count_cons_self, List.getElem?_cons_succ]
      exact ih hrest
    · have hne : front ≠ [] := by
        rintro rfl
        exact hc (hfront c rfl)
      have hnewline : '\n' ∈ front := by
        have hlast := hrest _ (List.getLast?_eq_getLast_of_ne_nil hne)
        exact hlast ▸ List.getLast_mem hne
      obtain ⟨k, hk⟩ := Nat.exists_eq_succ_of_ne_zero (List.count_pos_iff.2 hnewline).ne'
      rw [if_neg hc, List.count_cons_of_ne hc, hk, List.getElem?_modifyHead,
        if_neg (Nat.succ_ne_zero k), ← hk]
      exact ih hrest

/-- A unit has the line under its number, but for carriage returns at its end. -/
theorem IsLine.line? {u : SourceUnit} (h : IsLine u.text.toList front line back) :
    u.line? (front.count '\n' + 1) = some (String.ofList (dropTrailingReturns line)) := by
  rw [SourceUnit.line?, if_neg (Nat.succ_ne_zero _), Nat.add_sub_cancel, SourceUnit.lines,
    h.getElem?_splitLines]
  rfl

/-- What ends with something else loses no carriage return. -/
theorem dropTrailingReturns_append {c : Char} (hc : c ≠ '\r') (front back : List Char) :
    dropTrailingReturns (front ++ c :: back) = front ++ c :: dropTrailingReturns back := by
  have hkept : (c :: front.reverse).dropWhile (· == '\r') = c :: front.reverse :=
    List.dropWhile_cons_of_neg (by simpa using hc)
  unfold dropTrailingReturns
  rw [List.reverse_append, List.reverse_cons, List.append_assoc, List.singleton_append,
    List.dropWhile_append]
  split
  · next hempty =>
    rw [hkept, List.isEmpty_iff.1 hempty]
    simp
  · simp

/-! ### Finding the line -/

theorem Position.after_unbroken {stretch : List Char} (h : '\n' ∉ stretch) (p : Position) :
    p.after stretch = ⟨p.line, p.column + stretch.length⟩ := by
  induction stretch generalizing p with
  | nil => rfl
  | cons c stretch ih =>
    rw [List.mem_cons, not_or] at h
    rw [after_cons, ih h.2, advance, if_neg (Ne.symm h.1), List.length_cons, Nat.add_assoc,
      Nat.add_comm 1]

/-- What stands on one line stands `left.length` characters behind its beginning. -/
theorem exists_isLine (before : List Char) {stretch : List Char} (h : '\n' ∉ stretch)
    (rest : List Char) :
    ∃ front left right back, before = front ++ left ∧ rest = right ++ back ∧
      IsLine (before ++ stretch ++ rest) front (left ++ stretch ++ right) back ∧
      Position.counted before = ⟨front.count '\n' + 1, left.length + 1⟩ ∧
      Position.counted (before ++ stretch) =
        ⟨front.count '\n' + 1, left.length + 1 + stretch.length⟩ := by
  let ordinary : Char → Bool := (· ≠ '\n')
  have hbefore : before.rdropWhile ordinary ++ before.rtakeWhile ordinary = before :=
    List.rdropWhile_append_rtakeWhile
  have hrest : rest.takeWhile ordinary ++ rest.dropWhile ordinary = rest :=
    List.takeWhile_append_dropWhile
  have hleft : '\n' ∉ before.rtakeWhile ordinary := fun hmem => by
    simpa [ordinary] using List.mem_rtakeWhile_imp hmem
  have hright : '\n' ∉ rest.takeWhile ordinary := fun hmem => by
    simpa [ordinary] using List.mem_takeWhile_imp hmem
  have hline : IsLine (before ++ stretch ++ rest) (before.rdropWhile ordinary)
      (before.rtakeWhile ordinary ++ stretch ++ rest.takeWhile ordinary)
      (rest.dropWhile ordinary) := by
    refine ⟨?_, ?_, fun c hc => ?_, fun c hc => ?_⟩
    · conv_lhs => rw [← hbefore, ← hrest]
      simp only [List.append_assoc]
    · simp only [List.mem_append, not_or]
      exact ⟨⟨hleft, h⟩, hright⟩
    · obtain ⟨hne, rfl⟩ := List.mem_getLast?_eq_getLast hc
      simpa [ordinary] using List.rdropWhile_last_not ordinary before hne
    · have hhead := List.head?_dropWhile_not ordinary rest
      rw [Option.mem_def.1 hc] at hhead
      simpa [ordinary] using hhead
  have hstart : Position.counted before =
      ⟨(before.rdropWhile ordinary).count '\n' + 1, (before.rtakeWhile ordinary).length + 1⟩ := by
    have hcount := congrArg (List.count '\n') hbefore
    rw [List.count_append, List.count_eq_zero.2 hleft, Nat.add_zero] at hcount
    rw [hcount]
    rfl
  refine ⟨_, _, _, _, hbefore.symm, hrest.symm, hline, hstart, ?_⟩
  rw [← Position.after_counted, Position.after_unbroken h, hstart]

end ScriptLang
