import Mathlib.Data.List.TakeWhile
import ScriptLang.Text.Blank

/-!
# White space around a text

What is left of a text without the white space at either end, and what has been taken away.

## Main results

* `trim_eq_nil_iff`: nothing is left of white space
* `exists_eq_append_trim`: what is taken away is white space at the ends
* `trim_append`: white space around a text without any is taken away
-/

namespace ScriptLang.Text

/-- The characters are white space. -/
def AllBlank (cs : List Char) : Prop := ∀ c ∈ cs, isBlank c = true

instance (cs : List Char) : Decidable (AllBlank cs) :=
  decidable_of_iff (cs.all isBlank = true) List.all_eq_true

theorem AllBlank.reverse {cs : List Char} (h : AllBlank cs) : AllBlank cs.reverse :=
  fun c hc => h c (List.mem_reverse.1 hc)

theorem allBlank_takeWhile (cs : List Char) : AllBlank (cs.takeWhile isBlank) :=
  fun _ hc => List.mem_takeWhile_imp hc

theorem exists_eq_append_trim (cs : List Char) :
    ∃ before after, cs = before ++ trim cs ++ after ∧ AllBlank before ∧ AllBlank after := by
  let rest := cs.dropWhile isBlank
  have hfront : cs = cs.takeWhile isBlank ++ rest := (List.takeWhile_append_dropWhile).symm
  have hback : rest = trim cs ++ (rest.reverse.takeWhile isBlank).reverse := by
    rw [trim, ← List.reverse_append, List.takeWhile_append_dropWhile, List.reverse_reverse]
  refine ⟨_, _, ?_, allBlank_takeWhile cs, (allBlank_takeWhile rest.reverse).reverse⟩
  rw [List.append_assoc, ← hback, ← hfront]

/-- White space around a text without any is taken away. -/
theorem trim_append {before text after : List Char} (hbefore : AllBlank before)
    (htext : ∀ c ∈ text, isBlank c = false) (hafter : AllBlank after) :
    trim (before ++ text ++ after) = text := by
  have hkept {cs : List Char} (hcs : ∀ c ∈ cs, isBlank c = false) : cs.dropWhile isBlank = cs := by
    cases cs with
    | nil => rfl
    | cons c cs => rw [List.dropWhile_cons_of_neg (by simp [hcs c List.mem_cons_self])]
  have hreversed : ∀ c ∈ text.reverse, isBlank c = false :=
    fun c hc => htext c (List.mem_reverse.1 hc)
  rw [trim, List.append_assoc, List.dropWhile_append_of_pos hbefore]
  cases text with
  | nil =>
    have hnothing : after.dropWhile isBlank = [] := List.dropWhile_eq_nil_iff.2 hafter
    rw [List.nil_append, hnothing]
    rfl
  | cons c cs =>
    have hc : ¬ isBlank c = true := by simp [htext c List.mem_cons_self]
    rw [List.cons_append, List.dropWhile_cons_of_neg hc, ← List.cons_append, List.reverse_append,
      List.dropWhile_append_of_pos hafter.reverse, hkept hreversed, List.reverse_reverse]

/-- Nothing is left of white space. -/
theorem trim_eq_nil_iff {cs : List Char} : trim cs = [] ↔ AllBlank cs := by
  constructor
  · intro h
    obtain ⟨before, after, hcs, hbefore, hafter⟩ := exists_eq_append_trim cs
    rw [hcs, h, List.append_nil]
    exact List.forall_mem_append.2 ⟨hbefore, hafter⟩
  · intro h
    have hall := trim_append h (List.forall_mem_nil _) (List.forall_mem_nil _)
    rwa [List.append_nil, List.append_nil] at hall

end ScriptLang.Text
