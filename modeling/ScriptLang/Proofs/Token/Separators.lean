import ScriptLang.Proofs.Token.Layout

/-!
# What stands between tokens

Where no diagnostic stops it, passing separators takes whole pieces only: blanks and closed comments,
and at the end of a text perhaps a comment that the end of the text closes. What is left begins with no
separator, and neither does any part of it that begins at the same place.

## Main definitions

* `BeginsComment`, `Significant`: a text whose first character is in no separator
* `Leading`: what a text begins with
* `Skips`: what separators leave of a text
* `Ending`: what stands behind the last token

## Main results

* `skips_of_skipTrivia`: passing separators takes separators
* `exists_of_skipTrivia_error`: only a comment that nothing closes stops it
* `Significant.skipTrivia`: and nothing else
-/

namespace ScriptLang

open Text

/-- Whether a text begins with a comment. -/
def BeginsComment (text : List Char) : Prop :=
  ['/', '/'] <+: text ∨ ['/', '*'] <+: text

theorem not_beginsComment_nil : ¬BeginsComment [] := by
  simp [BeginsComment]

theorem not_beginsComment_cons {c : Char} {text : List Char}
    (hline : ∀ rest, c = '/' → text = '/' :: rest → False)
    (hblock : ∀ rest, c = '/' → text = '*' :: rest → False) : ¬BeginsComment (c :: text) := by
  rintro (⟨rest, h⟩ | ⟨rest, h⟩)
  · cases h
    exact hline rest rfl rfl
  · cases h
    exact hblock rest rfl rfl

/-- Nothing, or text that begins with no separator. -/
structure Significant (text : List Char) : Prop where
  notBlank : ∀ c ∈ text.head?, isBlank c = false
  notComment : ¬BeginsComment text

namespace Significant

variable {text text' : List Char}

theorem nil : Significant [] where
  notBlank _ hc := by cases hc
  notComment := not_beginsComment_nil

/-- A text that goes on would begin with every separator that its front begins with. -/
theorem of_isPrefix (h : Significant text) (hfront : text' <+: text) : Significant text' where
  notBlank c hc := by
    obtain ⟨rest, rfl⟩ := hfront
    cases text' with
    | nil => cases hc
    | cons d text' => exact h.notBlank c hc
  notComment := by
    rintro (hline | hblock)
    · exact h.notComment (.inl (hline.trans hfront))
    · exact h.notComment (.inr (hblock.trans hfront))

/-- Nothing is taken of a text that begins with no separator. -/
theorem skipTrivia (h : Significant text) (p : Position) :
    skipTrivia p text = .ok (p, text) := by
  cases text with
  | nil => rfl
  | cons c text =>
    rw [ScriptLang.skipTrivia, h.notBlank c rfl]
    · rfl
    · rintro rest rfl rfl
      exact h.notComment (.inl ⟨rest, rfl⟩)
    · rintro rest rfl rfl
      exact h.notComment (.inr ⟨rest, rfl⟩)

end Significant

/-- A comment that the end of the text closes. -/
theorem skipTrivia_lineToEnd (p : Position) {body : List Char} (hbody : '\n' ∉ body) :
    skipTrivia p ('/' :: '/' :: body) = .ok (p.after ('/' :: '/' :: body), []) := by
  have hline (q : Position) : skipLine q body = .ok (q.after body, []) := by
    induction body generalizing q with
    | nil => rfl
    | cons c body ih =>
      rw [List.mem_cons, not_or] at hbody
      rw [skipLine, if_neg (Ne.symm hbody.1), ih hbody.2]
      rfl
  rw [skipTrivia, hline]
  rfl

/-- A comment in delimiters that nothing closes. -/
theorem skipTrivia_openBlock (p : Position) {body : List Char} (hbody : ¬['*', '/'] <:+: body) :
    skipTrivia p ('/' :: '*' :: body) =
      .error (Fault.unterminatedComment.at ⟨p, p.after ('/' :: '*' :: body)⟩) := by
  have hblock (q : Position) :
      skipBlock p q body = .error (Fault.unterminatedComment.at ⟨p, q.after body⟩) := by
    induction body generalizing q with
    | nil => rfl
    | cons c body ih =>
      rw [List.infix_cons_iff, not_or] at hbody
      rw [skipBlock, ih hbody.2]
      · rfl
      · rintro rest rfl rfl
        exact hbody.1 ⟨rest, rfl⟩
  rw [skipTrivia, hblock]
  rfl

/-- The first closing delimiter of a text that holds one. -/
theorem exists_closing {text : List Char} (h : ['*', '/'] <:+: text) :
    ∃ body rest, ¬['*', '/'] <:+: body ∧ text = body ++ '*' :: '/' :: rest := by
  induction text with
  | nil => simp at h
  | cons c text ih =>
    by_cases hfront : ['*', '/'] <+: c :: text
    · obtain ⟨rest, hrest⟩ := hfront
      exact ⟨[], rest, by simp, hrest.symm⟩
    · obtain ⟨body, rest, hbody, rfl⟩ := ih ((List.infix_cons_iff.1 h).resolve_left hfront)
      refine ⟨c :: body, rest, ?_, rfl⟩
      rw [List.infix_cons_iff, not_or]
      refine ⟨fun hclosing => hfront (hclosing.trans ?_), hbody⟩
      exact ⟨'*' :: '/' :: rest, rfl⟩

/-- What a text begins with, as far as separators go. -/
inductive Leading : List Char → Prop
  | significant {text : List Char} (h : Significant text) : Leading text
  | piece (t : Trivia) (text : List Char) : Leading (t.chars ++ text)
  /-- A comment that the end of the text closes. -/
  | lineToEnd (body : List Char) (isLine : '\n' ∉ body) : Leading ('/' :: '/' :: body)
  /-- A comment that nothing closes. -/
  | openBlock (body : List Char) (isOpen : ¬['*', '/'] <:+: body) : Leading ('/' :: '*' :: body)

theorem leading (text : List Char) : Leading text := by
  by_cases hcomment : BeginsComment text
  · obtain ⟨body, rfl⟩ | ⟨body, rfl⟩ := hcomment
    · by_cases hnewline : '\n' ∈ body
      · obtain ⟨body, rest, rfl, hbody⟩ := List.eq_append_cons_of_mem hnewline
        have hpiece := Leading.piece (.line body hbody) rest
        rwa [Trivia.chars, List.cons_append, List.cons_append, List.append_assoc] at hpiece
      · exact .lineToEnd body hnewline
    · by_cases hclosing : ['*', '/'] <:+: body
      · obtain ⟨body, rest, hbody, rfl⟩ := exists_closing hclosing
        have hpiece := Leading.piece (.block body hbody) rest
        rwa [Trivia.chars, List.cons_append, List.cons_append, List.append_assoc] at hpiece
      · exact .openBlock body hclosing
  · by_cases hblank : ∀ c ∈ text.head?, isBlank c = false
    · exact .significant ⟨hblank, hcomment⟩
    · push Not at hblank
      obtain ⟨c, hc, hblank⟩ := hblank
      obtain ⟨text, rfl⟩ := List.head?_eq_some_iff.1 hc
      exact .piece (.blank c (by simpa using hblank)) text

/-- What is left of a text where the separators at its front are passed. -/
inductive Skips : List Char → List Char → Prop
  | done {rest : List Char} (significant : Significant rest) : Skips rest rest
  | piece {text rest : List Char} (t : Trivia) (more : Skips text rest) : Skips (t.chars ++ text) rest
  /-- A comment that the end of the text closes. -/
  | comment (body : List Char) (isLine : '\n' ∉ body) : Skips ('/' :: '/' :: body) []

theorem Trivia.chars_ne_nil (t : Trivia) : t.chars ≠ [] := by
  cases t <;> exact List.cons_ne_nil _ _

/-- Passing separators takes separators. -/
theorem skips_of_skipTrivia {p q : Position} {text rest : List Char}
    (h : skipTrivia p text = .ok (q, rest)) : Skips text rest := by
  cases leading text with
  | significant hsignificant =>
    rw [hsignificant.skipTrivia] at h
    cases h
    exact .done hsignificant
  | piece t text =>
    rw [skipTrivia_piece] at h
    exact .piece t (skips_of_skipTrivia h)
  | lineToEnd body hbody =>
    rw [skipTrivia_lineToEnd p hbody] at h
    cases h
    exact .comment body hbody
  | openBlock body hbody =>
    rw [skipTrivia_openBlock p hbody] at h
    cases h
termination_by text.length
decreasing_by
  have hpos := List.length_pos_iff.2 t.chars_ne_nil
  grind

/-- What stops the passing of separators is a comment that nothing closes. -/
theorem exists_of_skipTrivia_error {p : Position} {text : List Char} {d : Diagnostic}
    (h : skipTrivia p text = .error d) :
    ∃ (gap : List Trivia) (body : List Char), ¬['*', '/'] <:+: body ∧
      text = gap.flatMap Trivia.chars ++ '/' :: '*' :: body ∧
      d = Fault.unterminatedComment.at ⟨p.after (gap.flatMap Trivia.chars), p.after text⟩ := by
  cases leading text with
  | significant hsignificant =>
    rw [hsignificant.skipTrivia] at h
    cases h
  | piece t text =>
    rw [skipTrivia_piece] at h
    obtain ⟨gap, body, hbody, rfl, rfl⟩ := exists_of_skipTrivia_error h
    refine ⟨t :: gap, body, hbody, by rw [List.flatMap_cons, List.append_assoc], ?_⟩
    rw [List.flatMap_cons, Position.after_append p t.chars, Position.after_append p t.chars]
  | lineToEnd body hbody =>
    rw [skipTrivia_lineToEnd p hbody] at h
    cases h
  | openBlock body hbody =>
    rw [skipTrivia_openBlock p hbody] at h
    cases h
    exact ⟨[], body, hbody, rfl, rfl⟩
termination_by text.length
decreasing_by
  have hpos := List.length_pos_iff.2 t.chars_ne_nil
  grind

namespace Skips

variable {text rest : List Char}

theorem significant (h : Skips text rest) : Significant rest := by
  induction h with
  | done hrest => exact hrest
  | piece t _ ih => exact ih
  | comment => exact .nil

/-- Before a token there are closed separators only. -/
theorem exists_gap {c : Char} (h : Skips text (c :: rest)) :
    ∃ gap : List Trivia, text = gap.flatMap Trivia.chars ++ c :: rest := by
  generalize hleft : c :: rest = left at h
  induction h with
  | done => exact ⟨[], rfl⟩
  | piece t _ ih =>
    obtain ⟨gap, rfl⟩ := ih hleft
    exact ⟨t :: gap, by rw [List.flatMap_cons, List.append_assoc]⟩
  | comment => cases hleft

end Skips

/-- Before a token stand separators, and it begins with none. -/
theorem exists_gap_of_skipTrivia {p start : Position} {text rest : List Char} {c : Char}
    (h : skipTrivia p text = .ok (start, c :: rest)) :
    ∃ gap : List Trivia, text = gap.flatMap Trivia.chars ++ c :: rest ∧
      start = p.after (gap.flatMap Trivia.chars) ∧ Significant (c :: rest) := by
  obtain ⟨taken, htaken, rfl⟩ := skipTrivia_eq_append h
  have hskips := skips_of_skipTrivia h
  obtain ⟨gap, hgap⟩ := hskips.exists_gap
  obtain rfl : taken = gap.flatMap Trivia.chars := List.append_cancel_right (htaken ▸ hgap)
  exact ⟨gap, hgap, rfl, hskips.significant⟩

/-- What stands behind the last token: separators, and perhaps a comment that the end of the text
closes. -/
structure Ending where
  gap : List Trivia
  comment : Option {body : List Char // '\n' ∉ body}

/-- The text of an ending. -/
def Ending.chars (e : Ending) : List Char :=
  e.gap.flatMap Trivia.chars ++ e.comment.elim [] fun body => '/' :: '/' :: body.val

/-- Where nothing is left there is an ending. -/
theorem Skips.exists_ending {text : List Char} (h : Skips text []) :
    ∃ ending : Ending, text = ending.chars := by
  generalize hleft : [] = left at h
  induction h with
  | done =>
    subst hleft
    exact ⟨⟨[], none⟩, rfl⟩
  | piece t _ ih =>
    obtain ⟨ending, rfl⟩ := ih hleft
    exact ⟨⟨t :: ending.gap, ending.comment⟩, by
      rw [Ending.chars, Ending.chars, List.flatMap_cons, List.append_assoc]⟩
  | comment body hbody => exact ⟨⟨[], some ⟨body, hbody⟩⟩, rfl⟩

end ScriptLang
