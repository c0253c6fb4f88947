import Mathlib.Order.MinMax
import ScriptLang.Proofs.Source.Position
import ScriptLang.Proofs.Syntax.Acceptance

/-!
# Places lie in the text they were read from

Every span that reading a unit gives out, of a token, of a place of its program or of a fault, begins
and ends at positions of the text. The reader is followed through the text by what is left of it.

## Main definitions

* `Position.InText`, `Span.LiesIn`: a position of a text, and a span between two of them
* `Span.region`: the spans that lie in a text
* `Position.IsAt`: where what is left of a text begins

## Main results

* `tokenize_liesIn`, `tokenize_foundIn`: tokens lie in the text, as does what the lexer refuses
* `Program.parse_hasPlaces`, `Program.parse_error`: so do the places of a unit that can be read, and
  the fault of one that cannot
-/

namespace ScriptLang

namespace Position

variable {p q r : Position} {text rest : List Char}

/-- The position is one of the text, or the one past its end. -/
def InText (text : List Char) (p : Position) : Prop :=
  ∃ before, before <+: text ∧ p = start.after before

/-- The position is the one where the rest of a text begins. -/
def IsAt (text rest : List Char) (p : Position) : Prop :=
  ∃ before, text = before ++ rest ∧ p = start.after before

theorem isAt_start (text : List Char) : start.IsAt text text := ⟨[], rfl, rfl⟩

theorem IsAt.after (taken : List Char) (h : p.IsAt text (taken ++ rest)) :
    (p.after taken).IsAt text rest := by
  obtain ⟨before, rfl, rfl⟩ := h
  exact ⟨before ++ taken, (List.append_assoc ..).symm, (after_append ..).symm⟩

theorem IsAt.inText (h : p.IsAt text rest) : p.InText text := by
  obtain ⟨before, rfl, rfl⟩ := h
  exact ⟨before, List.prefix_append _ _, rfl⟩

end Position

/-- The span begins and ends at positions of the text. -/
structure Span.LiesIn (text : List Char) (span : Span) : Prop where
  start : span.start.InText text
  stop : span.stop.InText text
  ordered : span.start ≤ span.stop

namespace Span

variable {text rest : List Char} {a b : Span} {p q : Position}

theorem LiesIn.merge (ha : a.LiesIn text) (hb : b.LiesIn text) : (a.merge b).LiesIn text where
  start := by
    change (min a.start b.start).InText text
    rcases min_choice a.start b.start with h | h <;> rw [h]
    · exact ha.start
    · exact hb.start
  stop := by
    change (max a.stop b.stop).InText text
    rcases max_choice a.stop b.stop with h | h <;> rw [h]
    · exact ha.stop
    · exact hb.stop
  ordered := by
    have hstart : min a.start b.start ≤ a.start := min_le_left _ _
    have hstop : a.stop ≤ max a.stop b.stop := le_max_left _ _
    exact le_trans (le_trans hstart ha.ordered) hstop

/-- The spans that lie in a text. -/
def region (text : List Char) : Region where
  Has := LiesIn text
  merge := LiesIn.merge

/-- What a scanner takes lies in the text. -/
theorem liesIn_of_isAt (taken : List Char) (h : p.IsAt text (taken ++ rest)) :
    LiesIn text ⟨p, p.after taken⟩ where
  start := h.inText
  stop := (h.after taken).inText
  ordered := Position.le_after p taken

theorem liesIn_point (h : p.InText text) : LiesIn text (point p) where
  start := h
  stop := h
  ordered := le_refl p

end Span

/-! ### The lexer

A scanner refuses a stretch of what is left of the text, or one that begins further in front, where the
comment or the string was opened. -/

section Lexer

variable {text : List Char}

mutual

theorem skipTrivia_foundIn {p : Position} {rest : List Char} {d : Diagnostic}
    (hp : p.IsAt text rest) (h : skipTrivia p rest = .error d) : d.FoundIn (Span.region text) := by
  unfold skipTrivia at h
  split at h
  · cases h
  · next rest => exact skipLine_foundIn (hp.after ['/', '/']) h
  · next rest =>
    have hp' := hp.after ['/', '*']
    exact skipBlock_foundIn hp.inText (Position.le_after p ['/', '*']) hp' h
  · next c rest _ _ =>
    split at h
    · exact skipTrivia_foundIn (hp.after [c]) h
    · cases h
termination_by rest.length

theorem skipLine_foundIn {p : Position} {rest : List Char} {d : Diagnostic}
    (hp : p.IsAt text rest) (h : skipLine p rest = .error d) : d.FoundIn (Span.region text) := by
  unfold skipLine at h
  split at h
  · cases h
  · next c rest =>
    have hp' := hp.after [c]
    split at h
    · exact skipTrivia_foundIn hp' h
    · exact skipLine_foundIn hp' h
termination_by rest.length

theorem skipBlock_foundIn {opened p : Position} {rest : List Char} {d : Diagnostic}
    (hopened : opened.InText text) (hle : opened ≤ p) (hp : p.IsAt text rest)
    (h : skipBlock opened p rest = .error d) : d.FoundIn (Span.region text) := by
  unfold skipBlock at h
  split at h
  · -- A comment without end is refused as a whole, from where it was opened.
    cases h
    exact Fault.at_foundIn rfl ⟨hopened, hp.inText, hle⟩
  · next rest => exact skipTrivia_foundIn (hp.after ['*', '/']) h
  · next c rest _ =>
    have hle' := le_trans hle (le_of_lt (Position.lt_advance p c))
    exact skipBlock_foundIn hopened hle' (hp.after [c]) h
termination_by rest.length

end

variable {p opened : Position} {rest : List Char} {d : Diagnostic}

theorem scanString_foundIn {read : List Char} (hopened : opened.InText text) (hle : opened ≤ p)
    (hp : p.IsAt text rest) (h : scanString opened p read rest = .error d) :
    d.FoundIn (Span.region text) := by
  fun_induction scanString opened p read rest with
  | case1 =>
    -- So is a string without end.
    cases h
    exact Fault.at_foundIn rfl ⟨hopened, hp.inText, hle⟩
  | case2 => cases h
  | case3 p =>
    cases h
    exact Fault.at_foundIn rfl (Span.liesIn_of_isAt ['\\'] hp)
  | case4 p read c rest _ _ ih =>
    have hle' := le_trans hle (Position.le_after p ['\\', c])
    exact ih hle' (hp.after ['\\', c]) h
  | case5 p read c rest =>
    cases h
    exact Fault.at_foundIn rfl (Span.liesIn_of_isAt ['\\', c] hp)
  | case6 p read c rest _ _ _ ih =>
    have hle' := le_trans hle (le_of_lt (Position.lt_advance p c))
    exact ih hle' (hp.after [c]) h

theorem integerLiteral_foundIn {digits : List Char} (hp : p.IsAt text (digits ++ rest))
    (h : integerLiteral p digits rest = .error d) : d.FoundIn (Span.region text) := by
  unfold integerLiteral at h
  split at h
  · cases h
  · cases h
    exact Fault.at_foundIn rfl (Span.liesIn_of_isAt digits hp)

theorem scanNumber_foundIn (hp : p.IsAt text rest) (h : scanNumber p rest = .error d) :
    d.FoundIn (Span.region text) := by
  have hsplit := (List.takeWhile_append_dropWhile (p := Char.isDigit) (l := rest)).symm
  rw [hsplit] at hp
  unfold scanNumber at h
  split at h
  · next more heq =>
    dsimp only at h
    split at h
    · rw [heq] at hp
      exact integerLiteral_foundIn hp h
    · cases h
  · exact integerLiteral_foundIn hp h

theorem scanLexeme_foundIn {c : Char} (hp : p.IsAt text (c :: rest))
    (h : scanLexeme p c rest = .error d) : d.FoundIn (Span.region text) := by
  unfold scanLexeme at h
  split at h
  · exact scanString_foundIn hp.inText (le_of_lt (Position.lt_advance p c)) (hp.after [c]) h
  split at h
  · exact scanNumber_foundIn hp h
  split at h
  · cases h
  split at h
  · cases h
  · cases h
    exact Fault.at_foundIn rfl (Span.liesIn_of_isAt [c] hp)

/-- The tokens of a text lie in it, as does what is not a token. -/
theorem tokensFrom_liesIn (hp : p.IsAt text rest) :
    match tokensFrom p rest with
    | .ok (tokens, finish) => (Span.region text).HasTokens tokens ∧ finish.InText text
    | .error d => d.FoundIn (Span.region text) := by
  fun_induction tokensFrom p rest with
  | case1 p rest d htrivia => exact skipTrivia_foundIn hp htrivia
  | case2 p rest stop htrivia =>
    obtain ⟨taken, rfl, rfl⟩ := skipTrivia_eq_append htrivia
    exact ⟨Region.hasTokens_nil, (hp.after taken).inText⟩
  | case3 p rest start c more htrivia d hlexeme =>
    obtain ⟨taken, rfl, rfl⟩ := skipTrivia_eq_append htrivia
    exact scanLexeme_foundIn (hp.after taken) hlexeme
  | case4 p rest start c more htrivia lexeme stop left hlexeme d hmore ih =>
    obtain ⟨taken, rfl, rfl⟩ := skipTrivia_eq_append htrivia
    obtain ⟨word, rfl, rfl⟩ := scanLexeme_eq_append hlexeme
    have hleft := ih ((hp.after taken).after (c :: word))
    rwa [hmore] at hleft
  | case5 p rest start c more htrivia lexeme stop left hlexeme tokens finish hmore ih =>
    obtain ⟨taken, rfl, rfl⟩ := skipTrivia_eq_append htrivia
    obtain ⟨word, rfl, rfl⟩ := scanLexeme_eq_append hlexeme
    have hleft := ih ((hp.after taken).after (c :: word))
    rw [hmore] at hleft
    have hspan := Span.liesIn_of_isAt (c :: word) (hp.after taken)
    exact ⟨Region.hasTokens_cons.2 ⟨hspan, hleft.1⟩, hleft.2⟩

/-- A text is read into tokens that lie in it. -/
theorem tokenize_liesIn {source : String} {stream : TokenStream} (h : tokenize source = .ok stream) :
    (Span.region source.toList).HasTokens stream.tokens ∧ stream.finish.LiesIn source.toList := by
  obtain ⟨finish, htokens, hfinish⟩ := tokensFrom_of_tokenize h
  have hread := tokensFrom_liesIn (Position.isAt_start source.toList)
  rw [htokens] at hread
  rw [hfinish]
  exact ⟨hread.1, Span.liesIn_point hread.2⟩

theorem tokenize_foundIn {source : String} (h : tokenize source = .error d) :
    d.FoundIn (Span.region source.toList) := by
  have hread := tokensFrom_liesIn (Position.isAt_start source.toList)
  rwa [tokensFrom_of_tokenize_error h] at hread

end Lexer

/-! ### Units -/

namespace Program

variable {source : SourceUnit}

/-- A unit that cannot be read is refused under its name, at a place of its text. -/
theorem parse_error {d : Diagnostic} (h : parse source = .error d) :
    d.isSyntax = true ∧ d.unit = some source.name ∧
      ∃ span, d.span = some span ∧ span.LiesIn source.text.toList := by
  obtain ⟨found, rfl, hreaders⟩ := exists_fault_of_parse h
  have hfound : found.FoundIn (Span.region source.text.toList) := by
    obtain htokens | ⟨stream, htokens, hprogram⟩ := hreaders
    · exact tokenize_foundIn htokens
    · obtain ⟨hspans, hfinish⟩ := tokenize_liesIn htokens
      exact ofTokens_foundIn hprogram hspans hfinish
  -- Neither reader knows the unit, so the name that is put to the fault is the only one.
  refine ⟨hfound.isSyntax, ?_, hfound.span⟩
  rw [Diagnostic.withUnit, hfound.unit]
  rfl

/-- The places of a program lie in the text of its unit. -/
theorem parse_hasPlaces {p : Program} (h : parse source = .ok p) :
    (Span.region source.text.toList).HasPlaces p.places := by
  obtain ⟨stream, htokens, hprogram⟩ := exists_ofTokens_of_parse h
  exact (ofTokens_accounted hprogram).hasPlaces (tokenize_liesIn htokens).1

end Program

end ScriptLang
