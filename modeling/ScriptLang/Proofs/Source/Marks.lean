import ScriptLang.Proofs.Interactive.Excerpt
import ScriptLang.Proofs.Source.Lines
import ScriptLang.Proofs.Token.Tiling

/-!
# Reports point into the text

A position is counted while a text is read, a line is found by splitting the text, and a mark is put
under a line by its column. These agree: a report on a text that cannot be read shows the line that the
fault begins on, and the mark under it stands below the characters that the fault covers. A token that
stands on one line is found on the line of that number, between its columns.

A line is shown without carriage returns at its end. No token ends with one, so none is cut off.

## Main definitions

* `Lexes`: tokens that are read at the front of a text
* `Token.Written`: a word that a token was read from
* `Diagnostic.framed`: a line with its number, and a row under it

## Main results

* `isBlank_last_of_scanLexeme`: no token ends with white space
* `Span.LiesIn.exists_stretch`: what a span covers
* `syntax_reports_mark_text`: the reports on a text and its tokens, by its lines
-/

namespace ScriptLang

open Text

/-! ### The last character of a token -/

theorem exists_last {α : Type} {P : α → Prop} {l : List α} (hne : l ≠ []) (h : ∀ a ∈ l, P a) :
    ∃ front a, l = front ++ [a] ∧ P a :=
  ⟨l.dropLast, l.getLast hne, (List.dropLast_append_getLast hne).symm, h _ (List.getLast_mem hne)⟩

/-- What is taken as a string ends with its quote. -/
theorem quote_last_of_scanString {opened p q : Position} {read text : List Char} {x : Lexeme}
    (h : scanString opened p read text = .ok (x, q, [])) : ∃ front, text = front ++ ['"'] := by
  fun_induction scanString opened p read text with
  | case1 => cases h
  | case2 p read text =>
    cases h
    exact ⟨[], rfl⟩
  | case3 => cases h
  | case4 p read c text d _ ih =>
    obtain ⟨front, rfl⟩ := ih h
    exact ⟨'\\' :: c :: front, rfl⟩
  | case5 => cases h
  | case6 p read c text _ _ _ ih =>
    obtain ⟨front, rfl⟩ := ih h
    exact ⟨c :: front, rfl⟩

/-- What is taken as a number ends with a digit. -/
theorem digit_last_of_scanNumber {p q : Position} {text : List Char} {x : Lexeme} (hne : text ≠ [])
    (h : scanNumber p text = .ok (x, q, [])) :
    ∃ front c, text = front ++ [c] ∧ c.isDigit = true := by
  have hsplit : text.takeWhile Char.isDigit ++ text.dropWhile Char.isDigit = text :=
    List.takeWhile_append_dropWhile
  have hdigits (cs : List Char) : ∀ c ∈ cs.takeWhile Char.isDigit, c.isDigit = true :=
    fun c hc => List.mem_takeWhile_imp hc
  unfold scanNumber at h
  split at h
  · next tail heq =>
    dsimp only at h
    split at h
    · cases (integerLiteral_eq_append h).1
    · next hfraction =>
      have htail : tail.dropWhile Char.isDigit = [] := by
        injection h with h
        exact (Prod.mk.inj (Prod.mk.inj h).2).2
      have hall : tail.takeWhile Char.isDigit = tail := by
        have happend := List.takeWhile_append_dropWhile (p := Char.isDigit) (l := tail)
        rwa [htail, List.append_nil] at happend
      rw [hall] at hfraction
      obtain ⟨front, c, hlast, hc⟩ := exists_last hfraction (hall ▸ hdigits tail)
      refine ⟨text.takeWhile Char.isDigit ++ '.' :: front, c, ?_, hc⟩
      rw [List.append_assoc, List.cons_append, ← hlast, ← heq, hsplit]
  · next hpoint =>
    have hrest := (integerLiteral_eq_append h).1
    rw [← hrest, List.append_nil] at hsplit
    rw [← hsplit] at hne ⊢
    exact exists_last hne (hdigits text)

/-- No token ends with white space. -/
theorem isBlank_last_of_scanLexeme {p q : Position} {c : Char} {text : List Char} {x : Lexeme}
    (h : scanLexeme p c text = .ok (x, q, [])) :
    ∃ front d, c :: text = front ++ [d] ∧ isBlank d = false := by
  unfold scanLexeme at h
  split at h
  · obtain ⟨front, rfl⟩ := quote_last_of_scanString h
    exact ⟨c :: front, '"', rfl, by decide⟩
  split at h
  · obtain ⟨front, d, heq, hd⟩ := digit_last_of_scanNumber (List.cons_ne_nil c text) h
    exact ⟨front, d, heq, (isDigit_apart hd).1⟩
  split at h
  · have hrest : (c :: text).dropWhile isNamePart = [] := by
      injection h with h
      exact (Prod.mk.inj (Prod.mk.inj h).2).2
    have hall : ∀ d ∈ c :: text, isBlank d = false := by
      intro d hd
      rw [Bool.eq_false_iff]
      intro hblank
      have hpart := List.dropWhile_eq_nil_iff.1 hrest d hd
      rw [isNamePart_eq_false_of_isBlank hblank] at hpart
      cases hpart
    exact exists_last (List.cons_ne_nil c text) hall
  split at h
  · next s more hs =>
    cases h
    have hchars := Sign.eq_append_of_scan? hs
    rw [List.append_nil] at hchars
    rw [hchars]
    have hsign : s.chars.all (fun d => !isBlank d) = true := by cases s <;> decide
    have hall : ∀ d ∈ s.chars, isBlank d = false := fun d hd => by
      simpa using List.all_eq_true.1 hsign d hd
    exact exists_last s.chars_ne_nil hall
  · cases h

/-! ### Tokens by their lines -/

/-- The tokens are read at the front of the text, one after the other, whatever comes of the rest. -/
inductive Lexes : Position → List Char → List Token → Prop
  | nil {p : Position} {text : List Char} : Lexes p text []
  | cons {p start stop : Position} {c : Char} {text more rest : List Char} {x : Lexeme}
      {tokens : List Token} : skipTrivia p text = .ok (start, c :: more) →
      scanLexeme start c more = .ok (x, stop, rest) → Lexes stop rest tokens →
      Lexes p text (⟨x, ⟨start, stop⟩⟩ :: tokens)

/-- The word stands in the text where the token does, and by itself is read as the token. -/
structure Token.Written (text word : List Char) (token : Token) : Prop where
  placed : ∃ before rest, text = before ++ word ++ rest ∧
    token.span = ⟨Position.counted before, Position.counted (before ++ word)⟩
  alone : tokenize (String.ofList word) =
    .ok ⟨[⟨token.lexeme, ⟨Position.start, Position.counted word⟩⟩],
      Span.point (Position.counted word)⟩

/-- The tokens of a text are read at its front. -/
theorem lexes_of_tokensFrom {p finish : Position} {text : List Char} {tokens : List Token}
    (h : tokensFrom p text = .ok (tokens, finish)) : Lexes p text tokens := by
  fun_induction tokensFrom p text generalizing tokens finish with
  | case1 => cases h
  | case2 =>
    cases h
    exact .nil
  | case3 => cases h
  | case4 => cases h
  | case5 p text start c rest hskip x stop rest' hscan tokens finish htokens ih =>
    cases h
    exact .cons hskip hscan (ih htokens)

theorem lexes_of_tokenize {source : String} {stream : TokenStream}
    (h : tokenize source = .ok stream) : Lexes Position.start source.toList stream.tokens := by
  obtain ⟨finish, htokens, -⟩ := tokensFrom_of_tokenize h
  exact lexes_of_tokensFrom htokens

/-- The induction is on the tokens; what was read before them is in front of the text. -/
theorem Lexes.written {p : Position} {before text : List Char} {tokens : List Token}
    (h : Lexes p text tokens) (hp : p = Position.counted before) :
    ∀ token ∈ tokens, ∃ front d, token.Written (before ++ text) (front ++ [d]) ∧
      isBlank d = false := by
  induction h generalizing before with
  | nil => exact List.forall_mem_nil _
  | @cons p start stop c text more rest x tokens hskip hscan _ ih =>
    obtain ⟨taken, rfl, rfl⟩ := skipTrivia_eq_append hskip
    obtain ⟨word, rfl, rfl, halone⟩ := scanLexeme_alone hscan
    have hread := tokenize_alone (skips_of_skipTrivia hskip).significant halone
    obtain ⟨front, d, hlast, hd⟩ := isBlank_last_of_scanLexeme (halone Position.start)
    have hstart : p.after taken = Position.counted (before ++ taken) := by
      rw [hp, Position.after_counted]
    have hstop : (p.after taken).after (c :: word) =
        Position.counted (before ++ taken ++ c :: word) := by
      rw [hstart, Position.after_counted]
    refine List.forall_mem_cons.2 ⟨⟨front, d, ⟨⟨before ++ taken, rest, ?_, ?_⟩, ?_⟩, hd⟩, ?_⟩
    · rw [← hlast]
      simp
    · rw [← hlast, ← hstart, ← hstop]
    · rw [← hlast]
      exact hread
    · have hmore := ih hstop
      intro token htoken
      obtain ⟨front', d', hwritten, hd'⟩ := hmore token htoken
      refine ⟨front', d', ?_, hd'⟩
      simpa using hwritten

/-- A stretch without a newline begins and ends on one line. -/
theorem line_eq_iff_unbroken (before stretch : List Char) :
    (Position.counted before).line = (Position.counted (before ++ stretch)).line ↔
      '\n' ∉ stretch := by
  simp [Position.counted, List.count_eq_zero]

/-- A word on one line is found between its columns, since what follows it on the line is all that may
be cut off. -/
theorem Token.Written.exists_line {source : SourceUnit} {token : Token} {front : List Char} {d : Char}
    (h : token.Written source.text.toList (front ++ [d])) (hd : isBlank d = false)
    (hline : token.span.start.line = token.span.stop.line) :
    ∃ left right, source.line? token.span.start.line =
        some (String.ofList (left ++ (front ++ [d]) ++ right)) ∧
      token.span.start.column = left.length + 1 ∧
      token.span.stop.column = left.length + (front ++ [d]).length + 1 := by
  obtain ⟨before, rest, htext, hspan⟩ := h.placed
  rw [hspan, line_eq_iff_unbroken] at hline
  obtain ⟨head, left, right, back, -, -, hisLine, hstart, hstop⟩ := exists_isLine before hline rest
  rw [← htext] at hisLine
  have hreturn : d ≠ '\r' := by
    rintro rfl
    cases hd
  have hkept : dropTrailingReturns (left ++ (front ++ [d]) ++ right) =
      left ++ (front ++ [d]) ++ dropTrailingReturns right := by
    have hdrop := dropTrailingReturns_append hreturn (left ++ front) right
    simpa using hdrop
  refine ⟨left, dropTrailingReturns right, ?_, ?_, ?_⟩
  · rw [hspan, hstart, hisLine.line?, hkept]
  · rw [hspan, hstart]
  · rw [hspan, hstop, Nat.add_right_comm]

/-! ### Reports -/

/-- A span covers what stands between its ends. -/
theorem Span.LiesIn.exists_stretch {text : List Char} {span : Span} (h : span.LiesIn text) :
    ∃ before stretch rest, text = before ++ stretch ++ rest ∧
      span = ⟨Position.counted before, Position.counted (before ++ stretch)⟩ := by
  obtain ⟨start, stop⟩ := span
  obtain ⟨⟨before, hbefore, rfl⟩, ⟨upto, hupto, rfl⟩, hordered⟩ := h
  simp only [Position.after_start] at hordered ⊢
  obtain ⟨stretch, rfl⟩ | ⟨stretch, rfl⟩ := List.prefix_or_prefix_of_prefix hbefore hupto
  · obtain ⟨rest, rfl⟩ := hupto
    exact ⟨before, stretch, rest, rfl, rfl⟩
  · -- A span that would end in front of its beginning is empty.
    have hempty : stretch = [] := by
      by_contra hne
      have hlt := Position.lt_after (Position.counted upto) hne
      rw [Position.after_counted] at hlt
      exact absurd hordered (not_le_of_gt hlt)
    subst hempty
    obtain ⟨rest, rfl⟩ := hbefore
    exact ⟨upto ++ [], [], rest, by simp, by simp⟩

namespace Diagnostic

/-- A line between a margin with its number and a row under it. -/
def framed (number : Nat) (line row : String) : String :=
  let margin := String.ofList (List.replicate (toString number).length ' ')
  s!"\n {margin} |\n {number} | {line}\n {margin} | {row}"

/-- The row under a line: room up to the column where the span begins, and carets. -/
def markRow (span : Span) : String :=
  String.ofList (List.replicate (span.start.column - 1) ' ' ++ List.replicate (caretWidth span) '^')

theorem excerpt_eq_framed (span : Span) (line : String) :
    excerpt span line = framed span.start.line line (markRow span) := by
  simp [excerpt, framed, markRow, ToString.toString, String.append_assoc]

/-- A report against the unit that its fault lies in shows the line. -/
theorem render_of_line? {d : Diagnostic} {source : SourceUnit} {span : Span} {line : String}
    (hunit : d.unit = some source.name) (hspan : d.span = some span)
    (hline : source.line? span.start.line = some line) :
    d.render source = d.heading source ++ framed span.start.line line (markRow span) := by
  rw [render, heading, hspan, hunit]
  simp only [Option.getD_some, if_true, hline, excerpt_eq_framed]

/-- Under a stretch of one line the row has a caret for each of its characters. -/
theorem markRow_stretch {left covered : List Char} {number : Nat} (hcovered : covered ≠ []) :
    markRow ⟨⟨number, left.length + 1⟩, ⟨number, left.length + 1 + covered.length⟩⟩ =
      String.ofList (left.map (fun _ => ' ') ++ covered.map fun _ => '^') := by
  have hpos : 1 ≤ covered.length := List.length_pos_iff.2 hcovered
  have hwidth : caretWidth ⟨⟨number, left.length + 1⟩, ⟨number, left.length + 1 + covered.length⟩⟩ =
      covered.length := by
    rw [caretWidth, if_pos rfl, Nat.add_sub_cancel_left, max_eq_left hpos]
  rw [markRow, hwidth]
  simp

/-- Under a stretch that is empty or goes on behind the line it has one. -/
theorem markRow_single {left : List Char} {span : Span} (hcolumn : span.start.column = left.length + 1)
    (h : span.start.line = span.stop.line → span.start = span.stop) :
    markRow span = String.ofList (left.map (fun _ => ' ') ++ ['^']) := by
  have hwidth : caretWidth span = 1 := by
    rw [caretWidth]
    split
    · next hline => rw [h hline.symm, Nat.sub_self, Nat.zero_max]
    · rfl
  rw [markRow, hwidth, hcolumn]
  simp

end Diagnostic

/-- The line that a span begins on, and the row that marks the span under it. -/
theorem Span.LiesIn.exists_mark {text : List Char} {span : Span} (h : span.LiesIn text) :
    ∃ front left covered right back, IsLine text front (left ++ covered ++ right) back ∧
      span.start = Position.counted (front ++ left) ∧
      span.start = ⟨front.count '\n' + 1, left.length + 1⟩ ∧
      if span.start.line = span.stop.line ∧ span.start ≠ span.stop then
        span.stop = Position.counted (front ++ left ++ covered) ∧
          Diagnostic.markRow span =
            String.ofList (left.map (fun _ => ' ') ++ covered.map fun _ => '^')
      else Diagnostic.markRow span = String.ofList (left.map (fun _ => ' ') ++ ['^']) := by
  obtain ⟨before, stretch, rest, rfl, rfl⟩ := h.exists_stretch
  by_cases hmarked : (Position.counted before).line = (Position.counted (before ++ stretch)).line ∧
      Position.counted before ≠ Position.counted (before ++ stretch)
  · have hunbroken := (line_eq_iff_unbroken before stretch).1 hmarked.1
    have hne : stretch ≠ [] := by
      rintro rfl
      exact hmarked.2 (by rw [List.append_nil])
    obtain ⟨front, left, right, back, rfl, -, hisLine, hstart, hstop⟩ :=
      exists_isLine before hunbroken rest
    refine ⟨front, left, stretch, right, back, hisLine, rfl, hstart, ?_⟩
    rw [if_pos hmarked]
    refine ⟨rfl, ?_⟩
    rw [hstart, hstop]
    exact Diagnostic.markRow_stretch hne
  · obtain ⟨front, left, right, back, rfl, -, hisLine, hstart, -⟩ :=
      exists_isLine before (List.not_mem_nil (a := '\n')) (stretch ++ rest)
    refine ⟨front, left, [], right, back, by simpa using hisLine, rfl, hstart, ?_⟩
    rw [if_neg hmarked]
    refine Diagnostic.markRow_single (congrArg Position.column hstart) fun hline => ?_
    exact not_not.1 fun hne => hmarked ⟨hline, hne⟩

/-- The report on a text shows the line on which its fault begins: what stands between two newlines,
without carriage returns at its end. The fault begins within that line or at its end. If it is a stretch
of the line, the carets stand under its characters; else one caret stands where it begins. -/
def Diagnostic.MarksLine (d : Diagnostic) (source : SourceUnit) : Prop :=
  ∃ span front line back row, d.span = some span ∧ IsLine source.text.toList front line back ∧
    span.start.line = front.count '\n' + 1 ∧
    source.line? span.start.line = some (String.ofList (dropTrailingReturns line)) ∧
    span.start.column - 1 ≤ line.length ∧
    d.render source = d.heading source ++
      framed span.start.line (String.ofList (dropTrailingReturns line)) row ∧
    ∃ left covered right, line = left ++ covered ++ right ∧
      span.start = Position.counted (front ++ left) ∧
      if span.start.line = span.stop.line ∧ span.start ≠ span.stop then
        span.stop = Position.counted (front ++ left ++ covered) ∧
          row = String.ofList (left.map (fun _ => ' ') ++ covered.map fun _ => '^')
      else row = String.ofList (left.map (fun _ => ' ') ++ ['^'])

/-- The word that the token was read from is what stands on the line of its number between its
columns. -/
def Token.OnLine (token : Token) (source : SourceUnit) : Prop :=
  ∃ word left right, token.Written source.text.toList word ∧
    source.line? token.span.start.line = some (String.ofList (left ++ word ++ right)) ∧
    token.span.start.column = left.length + 1 ∧
    token.span.stop.column = left.length + word.length + 1

/-- **Reports point into the text.** If a text cannot be read, the report on it shows a line of it with
the fault marked. As far as it can be read, the tokens that stand on one line are found on it; these
are all tokens of one line, if the whole text can be read. -/
theorem syntax_reports_mark_text (source : SourceUnit) :
    (∀ d, Program.parse source = .error d → d.MarksLine source) ∧
    (∀ tokens, Lexes Position.start source.text.toList tokens → ∀ token ∈ tokens,
      token.span.start.line = token.span.stop.line → token.OnLine source) ∧
    ∀ stream, tokenize source.text = .ok stream →
      Lexes Position.start source.text.toList stream.tokens := by
  refine ⟨fun d hparse => ?_, fun tokens hlexes token htoken hline => ?_,
    fun stream => lexes_of_tokenize⟩
  · obtain ⟨-, hunit, span, hspan, hlies⟩ := Program.parse_error hparse
    obtain ⟨front, left, covered, right, back, hisLine, hcounted, hstart, hmark⟩ := hlies.exists_mark
    have hline : source.line? span.start.line =
        some (String.ofList (dropTrailingReturns (left ++ covered ++ right))) := by
      rw [hstart]
      exact hisLine.line?
    have hcolumn : span.start.column - 1 ≤ (left ++ covered ++ right).length := by
      rw [hstart, Nat.add_sub_cancel, List.length_append, List.length_append]
      omega
    have hrender := Diagnostic.render_of_line? hunit hspan hline
    exact ⟨span, front, left ++ covered ++ right, back, Diagnostic.markRow span, hspan, hisLine,
      congrArg Position.line hstart, hline, hcolumn, hrender, left, covered, right, rfl, hcounted,
      hmark⟩
  · have hbegin : Position.start = Position.counted [] := rfl
    obtain ⟨front, d, hwritten, hd⟩ := hlexes.written hbegin token htoken
    obtain ⟨left, right, hfound, hstart, hstop⟩ := hwritten.exists_line hd hline
    exact ⟨front ++ [d], left, right, hwritten, hfound, hstart, hstop⟩

/-- A text of two lines that end with carriage returns, with an accent, a string that goes on from one
line to the other, and behind it a character that begins no token. -/
def brokenText : SourceUnit := ⟨"main", "é = \"a\r\nb\" @ 1\r\n"⟩

/-- The report on it, and the tokens in front of the fault. -/
theorem syntax_reports_mark_text_broken :
    (∃ d, Program.parse brokenText = .error d ∧ d.render brokenText =
      "LexError: unexpected character '@'\n  --> main:2:4\n   |\n 2 | b\" @ 1\n   |    ^" ∧
      d.MarksLine brokenText) ∧
    ∃ tokens, Lexes Position.start brokenText.text.toList tokens ∧
      tokens.map Token.span = [⟨⟨1, 1⟩, ⟨1, 2⟩⟩, ⟨⟨1, 3⟩, ⟨1, 4⟩⟩, ⟨⟨1, 5⟩, ⟨2, 3⟩⟩] ∧
      ∀ token ∈ tokens.take 2, token.OnLine brokenText := by
  obtain ⟨hreport, htokens, -⟩ := syntax_reports_mark_text brokenText
  refine ⟨?_, ?_⟩
  · have hparsed : ((Program.parse brokenText).map fun _ => ()).mapError (·.render brokenText) =
        .error "LexError: unexpected character '@'\n  --> main:2:4\n   |\n 2 | b\" @ 1\n   |    ^" := by
      decide +kernel
    cases hparse : Program.parse brokenText with
    | ok program =>
      rw [hparse] at hparsed
      cases hparsed
    | error d =>
      rw [hparse] at hparsed
      exact ⟨d, rfl, Except.error.inj hparsed, hreport d hparse⟩
  · have hlexes : Lexes Position.start brokenText.text.toList
        [⟨.name "é", ⟨⟨1, 1⟩, ⟨1, 2⟩⟩⟩, ⟨.sign .assign, ⟨⟨1, 3⟩, ⟨1, 4⟩⟩⟩,
          ⟨.string "a\r\nb", ⟨⟨1, 5⟩, ⟨2, 3⟩⟩⟩] :=
      .cons rfl rfl (.cons rfl rfl (.cons rfl rfl .nil))
    refine ⟨_, hlexes, rfl, fun token htoken => ?_⟩
    refine htokens _ hlexes token (List.mem_of_mem_take htoken) ?_
    have hall : ∀ span ∈ [(⟨⟨1, 1⟩, ⟨1, 2⟩⟩ : Span), ⟨⟨1, 3⟩, ⟨1, 4⟩⟩], span.start.line = span.stop.line := by
      decide
    exact hall token.span (List.mem_map_of_mem htoken)

end ScriptLang
