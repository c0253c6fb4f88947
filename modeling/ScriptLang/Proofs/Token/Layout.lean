import ScriptLang.Proofs.Source.Position
import ScriptLang.Proofs.Token.Spelling

/-!
# Reading back a text that was laid out

Lexemes are written one after another, each in any of its spellings, with white space and comments
around them. After a lexeme the first separating character is a blank, so that a `/` never meets a
comment and a word never meets another. Reading such a text gives the lexemes again.

## Main definitions

* `Trivia`: a blank or a closed comment
* `Gap`: what stands between a lexeme and the next
* `Layout`: a text of spellings and what separates them

## Main results

* `tokensFrom_body`: one spelling after the other is read
* `tokenize_layout`: a laid-out text is read as its lexemes, up to its end
-/

namespace ScriptLang

open Text

/-! ### Separators -/

/-- A piece of text that means nothing: a blank, a comment that a newline ends, or a comment in
delimiters, which holds no closing delimiter. -/
inductive Trivia where
  | blank (c : Char) (isBlank : isBlank c = true)
  | line (body : List Char) (isLine : '\n' ∉ body)
  | block (body : List Char) (isOpen : ¬['*', '/'] <:+: body)

namespace Trivia

/-- The text of a separator. -/
def chars : Trivia → List Char
  | blank c _ => [c]
  | line body _ => '/' :: '/' :: (body ++ ['\n'])
  | block body _ => '/' :: '*' :: (body ++ ['*', '/'])

end Trivia

theorem skipTrivia_cons {p : Position} {c : Char} {rest : List Char} (hc : c ≠ '/') :
    skipTrivia p (c :: rest) =
      if isBlank c then skipTrivia (p.advance c) rest else .ok (p, c :: rest) := by
  rw [skipTrivia]
  · intro tail heq
    exact absurd heq hc
  · intro tail heq
    exact absurd heq hc

theorem skipLine_body {p : Position} {body rest : List Char} (hbody : '\n' ∉ body) :
    skipLine p (body ++ '\n' :: rest) = skipTrivia (p.after (body ++ ['\n'])) rest := by
  induction body generalizing p with
  | nil => simp [skipLine]
  | cons c body ih =>
    rw [List.mem_cons, not_or] at hbody
    rw [List.cons_append, skipLine, if_neg (Ne.symm hbody.1), ih hbody.2]
    rfl

theorem skipBlock_body {opened p : Position} {body rest : List Char}
    (hbody : ¬['*', '/'] <:+: body) :
    skipBlock opened p (body ++ '*' :: '/' :: rest) =
      skipTrivia (p.after (body ++ ['*', '/'])) rest := by
  induction body generalizing p with
  | nil => simp [skipBlock]
  | cons c body ih =>
    have htail : ¬['*', '/'] <:+: body := fun h => hbody (h.trans (List.suffix_cons c body).isInfix)
    rw [List.cons_append, skipBlock, ih htail]
    · rfl
    · -- The delimiter would have to begin in the body, at its first character.
      rintro tail rfl heq
      cases body with
      | nil => cases heq
      | cons d body =>
        rw [List.cons_append, List.cons.injEq] at heq
        apply hbody
        rw [heq.1]
        exact ⟨[], body, rfl⟩

theorem skipTrivia_piece (p : Position) (t : Trivia) (rest : List Char) :
    skipTrivia p (t.chars ++ rest) = skipTrivia (p.after t.chars) rest := by
  cases t with
  | blank c hc =>
    have hslash : c ≠ '/' := by
      rintro rfl
      exact absurd hc (by decide)
    rw [Trivia.chars, List.singleton_append, skipTrivia_cons hslash, if_pos hc]
    rfl
  | line body hbody =>
    simp only [Trivia.chars, List.cons_append, List.append_assoc, List.nil_append]
    rw [skipTrivia, skipLine_body hbody]
    rfl
  | block body hbody =>
    simp only [Trivia.chars, List.cons_append, List.append_assoc, List.nil_append]
    rw [skipTrivia, skipBlock_body hbody]
    rfl

theorem skipTrivia_pieces (p : Position) (ts : List Trivia) (rest : List Char) :
    skipTrivia p (ts.flatMap Trivia.chars ++ rest) =
      skipTrivia (p.after (ts.flatMap Trivia.chars)) rest := by
  induction ts generalizing p with
  | nil => rfl
  | cons t ts ih =>
    rw [List.flatMap_cons, List.append_assoc, skipTrivia_piece, ih, ← Position.after_append]

/-- What stands between a lexeme and the next: separators, of which the first is a blank. -/
structure Gap where
  first : Char
  isBlank : isBlank first = true
  more : List Trivia

/-- The text of a gap. -/
def Gap.chars (g : Gap) : List Char := g.first :: g.more.flatMap Trivia.chars

theorem skipTrivia_gap (p : Position) (g : Gap) (rest : List Char) :
    skipTrivia p (g.chars ++ rest) = skipTrivia (p.after g.chars) rest :=
  skipTrivia_pieces p (.blank g.first g.isBlank :: g.more) rest

/-- A spelling is no separator: before a blank not even a slash begins a comment. -/
theorem skipTrivia_spelling (w : Spelling) (p : Position) {rest : List Char}
    (hrest : BlankFirst rest) :
    skipTrivia p (w.chars ++ rest) = .ok (p, w.chars ++ rest) := by
  obtain ⟨c, cs, hchars, hblank, hsingle⟩ := w.exists_chars_eq_cons
  rw [hchars, List.cons_append]
  by_cases hslash : c = '/'
  · rw [hslash, hsingle hslash, List.nil_append, skipTrivia]
    · rfl
    · -- What follows begins with a blank, so with neither `/` nor `*`.
      rintro tail - rfl
      exact absurd (hrest '/' rfl) (by decide)
    · rintro tail - rfl
      exact absurd (hrest '*' rfl) (by decide)
  · rw [skipTrivia_cons hslash, hblank]
    rfl

/-! ### Tokens -/

theorem tokensFrom_congr {p q : Position} {text text' : List Char}
    (h : skipTrivia p text = skipTrivia q text') : tokensFrom p text = tokensFrom q text' := by
  rw [tokensFrom, tokensFrom]
  grind

/-- The tokens end where only separators are left. -/
theorem tokensFrom_end {p stop : Position} {text : List Char}
    (h : skipTrivia p text = .ok (stop, [])) : tokensFrom p text = .ok ([], stop) := by
  rw [tokensFrom]
  grind

/-- One token after the other. -/
theorem tokensFrom_cons {p start stop finish : Position} {text rest rest' : List Char} {c : Char}
    {lexeme : Lexeme} {tokens : List Token} (hskip : skipTrivia p text = .ok (start, c :: rest))
    (hscan : scanLexeme start c rest = .ok (lexeme, stop, rest'))
    (hrest : tokensFrom stop rest' = .ok (tokens, finish)) :
    tokensFrom p text = .ok (⟨lexeme, ⟨start, stop⟩⟩ :: tokens, finish) := by
  rw [tokensFrom]
  grind

/-- One spelling, one token. -/
theorem tokensFrom_spelling (w : Spelling) {p finish : Position} {rest : List Char}
    {tokens : List Token} (hrest : BlankFirst rest)
    (h : tokensFrom (p.after w.chars) rest = .ok (tokens, finish)) :
    ∃ x, w.Denotes x ∧
      tokensFrom p (w.chars ++ rest) = .ok (⟨x, ⟨p, p.after w.chars⟩⟩ :: tokens, finish) := by
  obtain ⟨c, cs, x, hchars, hdenotes, hscan⟩ := scanLexeme_spelling w p hrest
  have hskip := skipTrivia_spelling w p hrest
  rw [hchars, List.cons_append] at hskip ⊢
  rw [← hchars]
  exact ⟨x, hdenotes, tokensFrom_cons hskip hscan h⟩

/-- A text of spellings. Before the first there may be separators, and after each there is a gap;
only the last may end the text. -/
structure Layout where
  lead : List Trivia
  words : List (Spelling × Gap)
  last : Option Spelling

namespace Layout

/-- The spellings, in order. -/
def spellings (layout : Layout) : List Spelling := layout.words.map Prod.fst ++ layout.last.toList

/-- The text without what stands before the first spelling. -/
def body (layout : Layout) : List Char :=
  layout.words.flatMap (fun word => word.1.chars ++ word.2.chars) ++
    layout.last.toList.flatMap Spelling.chars

/-- The text. -/
def chars (layout : Layout) : List Char := layout.lead.flatMap Trivia.chars ++ layout.body

/-- The text, as it is given to the reader of tokens. -/
def text (layout : Layout) : String := String.ofList layout.chars

end Layout

/-- The induction is on the words: each is followed by its gap, and the gap begins with a blank. -/
theorem tokensFrom_body (lead : List Trivia) (words : List (Spelling × Gap))
    (last : Option Spelling) (p : Position) :
    ∃ tokens, tokensFrom p (Layout.mk lead words last).body =
        .ok (tokens, p.after (Layout.mk lead words last).body) ∧
      List.Forall₂ Spelling.Denotes (Layout.mk lead words last).spellings
        (tokens.map Token.lexeme) := by
  induction words generalizing p with
  | nil =>
    cases last with
    | none => exact ⟨[], tokensFrom_end rfl, .nil⟩
    | some w =>
      -- At the end of the text a lexeme needs no gap.
      have hend : BlankFirst [] := by
        intro c hc
        cases hc
      have hrest : skipTrivia (p.after w.chars) [] = .ok (p.after w.chars, []) := rfl
      obtain ⟨x, hdenotes, htokens⟩ := tokensFrom_spelling w hend (tokensFrom_end hrest)
      rw [List.append_nil] at htokens
      have hbody : (Layout.mk lead [] (some w)).body = w.chars := by simp [Layout.body]
      rw [hbody]
      exact ⟨_, htokens, .cons hdenotes .nil⟩
  | cons word words ih =>
    obtain ⟨w, g⟩ := word
    have hbody : (Layout.mk lead ((w, g) :: words) last).body =
        w.chars ++ (g.chars ++ (Layout.mk lead words last).body) := by
      simp [Layout.body]
    have hgap : BlankFirst (g.chars ++ (Layout.mk lead words last).body) := by
      intro c hc
      cases hc
      exact g.isBlank
    -- The tokens after the gap are those from the gap on.
    obtain ⟨tokens, htokens, hlexemes⟩ := ih ((p.after w.chars).after g.chars)
    rw [← tokensFrom_congr (skipTrivia_gap _ g _)] at htokens
    obtain ⟨x, hdenotes, hall⟩ := tokensFrom_spelling w hgap htokens
    refine ⟨⟨x, ⟨p, p.after w.chars⟩⟩ :: tokens, ?_, .cons hdenotes hlexemes⟩
    rw [hbody, hall, Position.after_append, Position.after_append]

/-- Spellings are those of one list of lexemes. -/
theorem Spelling.forall₂_unique {words : List Spelling} {xs ys : List Lexeme}
    (hxs : List.Forall₂ Denotes words xs) (hys : List.Forall₂ Denotes words ys) : xs = ys := by
  induction hxs generalizing ys with
  | nil =>
    cases hys
    rfl
  | cons hx _ ih =>
    cases hys with
    | cons hy hys => rw [hx.unique hy, ih hys]

/-- **A text that was laid out is read as the lexemes that were written**, whatever the spellings and the
separators: each token is what its spelling denotes, no other lexemes are what the spellings denote, and
the reading ends at the end of the text. Every string can be written. -/
theorem tokenize_layout :
    (∀ layout : Layout, ∃ tokens,
      tokenize layout.text = .ok ⟨tokens, Span.point (Position.counted layout.chars)⟩ ∧
        List.Forall₂ Spelling.Denotes layout.spellings (tokens.map Token.lexeme) ∧
        ∀ lexemes, List.Forall₂ Spelling.Denotes layout.spellings lexemes →
          lexemes = tokens.map Token.lexeme) ∧
    ∀ s : String, ∃ items, Spelling.Denotes (.string items) (.string s) := by
  refine ⟨fun layout => ?_, Spelling.exists_string⟩
  obtain ⟨lead, words, last⟩ := layout
  obtain ⟨tokens, htokens, hlexemes⟩ :=
    tokensFrom_body lead words last (Position.start.after (lead.flatMap Trivia.chars))
  rw [← tokensFrom_congr (skipTrivia_pieces _ lead _)] at htokens
  refine ⟨tokens, ?_, hlexemes, fun _ h => Spelling.forall₂_unique h hlexemes⟩
  rw [tokenize, Layout.text, String.toList_ofList, Layout.chars, htokens, ← Position.after_append,
    Position.after_start]

/-- A single space. -/
def Gap.space : Gap := ⟨' ', by decide, []⟩

/-- Every reserved word and every sign, a string with every escape and a newline as it is, a fraction that
is no double, an integer with zeros in front, and a name behind comments. -/
def Layout.everyKind : Layout where
  lead := [.block ['*'] (by decide), .blank '\t' (by decide)]
  words :=
    (Keyword.all.map Spelling.keyword ++ Sign.all.map Spelling.sign ++
      [Spelling.string [.escape 'n' '\n' (by decide), .escape 't' '\t' (by decide),
          .escape 'r' '\r' (by decide), .escape '0' '\x00' (by decide),
          .escape '\\' '\\' (by decide), .escape '"' '"' (by decide), .raw '/' (by decide),
          .raw '\n' (by decide)],
        Spelling.float ['0'] ['1'] (by decide) (by decide) (List.all_eq_true.1 (by decide))
          (List.all_eq_true.1 (by decide))]).map (·, .space) ++
      [(.int ['0', '0', '7'] (by decide) (List.all_eq_true.1 (by decide)) (by decide),
        ⟨' ', by decide, [.line ['"'] (by decide), .block ['/'] (by decide)]⟩)]
  last := some (.name 'b' ['a', 'g', 's'] (.inl (isLetter_of_isAlpha (by decide)))
    (fun c hc => .inl (isLetter_of_isAlpha
      (List.all_eq_true.1 (by decide : ['a', 'g', 's'].all Char.isAlpha = true) c hc)))
    fun k => by cases k <;> decide)

/-- All kinds of tokens in one text. The closest double to a tenth is a little more than it. -/
theorem tokenize_layout_everyKind :
    ∃ tokens,
      tokenize ("/***/\tbag load fx clx return if else true false nil self " ++
        "== = != ! <= < >= > && || + - * / % ( ) \x7b \x7d , . ; " ++
        "\"\\n\\t\\r\\0\\\\\\\"/\n\" 0.1 007 //\"\n/*/*/bags") = .ok ⟨tokens, Span.point ⟨3, 10⟩⟩ ∧
      tokens.map Token.lexeme =
        [.keyword .bag, .keyword .load, .keyword .fx, .keyword .clx, .keyword .returnWord,
          .keyword .ifWord, .keyword .elseWord, .keyword .trueWord, .keyword .falseWord,
          .keyword .nilWord, .keyword .selfWord, .sign .equal, .sign .assign, .sign .notEqual,
          .sign .bang, .sign .lessEqual, .sign .less, .sign .greaterEqual, .sign .greater,
          .sign .andAnd, .sign .orOr, .sign .plus, .sign .minus, .sign .star, .sign .slash,
          .sign .percent, .sign .leftParen, .sign .rightParen, .sign .leftBrace, .sign .rightBrace,
          .sign .comma, .sign .dot, .sign .semicolon, .string "\n\t\r\x00\\\"/\n",
          .float (Float.ofBits 0x3FB999999999999A), .int 7, .name "bags"] := by
  obtain ⟨tokens, htokens, -, hunique⟩ := tokenize_layout.1 Layout.everyKind
  have hfinish : Position.counted Layout.everyKind.chars = ⟨3, 10⟩ := by decide +kernel
  rw [hfinish] at htokens
  have hkeywords : List.Forall₂ Spelling.Denotes (Keyword.all.map Spelling.keyword)
      (Keyword.all.map Lexeme.keyword) := by
    rw [List.forall₂_map_left_iff, List.forall₂_map_right_iff, List.forall₂_same]
    exact fun k _ => .keyword k
  have hsigns : List.Forall₂ Spelling.Denotes (Sign.all.map Spelling.sign)
      (Sign.all.map Lexeme.sign) := by
    rw [List.forall₂_map_left_iff, List.forall₂_map_right_iff, List.forall₂_same]
    exact fun s _ => .sign s
  have htenth : IsNearest (fractionValue ['0'] ['1']) (Float.ofBits 0x3FB999999999999A) :=
    floatOfDigits_isNearest ['0'] (by decide)
  have hseven : (7 : Int64).toInt = placeValue ['0', '0', '7'] := by decide
  have hothers : List.Forall₂ Spelling.Denotes
      (Layout.everyKind.spellings.drop (Keyword.all.length + Sign.all.length))
      [.string "\n\t\r\x00\\\"/\n", .float (Float.ofBits 0x3FB999999999999A), .int 7,
        .name "bags"] :=
    .cons (.string _) (.cons (.float htenth) (.cons (.int hseven) (.cons .name .nil)))
  refine ⟨tokens, (congrArg tokenize ?_).trans htokens,
    (hunique _ (List.rel_append hkeywords (List.rel_append hsigns hothers))).symm⟩
  decide +kernel

end ScriptLang
