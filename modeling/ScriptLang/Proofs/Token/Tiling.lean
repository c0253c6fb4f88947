import Mathlib.Data.List.TakeWhile
import ScriptLang.Proofs.Source.Position
import ScriptLang.Proofs.Token.Separators

/-!
# Tokens tile the text they were read from

A text that can be read is cut, without a rest, into separators and one word for each token. A token's
span is counted from the start of the text over all that stands in front of its word, and ends past the
word; the word by itself reads as that token.

## Main definitions

* `ItemsEnd`: what stops the reading of a string
* `Tile`: a word with the separators in front of it
* `Tiling`: a text cut into tiles and an ending
* `Tile.Yields`, `Tiled`: which token a tile gives at its place, and which tokens a row of tiles

## Main results

* `scanLexeme_cut`: what a scanner takes it takes also when less follows
* `tokenize_tiles`: the tiling of a text that can be read
-/

namespace ScriptLang

open Text

/-! ### A word with less behind it

What ends a token is what follows it, or that nothing does: each scanner stops in the same way where the
text is cut behind the token. -/

/-- What begins a text begins what is left of it by a cut. -/
theorem head?_of_isPrefix {α : Type} {less rest : List α} (h : less <+: rest) :
    ∀ a ∈ less.head?, a ∈ rest.head? := by
  obtain ⟨tail, rfl⟩ := h
  intro a ha
  cases less with
  | nil => cases ha
  | cons b less => exact ha

/-- What a class of characters leaves begins with no character of the class. -/
theorem head?_dropWhile_eq_false {class' : Char → Bool} {text : List Char} :
    ∀ c ∈ (text.dropWhile class').head?, class' c = false := by
  intro c hc
  have hhead := List.head?_dropWhile_not class' text
  rw [Option.mem_def] at hc
  rwa [hc] at hhead

/-- Where the items of a string end: at a quote, at the end of the text, or at a backslash that makes
no item. -/
inductive ItemsEnd : List Char → Prop
  | quote (rest : List Char) : ItemsEnd ('"' :: rest)
  | nothing : ItemsEnd []
  | lastBackslash : ItemsEnd ['\\']
  | noEscape (c : Char) (rest : List Char) (h : ∀ d, (c, d) ∉ escapes) : ItemsEnd ('\\' :: c :: rest)

theorem exists_items_append (text : List Char) :
    ∃ (items : List StringItem) (rest : List Char),
      text = items.flatMap StringItem.chars ++ rest ∧ ItemsEnd rest := by
  match text with
  | [] => exact ⟨[], [], rfl, .nothing⟩
  | c :: text =>
    by_cases hquote : c = '"'
    · subst hquote
      exact ⟨[], _, rfl, .quote text⟩
    by_cases hslash : c = '\\'
    · subst hslash
      cases text with
      | nil => exact ⟨[], _, rfl, .lastBackslash⟩
      | cons c text =>
        cases hc : escaped? c with
        | none => exact ⟨[], _, rfl, .noEscape c text (escaped?_eq_none_iff.1 hc)⟩
        | some d =>
          obtain ⟨items, rest, rfl, hend⟩ := exists_items_append text
          exact ⟨.escape c d (escaped?_eq_some_iff.1 hc) :: items, rest, rfl, hend⟩
    · obtain ⟨items, rest, rfl, hend⟩ := exists_items_append text
      exact ⟨.raw c ⟨hquote, hslash⟩ :: items, rest, rfl, hend⟩

theorem scanString_cut {opened p q : Position} {read text rest : List Char} {x : Lexeme}
    (h : scanString opened p read text = .ok (x, q, rest)) :
    ∃ taken, text = taken ++ rest ∧ q = p.after taken ∧ ∀ opened' p' less,
      scanString opened' p' read (taken ++ less) = .ok (x, p'.after taken, less) := by
  obtain ⟨items, rest', rfl, hend⟩ := exists_items_append text
  rw [scanString_items] at h
  cases hend with
  | quote rest' =>
    cases h
    refine ⟨items.flatMap StringItem.chars ++ ['"'], ?_, ?_, fun opened' p' less => ?_⟩
    · rw [List.append_assoc, List.singleton_append]
    · rw [Position.after_append]
      rfl
    · rw [List.append_assoc, scanString_items, Position.after_append]
      rfl
  | nothing => cases h
  | lastBackslash => cases h
  | noEscape c rest' hc =>
    rw [scanString, escaped?_eq_none_iff.2 hc] at h
    cases h

theorem integerLiteral_cut {p q : Position} {digits rest rest' : List Char} {x : Lexeme}
    (h : integerLiteral p digits rest = .ok (x, q, rest')) (p' : Position) (less : List Char) :
    integerLiteral p' digits less = .ok (x, p'.after digits, less) := by
  unfold integerLiteral at h ⊢
  split at h
  · cases h
    rfl
  · cases h

theorem EndsInteger.of_isPrefix {less rest : List Char} (h : EndsInteger rest)
    (hless : less <+: rest) : EndsInteger less where
  noDigit c hc := h.noDigit c (head?_of_isPrefix hless c hc)
  noFraction c more hpoint := by
    obtain ⟨tail, rfl⟩ := hless
    exact h.noFraction c (more ++ tail) (by rw [hpoint]; rfl)

/-- A number is an integer, or digits with a point and more digits behind them. -/
theorem scanNumber_cases (p : Position) (text : List Char) :
    (∃ digits rest, text = digits ++ rest ∧ text.takeWhile Char.isDigit = digits ∧
      EndsInteger rest ∧ scanNumber p text = integerLiteral p digits rest) ∨
    ∃ whole fraction rest, text = whole ++ '.' :: (fraction ++ rest) ∧
      text.takeWhile Char.isDigit = whole ∧ (∀ c ∈ fraction, c.isDigit = true) ∧ fraction ≠ [] ∧
      ∀ c ∈ rest.head?, c.isDigit = false := by
  have hsplit := List.takeWhile_append_dropWhile (p := Char.isDigit) (l := text)
  have hdigits (cs : List Char) : ∀ c ∈ cs.takeWhile Char.isDigit, c.isDigit = true :=
    fun c hc => List.mem_takeWhile_imp hc
  by_cases hpoint : ∃ c more, text.dropWhile Char.isDigit = '.' :: c :: more ∧ c.isDigit = true
  · obtain ⟨c, more, hdrop, hc⟩ := hpoint
    refine .inr ⟨_, (c :: more).takeWhile Char.isDigit, (c :: more).dropWhile Char.isDigit, ?_, rfl,
      hdigits _, by simp [hc], head?_dropWhile_eq_false⟩
    rw [List.takeWhile_append_dropWhile, ← hdrop, hsplit]
  · have hends : EndsInteger (text.dropWhile Char.isDigit) := by
      refine ⟨head?_dropWhile_eq_false, fun c more hdrop => ?_⟩
      rw [Bool.eq_false_iff]
      exact fun hc => hpoint ⟨c, more, hdrop, hc⟩
    have hscan := scanNumber_integer (p := p) (hdigits text) hends
    rw [hsplit] at hscan
    exact .inl ⟨_, _, hsplit.symm, rfl, hends, hscan⟩

/-- A number is its first digits and perhaps more. -/
theorem scanNumber_cut {p q : Position} {text rest : List Char} {x : Lexeme}
    (h : scanNumber p text = .ok (x, q, rest)) :
    ∃ more, text = text.takeWhile Char.isDigit ++ more ++ rest ∧
      q = p.after (text.takeWhile Char.isDigit ++ more) ∧ ∀ p' less, less <+: rest →
        scanNumber p' (text.takeWhile Char.isDigit ++ more ++ less) =
          .ok (x, p'.after (text.takeWhile Char.isDigit ++ more), less) := by
  have hdigits : ∀ c ∈ text.takeWhile Char.isDigit, c.isDigit = true :=
    fun c hc => List.mem_takeWhile_imp hc
  obtain ⟨digits, rest', htext, hdigitsEq, hends, hscan⟩ |
    ⟨whole, fraction, rest', htext, hwhole, hfraction, hne, hrest⟩ := scanNumber_cases p text
  · rw [hscan] at h
    obtain ⟨rfl, rfl⟩ := integerLiteral_eq_append h
    rw [hdigitsEq] at hdigits ⊢
    refine ⟨[], ?_, ?_, fun p' less hless => ?_⟩
    · rw [List.append_nil]
      exact htext
    · rw [List.append_nil]
    · rw [List.append_nil, scanNumber_integer hdigits (hends.of_isPrefix hless)]
      exact integerLiteral_cut h p' less
  · rw [hwhole] at hdigits ⊢
    rw [htext, scanNumber_fraction hdigits hne hfraction hrest] at h
    cases h
    refine ⟨'.' :: fraction, ?_, rfl, fun p' less hless => ?_⟩
    · rw [htext, List.append_assoc, List.cons_append]
    · have hless' : ∀ c ∈ less.head?, c.isDigit = false :=
        fun c hc => hrest c (head?_of_isPrefix hless c hc)
      rw [List.append_assoc, List.cons_append]
      exact scanNumber_fraction hdigits hne hfraction hless'

/-- A word is its characters up to the first that is in none. -/
theorem scanWord_cut (p : Position) {text less : List Char}
    (hless : less <+: text.dropWhile isNamePart) :
    scanWord p (text.takeWhile isNamePart ++ less) =
      ((scanWord p text).1, p.after (text.takeWhile isNamePart), less) := by
  have hparts : ∀ c ∈ text.takeWhile isNamePart, isNamePart c = true :=
    fun c hc => List.mem_takeWhile_imp hc
  obtain ⟨htake, hdrop⟩ := takeWhile_append_of_head? hparts fun c hc =>
    head?_dropWhile_eq_false c (head?_of_isPrefix hless c hc)
  simp only [scanWord, htake, hdrop]

/-- The sign at the front is the first of all that the text begins with, and with less behind it the
text begins with fewer. -/
theorem Sign.scan?_cut {text rest less : List Char} {s : Sign} (h : Sign.scan? text = some (s, rest))
    (hless : less <+: rest) : Sign.scan? (s.chars ++ less) = some (s, less) := by
  obtain ⟨tail, rfl⟩ := hless
  have htext := Sign.eq_append_of_scan? h
  simp only [Sign.scan?, Option.map_eq_some_iff, Prod.mk.injEq] at h ⊢
  obtain ⟨s', hs, rfl, -⟩ := h
  obtain ⟨-, before, after, hall, hbefore⟩ := List.find?_eq_some_iff_append.1 hs
  refine ⟨s', List.find?_eq_some_iff_append.2 ⟨?_, before, after, hall, fun s hmem => ?_⟩, rfl, ?_⟩
  · exact List.isPrefixOf_iff_prefix.2 ⟨less, rfl⟩
  · have hnot := hbefore s hmem
    rw [Bool.not_eq_true'] at hnot ⊢
    rw [Bool.eq_false_iff] at hnot ⊢
    intro hbegins
    refine hnot (List.isPrefixOf_iff_prefix.2 ((List.isPrefixOf_iff_prefix.1 hbegins).trans ?_))
    exact ⟨tail, by rw [htext, List.append_assoc]⟩
  · exact List.drop_left

/-- What is taken as a token is taken as the same token when less follows it, wherever it stands. -/
theorem scanLexeme_cut {p q : Position} {c : Char} {text rest : List Char} {x : Lexeme}
    (h : scanLexeme p c text = .ok (x, q, rest)) :
    ∃ taken, text = taken ++ rest ∧ q = p.after (c :: taken) ∧ ∀ p' less, less <+: rest →
      scanLexeme p' c (taken ++ less) = .ok (x, p'.after (c :: taken), less) := by
  unfold scanLexeme at h
  split at h
  · next hquote =>
    obtain ⟨taken, rfl, rfl, hcut⟩ := scanString_cut h
    refine ⟨taken, rfl, rfl, fun p' less _ => ?_⟩
    rw [scanLexeme, if_pos hquote]
    exact hcut p' _ less
  split at h
  · next hdigit =>
    obtain ⟨more, htext, rfl, hcut⟩ := scanNumber_cut h
    rw [List.takeWhile_cons_of_pos hdigit] at htext hcut ⊢
    refine ⟨text.takeWhile Char.isDigit ++ more, List.cons.inj htext |>.2, rfl,
      fun p' less hless => ?_⟩
    rw [scanLexeme_number hdigit]
    exact hcut p' less hless
  split at h
  · next hquote hdigit hstart =>
    have hpart : isNamePart c = true := isNamePart_of_isNameStart hstart
    have hcut (p' : Position) {less : List Char}
        (hless : less <+: (c :: text).dropWhile isNamePart) := scanWord_cut p' hless
    rw [List.takeWhile_cons_of_pos hpart, List.dropWhile_cons_of_pos hpart] at hcut
    simp only [scanWord, List.takeWhile_cons_of_pos hpart, List.dropWhile_cons_of_pos hpart] at h
    cases h
    refine ⟨text.takeWhile isNamePart, List.takeWhile_append_dropWhile.symm, rfl,
      fun p' less hless => ?_⟩
    rw [scanLexeme, if_neg hquote, if_neg hdigit, if_pos hstart, ← List.cons_append, hcut p' hless]
    simp only [scanWord, List.takeWhile_cons_of_pos hpart]
  · next hquote hdigit hstart =>
    split at h
    · next s more hs =>
      cases h
      have hcut {less : List Char} (hless : less <+: rest) := Sign.scan?_cut hs hless
      obtain ⟨d, ds, hchars⟩ := List.exists_cons_of_ne_nil s.chars_ne_nil
      have htext := Sign.eq_append_of_scan? hs
      rw [hchars] at hcut
      rw [hchars, List.cons_append] at htext
      obtain ⟨rfl, rfl⟩ := List.cons.inj htext
      refine ⟨ds, rfl, by rw [hchars], fun p' less hless => ?_⟩
      rw [scanLexeme, if_neg hquote, if_neg hdigit, if_neg hstart, ← List.cons_append, hcut hless]
      simp only [hchars]
    · cases h

/-- What is taken as a token is taken as the same token when nothing follows it. -/
theorem scanLexeme_alone {p q : Position} {c : Char} {text rest : List Char} {x : Lexeme}
    (h : scanLexeme p c text = .ok (x, q, rest)) :
    ∃ taken, text = taken ++ rest ∧ q = p.after (c :: taken) ∧
      ∀ p', scanLexeme p' c taken = .ok (x, p'.after (c :: taken), []) := by
  obtain ⟨taken, htext, hq, hcut⟩ := scanLexeme_cut h
  refine ⟨taken, htext, hq, fun p' => ?_⟩
  have halone := hcut p' [] List.nil_prefix
  rwa [List.append_nil] at halone

/-! ### Tiles -/

/-- A word with the separators in front of it. -/
structure Tile where
  gap : List Trivia
  word : List Char

/-- The text of a tile. -/
def Tile.chars (t : Tile) : List Char := t.gap.flatMap Trivia.chars ++ t.word

/-- A text cut into words, what stands in front of each, and what stands behind the last. -/
structure Tiling where
  tiles : List Tile
  ending : Ending

/-- The text that is cut. -/
def Tiling.chars (t : Tiling) : List Char := t.tiles.flatMap Tile.chars ++ t.ending.chars

/-- A tile gives a token where it stands behind the text `front`: the token stands where the word does,
counted from the start of the text, and is what the word reads as by itself. -/
structure Tile.Yields (front : List Char) (tile : Tile) (token : Token) : Prop where
  nonempty : tile.word ≠ []
  start : token.span.start = Position.counted (front ++ tile.gap.flatMap Trivia.chars)
  stop : token.span.stop = Position.counted (front ++ tile.chars)
  alone : tokenize (String.ofList tile.word) =
    .ok ⟨[⟨token.lexeme, ⟨Position.start, Position.counted tile.word⟩⟩],
      Span.point (Position.counted tile.word)⟩

/-- One tile, one token, each behind the tiles before it. -/
inductive Tiled : List Char → List Tile → List Token → Prop
  | nil {front : List Char} : Tiled front [] []
  | cons {front : List Char} {tile : Tile} {tiles : List Tile} {token : Token} {tokens : List Token}
      (first : tile.Yields front token) (more : Tiled (front ++ tile.chars) tiles tokens) :
      Tiled front (tile :: tiles) (token :: tokens)

/-- What is taken as a token begins with no separator, so by itself it is the one token of its text. -/
theorem tokenize_alone {c : Char} {taken rest : List Char} {x : Lexeme}
    (hstart : Significant (c :: (taken ++ rest)))
    (halone : ∀ p, scanLexeme p c taken = .ok (x, p.after (c :: taken), [])) :
    tokenize (String.ofList (c :: taken)) =
      .ok ⟨[⟨x, ⟨Position.start, Position.counted (c :: taken)⟩⟩],
        Span.point (Position.counted (c :: taken))⟩ := by
  have htaken : c :: taken <+: c :: (taken ++ rest) := ⟨rest, rfl⟩
  have hskip := (hstart.of_isPrefix htaken).skipTrivia Position.start
  have htokens := tokensFrom_cons hskip (halone _) (tokensFrom_end rfl)
  rw [tokenize, String.toList_ofList, htokens, Position.after_start]

/-- The induction is on the tokens; each tile goes behind the text that was read before it. -/
theorem tokensFrom_tiled {front text : List Char} {tokens : List Token} {p finish : Position}
    (hp : p = Position.counted front) (h : tokensFrom p text = .ok (tokens, finish)) :
    ∃ tiling : Tiling, tiling.chars = text ∧ Tiled front tiling.tiles tokens ∧
      finish = Position.counted (front ++ text) := by
  fun_induction tokensFrom p text generalizing front tokens finish with
  | case1 => cases h
  | case2 p text stop hskip =>
    cases h
    obtain ⟨taken, htaken, rfl⟩ := skipTrivia_eq_append hskip
    obtain ⟨ending, hending⟩ := (skips_of_skipTrivia hskip).exists_ending
    refine ⟨⟨[], ending⟩, hending.symm, .nil, ?_⟩
    rw [htaken, List.append_nil, hp, Position.after_counted]
  | case3 => cases h
  | case4 => cases h
  | case5 p text start c rest hskip lexeme stop rest' hscan tokens finish htokens ih =>
    cases h
    obtain ⟨gap, hgap, rfl, hstart⟩ := exists_gap_of_skipTrivia hskip
    obtain ⟨more, rfl, rfl, halone⟩ := scanLexeme_alone hscan
    have hword := tokenize_alone hstart halone
    have hfront : (p.after (gap.flatMap Trivia.chars)).after (c :: more) =
        Position.counted (front ++ (Tile.mk gap (c :: more)).chars) := by
      rw [Tile.chars, hp, Position.after_counted, Position.after_counted, List.append_assoc]
    obtain ⟨tiling, hchars, htiled, hfinish⟩ := ih hfront htokens
    refine ⟨⟨⟨gap, c :: more⟩ :: tiling.tiles, tiling.ending⟩, ?_, .cons ?_ htiled, ?_⟩
    · rw [hgap, ← hchars]
      simp [Tiling.chars, Tile.chars]
    · exact ⟨List.cons_ne_nil _ _, by rw [hp, Position.after_counted], hfront, hword⟩
    · rw [hfinish, hgap, Tile.chars]
      simp

/-- A token takes up room. -/
theorem Tile.Yields.start_lt_stop {front : List Char} {tile : Tile} {token : Token}
    (h : tile.Yields front token) : token.span.start < token.span.stop := by
  rw [h.start, h.stop, Tile.chars, ← List.append_assoc, ← Position.after_counted _ tile.word]
  exact Position.lt_after _ h.nonempty

namespace Tiled

variable {front : List Char} {tiles : List Tile} {tokens : List Token}

theorem start_lt_stop (h : Tiled front tiles tokens) :
    ∀ token ∈ tokens, token.span.start < token.span.stop := by
  induction h with
  | nil => exact List.forall_mem_nil _
  | cons first _ ih => exact List.forall_mem_cons.2 ⟨first.start_lt_stop, ih⟩

/-- What stands behind a text begins where the text ends, or later. -/
theorem le_start (h : Tiled front tiles tokens) :
    ∀ token ∈ tokens, Position.counted front ≤ token.span.start := by
  induction h with
  | nil => exact List.forall_mem_nil _
  | @cons front tile _ _ _ first _ ih =>
    refine List.forall_mem_cons.2 ⟨?_, fun token htoken => ?_⟩
    · rw [first.start, ← Position.after_counted]
      exact Position.le_after _ _
    · have hle : Position.counted front ≤ Position.counted (front ++ tile.chars) := by
        rw [← Position.after_counted]
        exact Position.le_after _ _
      exact hle.trans (ih token htoken)

/-- No token begins before the one in front of it has ended. -/
theorem pairwise_le (h : Tiled front tiles tokens) :
    tokens.Pairwise fun a b => a.span.stop ≤ b.span.start := by
  induction h with
  | nil => exact .nil
  | cons first more ih =>
    refine .cons (fun token htoken => ?_) ih
    rw [first.stop]
    exact more.le_start token htoken

end Tiled

/-- A text that can be read is cut, with nothing left over, into separators and one word for each
token. Each token stands where its word does and is what its word reads as by itself; the end is
reported at the end of the text. So tokens follow each other and do not overlap. -/
theorem tokenize_tiles {source : String} {stream : TokenStream} (h : tokenize source = .ok stream) :
    (∃ tiling : Tiling, tiling.chars = source.toList ∧ Tiled [] tiling.tiles stream.tokens) ∧
      stream.finish = Span.point (Position.counted source.toList) ∧
      (∀ token ∈ stream.tokens, token.span.start < token.span.stop) ∧
      stream.tokens.Pairwise fun a b => a.span.stop ≤ b.span.start := by
  obtain ⟨finish, htokens, hfinish⟩ := tokensFrom_of_tokenize h
  have hstart : Position.start = Position.counted [] := rfl
  obtain ⟨tiling, hchars, htiled, rfl⟩ := tokensFrom_tiled hstart htokens
  exact ⟨⟨tiling, hchars, htiled⟩, hfinish, htiled.start_lt_stop, htiled.pairwise_le⟩

/-- A comment, a string of two lines with an accent in it, a sign and a number without room between
them, and a comment that nothing closes. -/
theorem tokenize_tiles_lines :
    ∃ stream, tokenize "a//b\n\"é\nd\" /*e*/+1//" = .ok stream ∧
      stream.tokens.map Token.span = [⟨⟨1, 1⟩, ⟨1, 2⟩⟩, ⟨⟨2, 1⟩, ⟨3, 3⟩⟩, ⟨⟨3, 9⟩, ⟨3, 10⟩⟩,
        ⟨⟨3, 10⟩, ⟨3, 11⟩⟩] ∧
      (∃ tiling : Tiling, tiling.chars = "a//b\n\"é\nd\" /*e*/+1//".toList ∧
        Tiled [] tiling.tiles stream.tokens) ∧
      stream.finish = Span.point (Position.counted "a//b\n\"é\nd\" /*e*/+1//".toList) ∧
      (∀ token ∈ stream.tokens, token.span.start < token.span.stop) ∧
      stream.tokens.Pairwise fun a b => a.span.stop ≤ b.span.start := by
  have htokens : tokenize "a//b\n\"é\nd\" /*e*/+1//" = .ok ⟨[⟨.name "a", ⟨⟨1, 1⟩, ⟨1, 2⟩⟩⟩,
      ⟨.string "é\nd", ⟨⟨2, 1⟩, ⟨3, 3⟩⟩⟩, ⟨.sign .plus, ⟨⟨3, 9⟩, ⟨3, 10⟩⟩⟩,
      ⟨.int 1, ⟨⟨3, 10⟩, ⟨3, 11⟩⟩⟩], ⟨⟨3, 13⟩, ⟨3, 13⟩⟩⟩ := by
    rw [tokenize, tokensFrom_cons rfl rfl (tokensFrom_cons rfl rfl (tokensFrom_cons rfl rfl
      (tokensFrom_cons rfl rfl (tokensFrom_end rfl))))]
    rfl
  exact ⟨_, htokens, rfl, tokenize_tiles htokens⟩

end ScriptLang
