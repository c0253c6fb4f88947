import ScriptLang.Proofs.Token.Tiling

/-!
# Where a text is refused

A text that cannot be read is refused at the first place where no token begins. What stands in front of
that place can be read by itself, and what stands from there on is refused by itself too, for the same
fault.

The report covers what there is of the token, so it begins where the text stops making sense, but for two
faults inside a string. An escape that means nothing is reported at its backslash, and so is a backslash
that ends the text, although what is wrong then is that the string is open.

## Main definitions

* `Malformed`: a text that no token begins, the fault, and what its report covers

## Main results

* `Malformed.tokenize_eq`: a text that no token begins is refused
* `tokenize_malformed`: a text that is refused is one that can be read, and then no token
-/

namespace ScriptLang

open Text

/-- No token begins a text. The report of the fault covers `marked`, which stands behind `lead`. -/
inductive Malformed : (text lead marked : List Char) → Fault → Prop
  /-- The text ends in a string. -/
  | openString (items : List StringItem) :
      Malformed ('"' :: items.flatMap StringItem.chars) []
        ('"' :: items.flatMap StringItem.chars) .unterminatedString
  /-- The text ends in an escape. -/
  | lastBackslash (items : List StringItem) :
      Malformed ('"' :: (items.flatMap StringItem.chars ++ ['\\']))
        ('"' :: items.flatMap StringItem.chars) ['\\'] .unterminatedString
  | noEscape (items : List StringItem) (c : Char) (rest : List Char) (hc : ∀ d, (c, d) ∉ escapes) :
      Malformed ('"' :: (items.flatMap StringItem.chars ++ '\\' :: c :: rest))
        ('"' :: items.flatMap StringItem.chars) ['\\', c] (.invalidEscape c)
  /-- The text ends in a comment. -/
  | openBlock (body : List Char) (isOpen : ¬['*', '/'] <:+: body) :
      Malformed ('/' :: '*' :: body) [] ('/' :: '*' :: body) .unterminatedComment
  | outOfRange (digits rest : List Char) (nonempty : digits ≠ [])
      (areDigits : ∀ c ∈ digits, c.isDigit = true) (ends : EndsInteger rest)
      (tooLarge : Int64.maxValue.toInt < natOfDigits digits) :
      Malformed (digits ++ rest) [] digits (.integerLiteralRange (String.ofList digits))
  | stray (c : Char) (rest : List Char) (notBlank : isBlank c = false) (notQuote : c ≠ '"')
      (notDigit : c.isDigit = false) (notStart : isNameStart c = false)
      (notSign : ∀ s : Sign, ¬s.chars <+: c :: rest) :
      Malformed (c :: rest) [] [c] (.unexpectedCharacter c)

/-! ### What the scanners refuse -/

theorem integerLiteral_outOfRange {p : Position} {digits rest : List Char}
    (h : Int64.maxValue.toInt < natOfDigits digits) :
    integerLiteral p digits rest =
      .error ((Fault.integerLiteralRange (String.ofList digits)).at ⟨p, p.after digits⟩) := by
  rw [integerLiteral, int64OfInt?_eq_none_iff.2 (.inr h)]

/-- Digits denote no negative number, so those that denote no integer denote too large a one. -/
theorem exists_of_integerLiteral_error {p : Position} {digits rest : List Char} {d : Diagnostic}
    (h : integerLiteral p digits rest = .error d) :
    Int64.maxValue.toInt < natOfDigits digits ∧
      d = (Fault.integerLiteralRange (String.ofList digits)).at ⟨p, p.after digits⟩ := by
  unfold integerLiteral at h
  split at h
  · cases h
  · next hnone =>
    cases h
    have hmin : Int64.minValue.toInt = -9223372036854775808 := Int64.toInt_minValue
    refine ⟨(int64OfInt?_eq_none_iff.1 hnone).resolve_left ?_, rfl⟩
    omega

theorem Sign.mem_all (s : Sign) : s ∈ Sign.all := by
  cases s <;> decide

theorem Sign.scan?_eq_none_iff {text : List Char} :
    Sign.scan? text = none ↔ ∀ s : Sign, ¬s.chars <+: text := by
  rw [Sign.scan?, Option.map_eq_none_iff, List.find?_eq_none]
  simp only [List.isPrefixOf_iff_prefix]
  exact ⟨fun h s => h s s.mem_all, fun h s _ => h s⟩

/-- What is refused as a token, at a place where no separator stands, is malformed. -/
theorem malformed_of_scanLexeme {p : Position} {c : Char} {text : List Char} {d : Diagnostic}
    (hblank : isBlank c = false) (h : scanLexeme p c text = .error d) :
    ∃ lead marked fault, Malformed (c :: text) lead marked fault ∧
      d = fault.at ⟨p.after lead, p.after (lead ++ marked)⟩ := by
  unfold scanLexeme at h
  split at h
  · next hquote =>
    subst hquote
    obtain ⟨items, rest, rfl, hend⟩ := exists_items_append text
    rw [scanString_items] at h
    cases hend with
    | quote rest => cases h
    | nothing =>
      cases h
      rw [List.append_nil]
      exact ⟨_, _, _, .openString items, rfl⟩
    | lastBackslash =>
      cases h
      refine ⟨_, _, _, .lastBackslash items, ?_⟩
      rw [Position.after_append]
      rfl
    | noEscape e rest he =>
      rw [scanString, escaped?_eq_none_iff.2 he] at h
      cases h
      refine ⟨_, _, _, .noEscape items e rest he, ?_⟩
      rw [Position.after_append]
      rfl
  split at h
  · next hdigit =>
    obtain ⟨digits, rest, htext, hdigits, hends, hscan⟩ |
      ⟨whole, fraction, rest, htext, hwhole, hfraction, hne, hrest⟩ := scanNumber_cases p (c :: text)
    · rw [hscan] at h
      obtain ⟨hlarge, rfl⟩ := exists_of_integerLiteral_error h
      rw [List.takeWhile_cons_of_pos hdigit] at hdigits
      subst hdigits
      rw [htext]
      refine ⟨_, _, _, .outOfRange _ _ (List.cons_ne_nil _ _) (fun c' hc' => ?_) hends hlarge, rfl⟩
      rw [← List.takeWhile_cons_of_pos hdigit] at hc'
      exact List.mem_takeWhile_imp hc'
    · -- Every number with a fraction is read.
      have hdigits : ∀ c ∈ whole, c.isDigit = true := by
        rw [← hwhole]
        exact fun c hc => List.mem_takeWhile_imp hc
      rw [htext, scanNumber_fraction hdigits hne hfraction hrest] at h
      cases h
  split at h
  · cases h
  · next hquote hdigit hstart =>
    split at h
    · cases h
    · next hsign =>
      cases h
      exact ⟨_, _, _, .stray c text hblank hquote (by simpa using hdigit) (by simpa using hstart)
        (Sign.scan?_eq_none_iff.1 hsign), rfl⟩

/-! ### What the reader of tokens refuses -/

theorem tokensFrom_skipTrivia_error {p : Position} {text : List Char} {d : Diagnostic}
    (h : skipTrivia p text = .error d) : tokensFrom p text = .error d := by
  rw [tokensFrom]
  grind

theorem tokensFrom_scanLexeme_error {p start : Position} {c : Char} {text rest : List Char}
    {d : Diagnostic} (hskip : skipTrivia p text = .ok (start, c :: rest))
    (h : scanLexeme start c rest = .error d) : tokensFrom p text = .error d := by
  rw [tokensFrom]
  grind

/-- The tokens in front of a fault are passed. -/
theorem tokensFrom_cons_error {p start stop : Position} {text rest rest' : List Char} {c : Char}
    {lexeme : Lexeme} {d : Diagnostic} (hskip : skipTrivia p text = .ok (start, c :: rest))
    (hscan : scanLexeme start c rest = .ok (lexeme, stop, rest'))
    (hrest : tokensFrom stop rest' = .error d) : tokensFrom p text = .error d := by
  rw [tokensFrom]
  grind

/-- A text that begins no token is refused wherever it stands, and the report lies in it. -/
theorem Malformed.tokensFrom_eq {text lead marked : List Char} {fault : Fault}
    (h : Malformed text lead marked fault) (p : Position) :
    tokensFrom p text = .error (fault.at ⟨p.after lead, p.after (lead ++ marked)⟩) := by
  have hquote (rest : List Char) : Significant ('"' :: rest) := by
    refine ⟨fun c hc => ?_, not_beginsComment_cons (fun _ h => ?_) fun _ h => ?_⟩
    · cases hc
      decide
    · exact absurd h (by decide)
    · exact absurd h (by decide)
  cases h with
  | openString items =>
    refine tokensFrom_scanLexeme_error ((hquote _).skipTrivia p) ?_
    have hscan : scanString p (p.advance '"') [] (items.flatMap StringItem.chars) =
        scanString p ((p.advance '"').after (items.flatMap StringItem.chars))
          ((items.map StringItem.denoted).reverse ++ []) [] := by
      rw [← scanString_items, List.append_nil]
    rw [scanLexeme, if_pos rfl, hscan]
    rfl
  | lastBackslash items =>
    refine tokensFrom_scanLexeme_error ((hquote _).skipTrivia p) ?_
    rw [scanLexeme, if_pos rfl, scanString_items, Position.after_append]
    rfl
  | noEscape items c rest hc =>
    refine tokensFrom_scanLexeme_error ((hquote _).skipTrivia p) ?_
    rw [scanLexeme, if_pos rfl, scanString_items, scanString,
      escaped?_eq_none_iff.2 hc, Position.after_append]
    rfl
  | openBlock body hopen => exact tokensFrom_skipTrivia_error (skipTrivia_openBlock p hopen)
  | outOfRange _ rest hne hdigits hends hlarge =>
    obtain ⟨c, digits, rfl⟩ := List.exists_cons_of_ne_nil hne
    have hdigit : c.isDigit = true := hdigits c List.mem_cons_self
    obtain ⟨hblank, -, -, hslash⟩ := isDigit_apart hdigit
    have hstart : Significant (c :: (digits ++ rest)) := by
      refine ⟨fun c' hc' => ?_, not_beginsComment_cons (fun _ h => ?_) fun _ h => ?_⟩
      · cases hc'
        exact hblank
      · exact absurd h hslash
      · exact absurd h hslash
    refine tokensFrom_scanLexeme_error (hstart.skipTrivia p) ?_
    rw [scanLexeme_number hdigit, ← List.cons_append, scanNumber_integer hdigits hends,
      integerLiteral_outOfRange hlarge]
    rfl
  | stray c rest hblank hquote hdigit hstart hsign =>
    have hsignificant : Significant (c :: rest) := by
      refine ⟨fun c' hc' => ?_, not_beginsComment_cons (fun _ h _ => ?_) fun _ h _ => ?_⟩
      · cases hc'
        exact hblank
      -- A slash by itself would be a sign.
      · exact hsign .slash ⟨rest, by rw [h]; rfl⟩
      · exact hsign .slash ⟨rest, by rw [h]; rfl⟩
    refine tokensFrom_scanLexeme_error (hsignificant.skipTrivia p) ?_
    rw [scanLexeme, if_neg hquote, if_neg (by simp [hdigit]), if_neg (by simp [hstart]),
      Sign.scan?_eq_none_iff.2 hsign]
    rfl

/-- A text that begins no token is refused, and the report lies in it. -/
theorem Malformed.tokenize_eq {text lead marked : List Char} {fault : Fault}
    (h : Malformed text lead marked fault) :
    tokenize (String.ofList text) =
      .error (fault.at ⟨Position.counted lead, Position.counted (lead ++ marked)⟩) := by
  rw [tokenize, String.toList_ofList, h.tokensFrom_eq, Position.after_start, Position.after_start]

/-- The induction is on the tokens. Each of them is read again where the text is cut at the fault,
because less follows it. -/
theorem tokensFrom_malformed {p : Position} {text : List Char} {d : Diagnostic}
    (h : tokensFrom p text = .error d) :
    ∃ front rest lead marked fault, text = front ++ rest ∧
      (∀ q, ∃ tokens, tokensFrom q front = .ok (tokens, q.after front)) ∧
      Malformed rest lead marked fault ∧
      d = fault.at ⟨p.after (front ++ lead), p.after (front ++ lead ++ marked)⟩ := by
  -- Separators alone are read as no tokens.
  have hgapRead (gap : List Trivia) (q : Position) :
      tokensFrom q (gap.flatMap Trivia.chars) = .ok ([], q.after (gap.flatMap Trivia.chars)) := by
    have hskip := skipTrivia_pieces q gap []
    rw [List.append_nil] at hskip
    exact tokensFrom_end hskip
  fun_induction tokensFrom p text generalizing d with
  | case1 p text e hskip =>
    cases h
    obtain ⟨gap, body, hopen, rfl, rfl⟩ := exists_of_skipTrivia_error hskip
    exact ⟨gap.flatMap Trivia.chars, _, _, _, _, rfl, fun q => ⟨_, hgapRead gap q⟩,
      .openBlock body hopen, by rw [List.append_nil]⟩
  | case2 => cases h
  | case3 p text start c rest hskip e hscan =>
    cases h
    obtain ⟨gap, hgap, rfl, hstart⟩ := exists_gap_of_skipTrivia hskip
    obtain ⟨lead, marked, fault, hmalformed, rfl⟩ :=
      malformed_of_scanLexeme (hstart.notBlank c rfl) hscan
    refine ⟨gap.flatMap Trivia.chars, _, lead, marked, fault, hgap, fun q => ⟨_, hgapRead gap q⟩,
      hmalformed, ?_⟩
    simp only [Position.after_append]
  | case4 p text start c rest hskip lexeme stop rest' hscan e htokens ih =>
    cases h
    obtain ⟨gap, hgap, rfl, hstart⟩ := exists_gap_of_skipTrivia hskip
    obtain ⟨word, rfl, rfl, hcut⟩ := scanLexeme_cut hscan
    obtain ⟨front, rest, lead, marked, fault, rfl, hfront, hmalformed, rfl⟩ := ih htokens
    refine ⟨gap.flatMap Trivia.chars ++ (c :: word) ++ front, rest, lead, marked, fault, ?_,
      fun q => ?_, hmalformed, ?_⟩
    · rw [hgap, List.append_assoc, List.append_assoc, List.cons_append]
    · obtain ⟨tokens, htokens⟩ := hfront ((q.after (gap.flatMap Trivia.chars)).after (c :: word))
      have hstart' : Significant (c :: (word ++ front)) := by
        refine hstart.of_isPrefix ⟨rest, ?_⟩
        rw [List.cons_append, List.append_assoc]
      have hskip : skipTrivia q (gap.flatMap Trivia.chars ++ (c :: word) ++ front) =
          .ok (q.after (gap.flatMap Trivia.chars), c :: (word ++ front)) := by
        rw [List.append_assoc, skipTrivia_pieces, List.cons_append, hstart'.skipTrivia]
      rw [Position.after_append, Position.after_append]
      exact ⟨_, tokensFrom_cons hskip (hcut _ front ⟨rest, rfl⟩) htokens⟩
    · simp only [Position.after_append]
  | case5 => cases h

/-- A text that cannot be read is refused for a fault of its tokens. In front of the place it can be
read; from there on no token begins, and for that part alone the report would be the same. -/
theorem tokenize_malformed {source : String} {d : Diagnostic} (h : tokenize source = .error d) :
    ∃ front rest lead marked fault, source.toList = front ++ rest ∧
      (∃ stream, tokenize (String.ofList front) = .ok stream) ∧
      Malformed rest lead marked fault ∧
      tokenize (String.ofList rest) =
        .error (fault.at ⟨Position.counted lead, Position.counted (lead ++ marked)⟩) ∧
      d = fault.at
        ⟨Position.counted (front ++ lead), Position.counted (front ++ lead ++ marked)⟩ ∧
      d.kind = .lexing := by
  obtain ⟨front, rest, lead, marked, fault, hsource, hfront, hmalformed, rfl⟩ :=
    tokensFrom_malformed (tokensFrom_of_tokenize_error h)
  obtain ⟨tokens, htokens⟩ := hfront Position.start
  have hread : tokenize (String.ofList front) =
      .ok ⟨tokens, Span.point (Position.start.after front)⟩ := by
    rw [tokenize, String.toList_ofList, htokens]
  refine ⟨front, rest, lead, marked, fault, hsource, ⟨_, hread⟩, hmalformed,
    hmalformed.tokenize_eq, ?_, ?_⟩
  · rw [Position.after_start, Position.after_start]
  · rw [Fault.at_kind]
    cases hmalformed <;> rfl

/-- A string that is open at the end of the text, after a point that could have gone on with digits. -/
theorem tokenize_malformed_point :
    tokenize "é//b\n1.\"x\\ny" = .error (Fault.unterminatedString.at ⟨⟨2, 3⟩, ⟨2, 8⟩⟩) ∧
      ∃ front rest lead marked fault, "é//b\n1.\"x\\ny".toList = front ++ rest ∧
        (∃ stream, tokenize (String.ofList front) = .ok stream) ∧
        Malformed rest lead marked fault ∧
        tokenize (String.ofList rest) =
          .error (fault.at ⟨Position.counted lead, Position.counted (lead ++ marked)⟩) ∧
        Fault.unterminatedString.at ⟨⟨2, 3⟩, ⟨2, 8⟩⟩ = fault.at
          ⟨Position.counted (front ++ lead), Position.counted (front ++ lead ++ marked)⟩ ∧
        (Fault.unterminatedString.at ⟨⟨2, 3⟩, ⟨2, 8⟩⟩).kind = .lexing := by
  have hrefused : tokenize "é//b\n1.\"x\\ny" =
      .error (Fault.unterminatedString.at ⟨⟨2, 3⟩, ⟨2, 8⟩⟩) := by
    rw [tokenize, tokensFrom_cons_error rfl rfl (tokensFrom_cons_error rfl rfl
      (tokensFrom_cons_error rfl rfl (tokensFrom_scanLexeme_error rfl rfl)))]
    rfl
  exact ⟨hrefused, tokenize_malformed hrefused⟩

/-- Not every report of an open string begins at a quote: behind a backslash that ends the text the
report is at the backslash, and what stands in front of it cannot be read. -/
theorem not_unterminatedString_at_quote :
    ¬∀ source d, tokenize source = .error d → d.message = Fault.unterminatedString.message →
      ∃ front rest span, source.toList = front ++ '"' :: rest ∧ d.span = some span ∧
        span.start = Position.counted front ∧ ∃ stream, tokenize (String.ofList front) = .ok stream := by
  intro hall
  have hrefused := (Malformed.lastBackslash
    [.raw 'a' (by decide), .raw 'b' (by decide), .raw 'c' (by decide)]).tokenize_eq
  obtain ⟨front, rest, span, hsource, hspan, hstart, -⟩ := hall _ _ hrefused rfl
  rw [Fault.at_span] at hspan
  cases hspan
  rw [String.toList_ofList] at hsource
  cases front with
  | nil => exact absurd hstart (by decide)
  | cons c front =>
    -- No other quote stands in the text.
    have hquote : '"' ∈ ['a', 'b', 'c', '\\'] := by
      have htail : ['a', 'b', 'c', '\\'] = front ++ '"' :: rest := (List.cons.inj hsource).2
      rw [htail]
      exact List.mem_append_right _ List.mem_cons_self
    exact absurd hquote (by decide)

end ScriptLang
