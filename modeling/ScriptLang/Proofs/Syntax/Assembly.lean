import ScriptLang.Proofs.Syntax.Yields
import ScriptLang.Syntax.Parser

/-!
# How parsers are put together

The parsers of the language are made of elementary ones, each of which looks at the next token, takes it
or leaves it, and fails where it stands. They are put one after another, chosen by the next two tokens,
and repeated.

A parser that is put together so does not see what stands behind the tokens it looks at. Where it has left
a token, more tokens at the end change nothing. Where it fails with two tokens ahead, they do not repair
the fault.

## Main definitions

* `Cursor.extend`: the same place in a longer text
* `Parser.Consumes`: a parser that reads a token at least
* `Parser.Elementary`, `Parser.Assembled`: the parsers that others are made of, and those made of them
* `Parser.FailsAt`: where a parser stands when it fails

## Main results

* `Parser.Assembled.extend`: what has been read is read again in a longer text
* `Parser.Assembled.exists_failsAt`: a parser that fails does so at some place
* `Parser.FailsAt.extend`: a fault with two tokens ahead is found again in a longer text
-/

namespace ScriptLang

namespace Cursor

/-- The same place in a longer text, which has another end. -/
def extend (c : Cursor) (more : List Token) (finish : Span) : Cursor :=
  ⟨c.ahead ++ more, finish, c.previous⟩

variable {c c' : Cursor} {more : List Token} {finish : Span}

theorem next_extend (h : c.ahead ≠ []) : (c.extend more finish).next = c.next.extend more finish := by
  obtain ⟨ahead, finish', previous⟩ := c
  obtain ⟨token, rest, rfl⟩ := List.exists_cons_of_ne_nil h
  rfl

theorem lexeme?_extend (h : c.ahead ≠ []) : (c.extend more finish).lexeme? = c.lexeme? := by
  obtain ⟨ahead, finish', previous⟩ := c
  obtain ⟨token, rest, rfl⟩ := List.exists_cons_of_ne_nil h
  rfl

theorem sees_extend (h : c.ahead ≠ []) (s : Sign) :
    (c.extend more finish).sees s = c.sees s := by
  obtain ⟨ahead, finish', previous⟩ := c
  obtain ⟨⟨lexeme, span⟩, rest, rfl⟩ := List.exists_cons_of_ne_nil h
  cases lexeme <;> rfl

theorem seesWord_extend (h : c.ahead ≠ []) (k : Keyword) :
    (c.extend more finish).seesWord k = c.seesWord k := by
  obtain ⟨ahead, finish', previous⟩ := c
  obtain ⟨⟨lexeme, span⟩, rest, rfl⟩ := List.exists_cons_of_ne_nil h
  cases lexeme <;> rfl

theorem span_extend (h : c.ahead ≠ []) : (c.extend more finish).span = c.span := by
  obtain ⟨ahead, finish', previous⟩ := c
  obtain ⟨token, rest, rfl⟩ := List.exists_cons_of_ne_nil h
  rfl

theorem found_extend (h : c.ahead ≠ []) : (c.extend more finish).found = c.found := by
  obtain ⟨ahead, finish', previous⟩ := c
  obtain ⟨token, rest, rfl⟩ := List.exists_cons_of_ne_nil h
  rfl

theorem next_suffix (c : Cursor) : c.next.ahead <:+ c.ahead := by
  obtain ⟨ahead, finish, previous⟩ := c
  cases ahead with
  | nil => exact List.suffix_refl _
  | cons token rest => exact List.suffix_cons token rest

theorem take_one_of_take_two (h : c'.ahead.take 2 = c.ahead.take 2) :
    c'.ahead.take 1 = c.ahead.take 1 := by
  have hone := congrArg (List.take 1) h
  rwa [List.take_take, List.take_take] at hone

/-- Whether a sign is next is told by the next token. -/
theorem sees_congr (h : c'.ahead.take 1 = c.ahead.take 1) (s : Sign) : c'.sees s = c.sees s := by
  obtain ⟨ahead, finish, previous⟩ := c
  obtain ⟨ahead', finish', previous'⟩ := c'
  cases ahead with
  | nil =>
    cases ahead' with
    | nil => rfl
    | cons _ _ => cases h
  | cons token rest =>
    obtain ⟨lexeme, span⟩ := token
    cases ahead' <;> cases h
    cases lexeme <;> rfl

theorem atEnd_congr (h : c'.ahead.take 1 = c.ahead.take 1) : c'.atEnd = c.atEnd := by
  obtain ⟨ahead, finish, previous⟩ := c
  obtain ⟨ahead', finish', previous'⟩ := c'
  cases ahead <;> cases ahead' <;> cases h <;> rfl

/-- The first tokens are the same in a longer text. -/
theorem take_extend {n : Nat} (h : n ≤ c.ahead.length) :
    (c.extend more finish).ahead.take n = c.ahead.take n :=
  List.take_append_of_le_length h

end Cursor

namespace Parser

variable {α β : Type}

/-! ### Repetition -/

/-- The parser reads a token at least. -/
def Consumes (p : Parser α) : Prop :=
  ∀ ⦃c : Cursor⦄ ⦃a : α⦄ ⦃c' : Cursor⦄, p c = .ok (a, c') → c'.ahead.length < c.ahead.length

/-- What is made of some tokens, and of none but some, has been read from them. -/
theorem Yields.consumes {p : Parser α} {made : List Token → α → Prop}
    (h : Yields Region.everywhere Always p made) (hmade : ∀ a, ¬made [] a) : p.Consumes := by
  intro c a c' hrun
  have hyields := h c c.within_everywhere trivial
  rw [hrun] at hyields
  obtain ⟨ts, hpass, ha⟩ := hyields
  have hpos : 0 < ts.length := by
    rw [List.length_pos_iff]
    rintro rfl
    exact hmade a ha
  rw [hpass.ahead, List.length_append]
  omega

/-- Where the first parser takes a token, the second one matters on fewer tokens only. -/
theorem Consumes.bind_congr {p : Parser α} {k k' : α → Parser β} {c : Cursor} (hp : p.Consumes)
    (h : ∀ a c', c'.ahead.length < c.ahead.length → k a c' = k' a c') :
    (p >>= k) c = (p >>= k') c := by
  cases hrun : p c with
  | error d => rw [bind_of_error hrun, bind_of_error hrun]
  | ok r =>
    rw [bind_of_ok hrun, bind_of_ok hrun]
    exact h r.1 r.2 (hp hrun)

theorem bind_congr_of_run {p p' : Parser α} {k : α → Parser β} {c c' : Cursor}
    (h : p c = p' c') : (p >>= k) c = (p' >>= k) c' := by
  change (p c >>= _) = (p' c' >>= _)
  rw [h]

section Many

variable {item : Parser α} {more : Cursor → Bool}

/-- As each item takes a token, it does not matter how many items are allowed beyond the tokens. -/
theorem manyUpTo_of_lt (hitem : item.Consumes) {n m : Nat} {c : Cursor} (hn : c.ahead.length < n)
    (hm : c.ahead.length < m) : manyUpTo more item n c = manyUpTo more item m c := by
  induction n generalizing m c with
  | zero => exact absurd hn (Nat.not_lt_zero _)
  | succ n ih =>
    obtain ⟨m, rfl⟩ := Nat.exists_eq_add_one_of_ne_zero (Nat.ne_zero_of_lt hm)
    simp only [manyUpTo]
    split
    · exact hitem.bind_congr fun first c' hless =>
        bind_congr_of_run (ih (by omega) (by omega))
    · rfl

/-- One item, and then the others. -/
theorem many_eq (hitem : item.Consumes) : many more item = fun c =>
    (if more c then item >>= fun first => many more item >>= fun rest => pure (first :: rest)
      else pure [] : Parser (List α)) c := by
  funext c
  change manyUpTo more item (c.ahead.length + 1) c = _
  simp only [manyUpTo]
  split
  · refine hitem.bind_congr fun first c' hless => bind_congr_of_run ?_
    exact manyUpTo_of_lt hitem hless (Nat.lt_succ_self _)
  · rfl

end Many

/-- The items of a list in parentheses from one on, behind earlier ones. -/
def commaListFrom (item : List α → Parser α) (earlier : List α) : Parser (List α) :=
  fun c => commaListUpTo item (c.ahead.length + 1) earlier c

section CommaList

variable {item : List α → Parser α}

/-- What becomes of the list behind an item matters on fewer tokens only. -/
theorem commaListUpTo_congr (hitem : ∀ earlier, (item earlier).Consumes) {earlier : List α}
    {rest rest' : List α → Parser (List α)} {c : Cursor}
    (h : ∀ earlier c', c'.ahead.length < c.ahead.length → rest earlier c' = rest' earlier c') :
    (item earlier >>= fun next => eat .comma >>= fun comma =>
      if comma then rest (earlier ++ [next]) else pure (earlier ++ [next])) c =
    (item earlier >>= fun next => eat .comma >>= fun comma =>
      if comma then rest' (earlier ++ [next]) else pure (earlier ++ [next])) c := by
  refine (hitem earlier).bind_congr fun next c' hless => ?_
  have hcomma : ∃ comma c'', eat .comma c' = .ok (comma, c'') ∧
      c''.ahead.length ≤ c'.ahead.length := by
    unfold eat
    split
    · exact ⟨true, _, rfl, c'.next_suffix.length_le⟩
    · exact ⟨false, _, rfl, Nat.le_refl _⟩
  obtain ⟨comma, c'', heat, hle⟩ := hcomma
  rw [bind_of_ok heat, bind_of_ok heat]
  split
  · exact h _ c'' (Nat.lt_of_le_of_lt hle hless)
  · rfl

theorem commaListUpTo_of_lt (hitem : ∀ earlier, (item earlier).Consumes) {n m : Nat}
    {earlier : List α} {c : Cursor} (hn : c.ahead.length < n) (hm : c.ahead.length < m) :
    commaListUpTo item n earlier c = commaListUpTo item m earlier c := by
  induction n generalizing m earlier c with
  | zero => exact absurd hn (Nat.not_lt_zero _)
  | succ n ih =>
    obtain ⟨m, rfl⟩ := Nat.exists_eq_add_one_of_ne_zero (Nat.ne_zero_of_lt hm)
    have hsees : sees .rightParen c = .ok (c.sees .rightParen, c) := rfl
    rw [commaListUpTo, commaListUpTo, bind_of_ok hsees, bind_of_ok hsees]
    split
    · rfl
    · exact commaListUpTo_congr hitem fun earlier c' hless => ih (by omega) (by omega)

/-- One item, and then the others. -/
theorem commaListFrom_eq (hitem : ∀ earlier, (item earlier).Consumes) (earlier : List α) :
    commaListFrom item earlier = sees .rightParen >>= fun ended =>
      if ended then pure earlier
      else item earlier >>= fun next => eat .comma >>= fun comma =>
        if comma then commaListFrom item (earlier ++ [next]) else pure (earlier ++ [next]) := by
  funext c
  have hsees : sees .rightParen c = .ok (c.sees .rightParen, c) := rfl
  change commaListUpTo item (c.ahead.length + 1) earlier c = _
  rw [commaListUpTo, bind_of_ok hsees, bind_of_ok hsees]
  split
  · rfl
  · refine commaListUpTo_congr hitem fun earlier c' hless => ?_
    exact commaListUpTo_of_lt hitem hless (Nat.lt_succ_self _)

end CommaList

/-! ### Parsers and their parts -/

/-- A parser that looks at the next token at most, takes it or leaves it, and fails before it takes
anything. -/
inductive Elementary : {α : Type} → Parser α → Prop
  | pure {α : Type} (a : α) : Elementary (pure a)
  | peek : Elementary peek
  | here : Elementary here
  | behind : Elementary behind
  | take : Elementary take
  | failAt {α : Type} (fault : Fault) (span : Span) : Elementary (failAt fault span : Parser α)
  | unexpected {α : Type} (expected : String) : Elementary (unexpected expected : Parser α)
  | sees (s : Sign) : Elementary (sees s)
  | eat (s : Sign) : Elementary (eat s)
  | eatWord (k : Keyword) : Elementary (eatWord k)
  | expect (s : Sign) : Elementary (expect s)
  | identifier : Elementary identifier
  | modulePath : Elementary modulePath
  | parameterName : Elementary parameterName
  | tooDeep {α : Type} : Elementary (Grammar.tooDeep : Parser α)

/-- A run of a parser, from a cursor on, is put together from runs of elementary parsers. -/
inductive Assembled : {α : Type} → Parser α → Cursor → Prop
  | elementary {α : Type} {p : Parser α} {c : Cursor} (h : Elementary p) : Assembled p c
  /-- One after the other. -/
  | bind {α β : Type} {p : Parser α} {k : α → Parser β} {c : Cursor} (first : Assembled p c)
      (next : ∀ a c', p c = .ok (a, c') → Assembled (k a) c') : Assembled (p >>= k) c
  /-- The next token decides. -/
  | peek {α : Type} {choose : Cursor → Parser α} {c : Cursor}
      (looks : ∀ c' : Cursor, c'.ahead.take 1 = c.ahead.take 1 → choose c' = choose c)
      (chosen : Assembled (choose c) c) : Assembled (fun c => choose c c) c
  /-- The next two tokens decide, of which one is taken. -/
  | lookAhead {α : Type} {choose : Cursor → Parser α} {c : Cursor}
      (looks : ∀ c' : Cursor, c'.ahead.take 2 = c.ahead.take 2 → choose c' = choose c)
      (takes : ∀ a c', choose c c = .ok (a, c') → c'.ahead.length < c.ahead.length)
      (chosen : Assembled (choose c) c) : Assembled (fun c => choose c c) c

namespace Elementary

variable {p : Parser α} {c c' : Cursor} {a : α}

/-- An elementary parser leaves the cursor where it is, or moves it over one token. -/
theorem moves (h : Elementary p) (hrun : p c = .ok (a, c')) : c' = c ∨ c' = c.next := by
  cases h with
  | pure | peek | here | behind | sees =>
    cases hrun
    exact .inl rfl
  | take =>
    cases hrun
    exact .inr rfl
  | failAt | unexpected | tooDeep => cases hrun
  | eat | eatWord =>
    simp only [Parser.eat, Parser.eatWord] at hrun
    split at hrun
    · cases hrun
      exact .inr rfl
    · cases hrun
      exact .inl rfl
  | expect | identifier | modulePath =>
    simp only [Parser.expect, Parser.identifier, Parser.modulePath] at hrun
    split at hrun
    · cases hrun
      exact .inr rfl
    · cases hrun
  | parameterName =>
    simp only [Parser.parameterName, Parser.identifier] at hrun
    split at hrun
    · cases hrun
      exact .inr rfl
    split at hrun
    · cases hrun
      exact .inr rfl
    · cases hrun

/-- An elementary parser sees no more than the next token. -/
theorem extend {more : List Token} {finish : Span} (h : Elementary p) (hc : c.ahead ≠ []) :
    p (c.extend more finish) = (p c).map fun r => (r.1, r.2.extend more finish) := by
  have hidentifier : Parser.identifier (c.extend more finish) =
      (Parser.identifier c).map fun r => (r.1, r.2.extend more finish) := by
    obtain ⟨ahead, finish', previous⟩ := c
    obtain ⟨⟨lexeme, span⟩, rest, rfl⟩ := List.exists_cons_of_ne_nil hc
    cases lexeme <;> rfl
  cases h with
  | pure | behind | failAt => rfl
  | identifier => exact hidentifier
  | peek | here | take | unexpected | tooDeep | modulePath =>
    obtain ⟨ahead, finish', previous⟩ := c
    obtain ⟨⟨lexeme, span⟩, rest, rfl⟩ := List.exists_cons_of_ne_nil hc
    cases lexeme <;> rfl
  | sees s =>
    simp only [Parser.sees, Cursor.sees_extend hc]
    rfl
  | eat | eatWord | expect =>
    simp only [Parser.eat, Parser.eatWord, Parser.expect, Parser.unexpected, Cursor.sees_extend hc,
      Cursor.seesWord_extend hc, Cursor.next_extend hc, Cursor.span_extend hc,
      Cursor.found_extend hc]
    split <;> rfl
  | parameterName =>
    simp only [Parser.parameterName, hidentifier, Cursor.seesWord_extend hc,
      Cursor.next_extend hc, Cursor.span_extend hc]
    split <;> rfl

end Elementary

/-- One parser after the other makes something where both do. -/
theorem exists_of_bind_ok {p : Parser α} {k : α → Parser β} {c c' : Cursor} {b : β}
    (h : (p >>= k) c = .ok (b, c')) : ∃ a c₁, p c = .ok (a, c₁) ∧ k a c₁ = .ok (b, c') := by
  cases hrun : p c with
  | error d =>
    rw [bind_of_error hrun] at h
    cases h
  | ok r =>
    rw [bind_of_ok hrun] at h
    exact ⟨r.1, r.2, rfl, h⟩

namespace Assembled

variable {p : Parser α} {c c' : Cursor} {a : α}

/-- What is left is an end of what was ahead. -/
theorem suffix (h : Assembled p c) (hrun : p c = .ok (a, c')) : c'.ahead <:+ c.ahead := by
  induction h generalizing c' with
  | @elementary _ _ c h =>
    obtain rfl | rfl := h.moves hrun
    · exact List.suffix_refl _
    · exact c.next_suffix
  | bind _ _ ihfirst ihnext =>
    obtain ⟨a, c₁, hfirst, hnext⟩ := exists_of_bind_ok hrun
    exact (ihnext a c₁ hfirst hnext).trans (ihfirst hfirst)
  | peek _ _ ih => exact ih hrun
  | lookAhead _ _ _ ih => exact ih hrun

/-- What has been read is read again in a longer text, as long as a token was left. -/
theorem extend {more : List Token} {finish : Span} (h : Assembled p c)
    (hrun : p c = .ok (a, c')) (hleft : c'.ahead ≠ []) :
    p (c.extend more finish) = .ok (a, c'.extend more finish) := by
  induction h generalizing c' with
  | elementary helementary =>
    have hsuffix := (Assembled.elementary helementary).suffix hrun
    rw [helementary.extend (hsuffix.ne_nil hleft), hrun]
    rfl
  | bind _ hnext ihfirst ihnext =>
    obtain ⟨a, c₁, hfirst, hrest⟩ := exists_of_bind_ok hrun
    have hsuffix := (hnext a c₁ hfirst).suffix hrest
    rw [bind_of_ok (ihfirst hfirst (hsuffix.ne_nil hleft))]
    exact ihnext a c₁ hfirst hrest hleft
  | @peek _ choose c hlooks hchosen ih =>
    have hpos : 1 ≤ c.ahead.length :=
      List.length_pos_iff.2 ((hchosen.suffix hrun).ne_nil hleft)
    dsimp only
    rw [hlooks _ (Cursor.take_extend hpos)]
    exact ih hrun hleft
  | @lookAhead _ choose c hlooks htakes hchosen ih =>
    have hpos : 0 < c'.ahead.length := List.length_pos_iff.2 hleft
    have htwo : 2 ≤ c.ahead.length := Nat.lt_of_le_of_lt hpos (htakes a c' hrun)
    dsimp only
    rw [hlooks _ (Cursor.take_extend htwo)]
    exact ih hrun hleft

theorem map {f : α → β} (h : Assembled p c) : Assembled (f <$> p) c := by
  rw [← bind_pure_comp]
  exact .bind h fun _ _ _ => .elementary (.pure _)

/-- Items are read one after another, each with fewer tokens ahead. -/
theorem many {more : Cursor → Bool} {item : Parser α} (hitem : ∀ c, Assembled item c)
    (hconsumes : item.Consumes)
    (hlooks : ∀ c c' : Cursor, c'.ahead.take 1 = c.ahead.take 1 → more c' = more c) (c : Cursor) :
    Assembled (many more item) c := by
  induction hn : c.ahead.length using Nat.strongRecOn generalizing c with
  | ind n ih =>
    rw [many_eq hconsumes]
    refine .peek (fun c' hc' => by rw [hlooks c c' hc']) ?_
    split
    · refine .bind (hitem c) fun first c₁ hfirst => ?_
      have hless := hconsumes hfirst
      exact .bind (ih _ (by omega) c₁ rfl) fun rest _ _ => .elementary (.pure _)
    · exact .elementary (.pure _)

theorem commaList {item : List α → Parser α} (hitem : ∀ earlier c, Assembled (item earlier) c)
    (hconsumes : ∀ earlier, (item earlier).Consumes) (earlier : List α) (c : Cursor) :
    Assembled (commaListFrom item earlier) c := by
  induction hn : c.ahead.length using Nat.strongRecOn generalizing earlier c with
  | ind n ih =>
    rw [commaListFrom_eq hconsumes]
    refine .bind (.elementary (.sees _)) fun ended c₁ hsees => ?_
    cases hsees
    split
    · exact .elementary (.pure _)
    refine .bind (hitem earlier c) fun next c₁ hnext => ?_
    have hless := hconsumes earlier hnext
    refine .bind (.elementary (.eat _)) fun comma c₂ hcomma => ?_
    have hle := ((Assembled.elementary (.eat .comma)).suffix hcomma).length_le
    split
    · exact ih _ (by omega) _ c₂ rfl
    · exact .elementary (.pure _)

end Assembled

/-! ### Where a parser fails -/

/-- A run of a parser, from the first cursor on, ends with a fault, and the parser stands at the second
cursor then. -/
inductive FailsAt : {α : Type} → Parser α → Cursor → Diagnostic → Cursor → Prop
  /-- An elementary parser fails where it stands. -/
  | here {α : Type} {p : Parser α} {c : Cursor} {d : Diagnostic} (h : Elementary p)
      (hrun : p c = .error d) : FailsAt p c d c
  | first {α β : Type} {p : Parser α} {k : α → Parser β} {c c' : Cursor} {d : Diagnostic}
      (h : FailsAt p c d c') : FailsAt (p >>= k) c d c'
  | next {α β : Type} {p : Parser α} {k : α → Parser β} {c c₁ c' : Cursor} {a : α} {d : Diagnostic}
      (hp : Assembled p c) (hrun : p c = .ok (a, c₁)) (h : FailsAt (k a) c₁ d c') :
      FailsAt (p >>= k) c d c'
  /-- The next two tokens decide. -/
  | chosen {α : Type} {choose : Cursor → Parser α} {c c' : Cursor} {d : Diagnostic}
      (looks : ∀ c' : Cursor, c'.ahead.take 2 = c.ahead.take 2 → choose c' = choose c)
      (h : FailsAt (choose c) c d c') : FailsAt (fun c => choose c c) c d c'

theorem Assembled.exists_failsAt {p : Parser α} {c : Cursor} {d : Diagnostic} (h : Assembled p c)
    (hrun : p c = .error d) : ∃ c', FailsAt p c d c' := by
  induction h with
  | elementary h => exact ⟨_, .here h hrun⟩
  | @bind _ _ p k c hfirst _ ihfirst ihnext =>
    cases hp : p c with
    | error d' =>
      rw [bind_of_error hp] at hrun
      cases hrun
      obtain ⟨c', hc'⟩ := ihfirst hp
      exact ⟨c', .first hc'⟩
    | ok r =>
      rw [bind_of_ok hp] at hrun
      obtain ⟨c', hc'⟩ := ihnext r.1 r.2 hp hrun
      exact ⟨c', .next hfirst hp hc'⟩
  | peek hlooks _ ih =>
    obtain ⟨c', hc'⟩ := ih hrun
    exact ⟨c', .chosen (fun c₁ hc₁ => hlooks c₁ (Cursor.take_one_of_take_two hc₁)) hc'⟩
  | lookAhead hlooks _ _ ih =>
    obtain ⟨c', hc'⟩ := ih hrun
    exact ⟨c', .chosen hlooks hc'⟩

namespace FailsAt

variable {p : Parser α} {c c' : Cursor} {d : Diagnostic}

theorem map {f : α → β} (h : FailsAt p c d c') : FailsAt (f <$> p) c d c' := by
  rw [← bind_pure_comp]
  exact .first h

/-- Where an item fails, so do the items. -/
theorem many {more : Cursor → Bool} (hconsumes : p.Consumes)
    (hlooks : ∀ c c' : Cursor, c'.ahead.take 1 = c.ahead.take 1 → more c' = more c)
    (hmore : more c = true) (h : FailsAt p c d c') : FailsAt (many more p) c d c' := by
  rw [many_eq hconsumes]
  refine .chosen (fun c' hc' => by rw [hlooks c c' (Cursor.take_one_of_take_two hc')]) ?_
  rw [if_pos hmore]
  exact .first h

theorem run_eq (h : FailsAt p c d c') : p c = .error d := by
  induction h with
  | here _ hrun => exact hrun
  | first _ ih => exact bind_of_error ih
  | next _ hrun _ ih => rw [bind_of_ok hrun, ih]
  | chosen _ _ ih => exact ih

/-- The parser stands at tokens of its text. -/
theorem suffix (h : FailsAt p c d c') : c'.ahead <:+ c.ahead := by
  induction h with
  | here => exact List.suffix_refl _
  | first _ ih => exact ih
  | next hp hrun _ ih => exact ih.trans (hp.suffix hrun)
  | chosen _ _ ih => exact ih

/-- Where a parser fails with two tokens ahead, it fails in a longer text too, in the same way. -/
theorem extend {more : List Token} {finish : Span} (h : FailsAt p c d c')
    (htwo : 2 ≤ c'.ahead.length) : p (c.extend more finish) = .error d := by
  have hne {c : Cursor} (hc : 2 ≤ c.ahead.length) : c.ahead ≠ [] :=
    List.length_pos_iff.1 (Nat.lt_of_succ_lt hc)
  induction h with
  | here helementary hrun =>
    rw [helementary.extend (hne htwo), hrun]
    rfl
  | first _ ih => exact bind_of_error (ih htwo)
  | next hp hrun h ih =>
    rw [bind_of_ok (hp.extend hrun (h.suffix.ne_nil (hne htwo)))]
    exact ih htwo
  | chosen hlooks h ih =>
    dsimp only
    rw [hlooks _ (Cursor.take_extend (Nat.le_trans htwo h.suffix.length_le))]
    exact ih htwo

end FailsAt

end Parser

end ScriptLang
