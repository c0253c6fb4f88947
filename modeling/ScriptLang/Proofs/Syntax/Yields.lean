import ScriptLang.Proofs.Syntax.Places
import ScriptLang.Proofs.Syntax.Reads

/-!
# What a parser makes of any tokens

Whatever tokens are ahead, a parser either reads some of them and makes something of them, or ends
with a diagnostic that points to where the tokens stand. Both are stated at once, with one rule for
each way to build a parser.

## Main definitions

* `Cursor.Passes`: a cursor moves over some tokens
* `Diagnostic.FoundIn`: a fault of the syntax that lies in a region
* `Parser.Yields`: what is made of the tokens read, and where a fault lies

## Main results

* `Parser.Yields.bind`: one parser after the other
* `Parser.commaList_yields`, `Parser.many_yields`: lists
-/

namespace ScriptLang

/-- The fault is one of the syntax, it lies in the region, and its unit is not known yet. -/
structure Diagnostic.FoundIn (R : Region) (d : Diagnostic) : Prop where
  isSyntax : d.isSyntax = true
  unit : d.unit = none
  span : ∃ s, d.span = some s ∧ R.Has s

theorem Fault.at_foundIn {R : Region} {fault : Fault} {span : Span}
    (hkind : fault.kind.isSyntax = true) (hspan : R.Has span) : (fault.at span).FoundIn R where
  isSyntax := by rw [Diagnostic.isSyntax, Fault.at_kind, hkind]
  unit := Fault.at_unit fault span
  span := ⟨span, Fault.at_span fault span, hspan⟩

namespace Cursor

/-- The tokens ahead stand in the region, and so does the end of the text. -/
structure Within (R : Region) (c : Cursor) : Prop where
  ahead : R.HasTokens c.ahead
  finish : R.Has c.finish

/-- A cursor moves over some tokens. -/
structure Passes (c : Cursor) (tokens : List Token) (c' : Cursor) : Prop where
  ahead : c.ahead = tokens ++ c'.ahead
  finish : c'.finish = c.finish
  previous : c'.previous = lastSpan c.previous tokens

theorem within_everywhere (c : Cursor) : c.Within .everywhere := ⟨fun _ _ => trivial, trivial⟩

variable {R : Region} {c c' c'' : Cursor} {ts ts' : List Token}

theorem Passes.refl (c : Cursor) : c.Passes [] c := ⟨rfl, rfl, rfl⟩

theorem Passes.trans (h : c.Passes ts c') (h' : c'.Passes ts' c'') : c.Passes (ts ++ ts') c'' where
  ahead := by rw [h.ahead, h'.ahead, List.append_assoc]
  finish := h'.finish.trans h.finish
  previous := by rw [h'.previous, h.previous, lastSpan_append]

theorem Passes.within (h : c.Passes ts c') (hc : c.Within R) : c'.Within R where
  ahead := by
    have hahead := hc.ahead
    rw [h.ahead, Region.hasTokens_append] at hahead
    exact hahead.2
  finish := h.finish ▸ hc.finish

theorem Passes.hasTokens (h : c.Passes ts c') (hc : c.Within R) : R.HasTokens ts := by
  have hahead := hc.ahead
  rw [h.ahead, Region.hasTokens_append] at hahead
  exact hahead.1

/-- What is next stands in the region. -/
theorem Within.span (h : c.Within R) : R.Has c.span := by
  obtain ⟨ahead, finish, previous⟩ := c
  cases ahead with
  | nil => exact h.finish
  | cons token rest => exact (Region.hasTokens_cons.1 h.ahead).1

/-- To read the next token is to move over it. -/
theorem passes_next {l : Lexeme} (h : c.lexeme? = some l) : c.Passes [⟨l, c.span⟩] c.next := by
  obtain ⟨ahead, finish, previous⟩ := c
  cases ahead with
  | nil => cases h
  | cons token rest =>
    obtain ⟨lexeme, span⟩ := token
    cases h
    exact ⟨rfl, rfl, rfl⟩

theorem lexeme?_of_sees {s : Sign} (h : c.sees s = true) : c.lexeme? = some (.sign s) := by
  unfold sees at h
  split at h
  · next hahead =>
    rw [decide_eq_true_eq] at h
    simp [lexeme?, hahead, h]
  · cases h

theorem lexeme?_of_seesWord {k : Keyword} (h : c.seesWord k = true) :
    c.lexeme? = some (.keyword k) := by
  unfold seesWord at h
  split at h
  · next hahead =>
    rw [decide_eq_true_eq] at h
    simp [lexeme?, hahead, h]
  · cases h

end Cursor

namespace Parser

variable {α β γ : Type} {R : Region}

/-- Nothing is known about what is ahead. -/
def Always (_ : Cursor) : Prop := True

/-- Where the parser ends without a fault, the cursor is one of some. -/
def Leaves (p : Parser α) (after : Cursor → Prop) : Prop :=
  ∀ ⦃c : Cursor⦄ ⦃a : α⦄ ⦃c' : Cursor⦄, p c = .ok (a, c') → after c'

namespace Leaves

variable {p : Parser α} {k : α → Parser β} {after : Cursor → Prop}

theorem failAt {fault : Fault} {span : Span} : (failAt fault span : Parser α).Leaves after := by
  intro c a c' h
  cases h

/-- What the last parser leaves is left in the end. -/
theorem bind (h : ∀ a, (k a).Leaves after) : (p >>= k).Leaves after := by
  intro c b c' hrun
  cases hp : p c with
  | error d =>
    rw [bind_of_error hp] at hrun
    cases hrun
  | ok r =>
    rw [bind_of_ok hp] at hrun
    exact h r.1 hrun

theorem bind_pure {f : α → β} (h : p.Leaves after) :
    (p >>= fun a => Pure.pure (f a)).Leaves after := by
  intro c b c' hrun
  cases hp : p c with
  | error d =>
    rw [bind_of_error hp] at hrun
    cases hrun
  | ok r =>
    rw [bind_of_ok hp] at hrun
    cases hrun
    exact h hp

end Leaves

/-- Where the cursor is one of some and all it sees stands in the region, the parser makes something
of the tokens that it moves over, or finds a fault in the region. -/
def Yields (R : Region) (before : Cursor → Prop) (p : Parser α) (made : List Token → α → Prop) :
    Prop :=
  ∀ c : Cursor, c.Within R → before c →
    match p c with
    | .ok (a, c') => ∃ ts, c.Passes ts c' ∧ made ts a
    | .error d => d.FoundIn R

namespace Yields

variable {before before' : Cursor → Prop} {p : Parser α} {made made' : List Token → α → Prop}
  {follow : List Token → β → Prop}

/-- The rule for a single run: what it gives back decides. -/
theorem of_run (h : ∀ c : Cursor, c.Within R → before c →
    (∃ a c' ts, p c = .ok (a, c') ∧ c.Passes ts c' ∧ made ts a) ∨
      ∃ d, p c = .error d ∧ d.FoundIn R) : Yields R before p made := by
  intro c hc hbefore
  obtain ⟨a, c', ts, hrun, hpass, ha⟩ | ⟨d, hrun, hd⟩ := h c hc hbefore
  · rw [hrun]
    exact ⟨ts, hpass, ha⟩
  · rw [hrun]
    exact hd

theorem mono (h : Yields R before p made) (hbefore : ∀ c, before' c → before c)
    (hmade : ∀ ts a, made ts a → made' ts a) : Yields R before' p made' := by
  intro c hc hc'
  have hp := h c hc (hbefore c hc')
  cases hrun : p c with
  | error d =>
    rw [hrun] at hp
    exact hp
  | ok r =>
    rw [hrun] at hp
    obtain ⟨ts, hpass, ha⟩ := hp
    exact ⟨ts, hpass, hmade ts r.1 ha⟩

/-- What holds whatever is ahead. -/
theorem always (h : Yields R Always p made) : Yields R before p made :=
  h.mono (fun _ _ => trivial) fun _ _ ha => ha

theorem pure {a : α} (h : made [] a) : Yields R before (pure a) made :=
  fun c _ _ => ⟨[], .refl c, h⟩

theorem failAt {fault : Fault} {span : Span} (hkind : fault.kind.isSyntax = true)
    (hspan : R.Has span) : Yields R before (Parser.failAt fault span) made :=
  fun _ _ _ => Fault.at_foundIn hkind hspan

theorem unexpected (expected : String) : Yields R before (Parser.unexpected expected) made := by
  intro c hc _
  have hkind : (Fault.unexpected expected c.found).kind.isSyntax = true := rfl
  exact Fault.at_foundIn hkind hc.span

/-- One parser after the other. The second one may use where the tokens of the first one stand, and
what the first one leaves. -/
theorem bind_of_leaves {k : α → Parser β} {after : Cursor → Prop} (h : Yields R before p made)
    (hleaves : p.Leaves after)
    (hk : ∀ ts a, made ts a → R.HasTokens ts →
      Yields R after (k a) fun ts' b => follow (ts ++ ts') b) :
    Yields R before (p >>= k) follow := by
  intro c hc hbefore
  have hp := h c hc hbefore
  cases hrun : p c with
  | error d =>
    rw [hrun] at hp
    rw [bind_of_error hrun]
    exact hp
  | ok r =>
    obtain ⟨a, c'⟩ := r
    rw [hrun] at hp
    obtain ⟨ts, hpass, ha⟩ := hp
    have hnext := hk ts a ha (hpass.hasTokens hc) c' (hpass.within hc) (hleaves hrun)
    rw [bind_of_ok hrun]
    cases hrun' : k a c' with
    | error d =>
      rw [hrun'] at hnext
      exact hnext
    | ok r' =>
      rw [hrun'] at hnext
      obtain ⟨ts', hpass', hb⟩ := hnext
      exact ⟨ts ++ ts', hpass.trans hpass', hb⟩

theorem bind {k : α → Parser β} (h : Yields R before p made)
    (hk : ∀ ts a, made ts a → R.HasTokens ts →
      Yields R Always (k a) fun ts' b => follow (ts ++ ts') b) :
    Yields R before (p >>= k) follow :=
  h.bind_of_leaves (fun _ _ _ _ => trivial) hk

/-- What a parser makes may be made into something else. -/
theorem bind_pure {f : α → β} (h : Yields R before p made)
    (hf : ∀ ts a, made ts a → follow ts (f a)) :
    Yields R before (p >>= fun a => Pure.pure (f a)) follow := by
  refine h.bind fun ts a ha _ => Yields.pure ?_
  rw [List.append_nil]
  exact hf ts a ha

theorem map {f : α → β} (h : Yields R before p made) (hf : ∀ ts a, made ts a → follow ts (f a)) :
    Yields R before (f <$> p) follow := by
  rw [← bind_pure_comp]
  exact h.bind_pure hf

/-- What is ahead decides which parser it is. -/
theorem of_branch (h : ∀ c, before c → ∃ (q : Parser α) (before' : Cursor → Prop),
    before' c ∧ p c = q c ∧ Yields R before' q made) : Yields R before p made := by
  intro c hc hbefore
  obtain ⟨q, before', hbefore', heq, hq⟩ := h c hbefore
  rw [heq]
  exact hq c hc hbefore'

/-- What is ahead decides between two parsers. -/
theorem ite {cond : Cursor → Bool} {q : Parser α} (h : Yields R before p made)
    (h' : Yields R before q made) :
    Yields R before (fun c => if cond c then p c else q c) made := by
  refine .of_branch fun c hbefore => ?_
  by_cases hcond : cond c = true
  · exact ⟨p, before, hbefore, if_pos hcond, h⟩
  · exact ⟨q, before, hbefore, if_neg hcond, h'⟩

/-- Where the last token stands is told by the tokens, as long as there are any. -/
theorem behind {f : α → Span → β} (h : Yields R before p made)
    (hf : ∀ s ts a, made ts a → follow ts (f a (lastSpan s ts))) :
    Yields R before (p >>= fun a => Parser.behind >>= fun s => Pure.pure (f a s)) follow := by
  intro c hc hbefore
  have hp := h c hc hbefore
  cases hrun : p c with
  | error d =>
    rw [hrun] at hp
    rw [bind_of_error hrun]
    exact hp
  | ok r =>
    rw [hrun] at hp
    obtain ⟨ts, hpass, ha⟩ := hp
    have hresult := hf c.previous ts r.1 ha
    rw [← hpass.previous] at hresult
    rw [bind_of_ok hrun]
    exact ⟨ts, hpass, hresult⟩

/-- To look at the next token tells what it is. -/
theorem peek {k : Option Lexeme → Parser β}
    (h : ∀ next, Yields R (fun c => before c ∧ c.lexeme? = next) (k next) follow) :
    Yields R before (Parser.peek >>= k) follow :=
  fun c hc hbefore => h c.lexeme? c hc ⟨hbefore, rfl⟩

end Yields

/-! ### Single tokens -/

section Single

variable {before : Cursor → Prop}

theorem here_yields : Yields R before here fun ts _ => ts = [] :=
  fun c _ _ => ⟨[], .refl c, rfl⟩

theorem behind_yields : Yields R before behind fun ts _ => ts = [] :=
  fun c _ _ => ⟨[], .refl c, rfl⟩

theorem sees_yields (s : Sign) : Yields R before (sees s) fun ts _ => ts = [] :=
  fun c _ _ => ⟨[], .refl c, rfl⟩

theorem take_yields (l : Lexeme) :
    Yields R (·.lexeme? = some l) take fun ts span => ts = [⟨l, span⟩] :=
  fun _ _ hnext => ⟨_, Cursor.passes_next hnext, rfl⟩

/-- A parser that reads the next token, or finds that something else is expected. -/
theorem token_yields {p : Parser α} {made : List Token → α → Prop} (expected : String)
    (h : ∀ c : Cursor, (∃ l a, c.lexeme? = some l ∧ p c = .ok (a, c.next) ∧ made [⟨l, c.span⟩] a) ∨
      p c = unexpected expected c) : Yields R before p made := by
  refine .of_run fun c hc _ => ?_
  obtain ⟨l, a, hnext, hrun, ha⟩ | hrun := h c
  · exact .inl ⟨a, c.next, _, hrun, Cursor.passes_next hnext, ha⟩
  · have hkind : (Fault.unexpected expected c.found).kind.isSyntax = true := rfl
    exact .inr ⟨_, hrun, Fault.at_foundIn hkind hc.span⟩

theorem expect_yields (s : Sign) :
    Yields R before (expect s) fun ts span => ts = [⟨.sign s, span⟩] := by
  refine token_yields ("'" ++ s.text ++ "'") fun c => ?_
  by_cases hsees : c.sees s = true
  · exact .inl ⟨.sign s, c.span, Cursor.lexeme?_of_sees hsees, by rw [expect, if_pos hsees], rfl⟩
  · exact .inr (by rw [expect, if_neg hsees])

theorem identifier_yields :
    Yields R before identifier fun ts name => ts = [⟨.name name.name, name.span⟩] := by
  refine token_yields "identifier" fun c => ?_
  obtain ⟨ahead, finish, previous⟩ := c
  cases ahead with
  | nil => exact .inr rfl
  | cons token rest =>
    obtain ⟨lexeme, span⟩ := token
    cases lexeme with
    | name name => exact .inl ⟨.name name, ⟨name, span⟩, rfl, rfl, rfl⟩
    | _ => exact .inr rfl

theorem modulePath_yields (earlier : List ModulePath) :
    Yields R before modulePath (ModulePath.IsPath earlier) := by
  refine token_yields "string literal" fun c => ?_
  obtain ⟨ahead, finish, previous⟩ := c
  cases ahead with
  | nil => exact .inr rfl
  | cons token rest =>
    obtain ⟨lexeme, span⟩ := token
    cases lexeme with
    | string path => exact .inl ⟨.string path, ⟨path, span⟩, rfl, rfl, rfl⟩
    | _ => exact .inr rfl

theorem parameterName_yields : Yields R before parameterName fun ts param =>
    ts = [⟨.name param.name, param.span⟩] ∨
      ts = [⟨.keyword .selfWord, param.span⟩] ∧ param.name = selfName := by
  refine .of_run fun c hc _ => ?_
  by_cases hself : c.seesWord .selfWord = true
  · have hpass := Cursor.passes_next (Cursor.lexeme?_of_seesWord hself)
    exact .inl ⟨⟨selfName, c.span⟩, c.next, _, by rw [parameterName, if_pos hself], hpass,
      .inr ⟨rfl, rfl⟩⟩
  · have hrun : parameterName c = identifier c := by rw [parameterName, if_neg hself]
    have hname : Yields R Always identifier _ := identifier_yields
    have hname := hname c hc trivial
    rw [hrun]
    cases hid : identifier c with
    | error d =>
      rw [hid] at hname
      exact .inr ⟨d, rfl, hname⟩
    | ok r =>
      rw [hid] at hname
      obtain ⟨ts, hpass, hts⟩ := hname
      exact .inl ⟨r.1, r.2, ts, rfl, hpass, .inl hts⟩

/-- A sign that is optional has been read exactly where the parser says so. -/
theorem eat_yields (s : Sign) : Yields R before (eat s) fun ts b =>
    b = true ∧ (∃ span, ts = [⟨.sign s, span⟩]) ∨ b = false ∧ ts = [] := by
  refine .of_run fun c _ _ => .inl ?_
  by_cases hsees : c.sees s = true
  · have hpass := Cursor.passes_next (Cursor.lexeme?_of_sees hsees)
    exact ⟨true, c.next, _, by rw [eat, if_pos hsees], hpass, .inl ⟨rfl, c.span, rfl⟩⟩
  · exact ⟨false, c, [], by rw [eat, if_neg hsees], .refl c, .inr ⟨rfl, rfl⟩⟩

theorem eatWord_yields (k : Keyword) : Yields R before (eatWord k) fun ts b =>
    b = true ∧ (∃ span, ts = [⟨.keyword k, span⟩]) ∨ b = false ∧ ts = [] := by
  refine .of_run fun c _ _ => .inl ?_
  by_cases hsees : c.seesWord k = true
  · have hpass := Cursor.passes_next (Cursor.lexeme?_of_seesWord hsees)
    exact ⟨true, c.next, _, by rw [eatWord, if_pos hsees], hpass, .inl ⟨rfl, c.span, rfl⟩⟩
  · exact ⟨false, c, [], by rw [eatWord, if_neg hsees], .refl c, .inr ⟨rfl, rfl⟩⟩

end Single

/-! ### Lists -/

section Lists

variable {before : Cursor → Prop}

/-- The induction is on the number of items that may come. -/
theorem commaListUpTo_yields {item : List α → Parser α} {made : List α → List Token → α → Prop}
    (hitem : ∀ earlier, Yields R Always (item earlier) (made earlier)) (count : Nat)
    (earlier : List α) :
    Yields R Always (commaListUpTo item count earlier) fun ts all =>
      ∃ later, all = earlier ++ later ∧ Separated made earlier ts later := by
  induction count generalizing earlier with
  | zero => exact .unexpected endOfText
  | succ count ih =>
    rw [commaListUpTo]
    refine (sees_yields .rightParen).bind fun ts ended hts _ => ?_
    subst hts
    cases ended with
    | true => exact .pure ⟨[], (List.append_nil earlier).symm, .nil⟩
    | false =>
      refine (hitem earlier).bind fun ts a ha _ => ?_
      refine (eat_yields .comma).bind fun ts' comma hcomma _ => ?_
      obtain ⟨rfl, span, rfl⟩ | ⟨rfl, rfl⟩ := hcomma
      · -- After a comma the list may end, or it goes on with items that know of this one.
        refine (ih (earlier ++ [a])).mono (fun _ h => h) fun ts'' all hall => ?_
        obtain ⟨later, rfl, hlater⟩ := hall
        exact ⟨a :: later, by rw [List.append_assoc, List.singleton_append], .cons ha hlater⟩
      · refine .pure ⟨[a], rfl, ?_⟩
        rw [List.append_nil, List.append_nil]
        exact .last ha

theorem commaList_yields {item : List α → Parser α} {made : List α → List Token → α → Prop}
    (hitem : ∀ earlier, Yields R Always (item earlier) (made earlier)) :
    Yields R before (commaList item) (Separated made []) := by
  intro c hc _
  have hlist : Yields R Always (commaListUpTo item (c.ahead.length + 1) []) (Separated made []) := by
    refine (commaListUpTo_yields hitem _ []).mono (fun _ h => h) fun ts all hall => ?_
    obtain ⟨later, rfl, hlater⟩ := hall
    exact hlater
  exact hlist c hc trivial

/-- The induction is on the number of items that may come. -/
theorem manyUpTo_yields {item : Parser α} {made : List Token → α → Prop} (more : Cursor → Bool)
    (hitem : Yields R Always item made) (count : Nat) :
    Yields R Always (manyUpTo more item count) (Repeated made) := by
  have hdone : Yields R Always (pure [] : Parser (List α)) (Repeated made) := .pure .nil
  induction count with
  | zero => exact .ite (.unexpected endOfText) hdone
  | succ count ih =>
    have hboth : Yields R Always (do
        let first ← item
        let rest ← manyUpTo more item count
        return first :: rest) (Repeated made) :=
      hitem.bind fun ts a ha _ => ih.bind_pure fun ts' as has => .cons ha has
    exact .ite hboth hdone

theorem many_yields {item : Parser α} {made : List Token → α → Prop} (more : Cursor → Bool)
    (hitem : Yields R Always item made) :
    Yields R before (many more item) (Repeated made) :=
  fun c hc _ => manyUpTo_yields more hitem (c.ahead.length + 1) c hc trivial

/-- The items end where there are no more. -/
theorem manyUpTo_stops {item : Parser α} {more : Cursor → Bool} {count : Nat} {c c' : Cursor}
    {as : List α} (h : manyUpTo more item count c = .ok (as, c')) : more c' = false := by
  induction count generalizing c as with
  | zero =>
    rw [manyUpTo] at h
    dsimp only at h
    split at h
    · cases h
    · next hmore =>
      cases h
      simpa using hmore
  | succ count ih =>
    rw [manyUpTo] at h
    dsimp only at h
    split at h
    · cases hfirst : item c with
      | error d =>
        rw [bind_of_error hfirst] at h
        cases h
      | ok r =>
        rw [bind_of_ok hfirst] at h
        cases hrest : manyUpTo more item count r.2 with
        | error d =>
          rw [bind_of_error hrest] at h
          cases h
        | ok r' =>
          rw [bind_of_ok hrest] at h
          cases h
          exact ih hrest
    · next hmore =>
      cases h
      simpa using hmore

theorem many_stops {item : Parser α} {more : Cursor → Bool} {c c' : Cursor} {as : List α}
    (h : many more item c = .ok (as, c')) : more c' = false :=
  manyUpTo_stops h

end Lists

end Parser

end ScriptLang
