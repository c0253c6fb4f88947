import ScriptLang.Proofs.Syntax.Printer
import ScriptLang.Syntax.Cursor

/-!
# Parsers on written trees

What a parser does where certain lexemes are ahead. A parser of a nested construct may need more
budget than there is, so each statement has two sides: with enough budget the lexemes are read and
something of the right kind is made of them, and without it the parser fails.

## Main definitions

* `Parser.Steps`: a parser reads some lexemes and goes on as another parser
* `Parser.Reads`: a parser reads some lexemes

## Main results

* `Parser.Steps.trans`, `Parser.Reads.bind`: reading one thing after another
* `Parser.commaList_reads`, `Parser.many_reads`: reading lists
-/

namespace ScriptLang

/-- The lexeme after some lexemes, where `next` comes after all of them. -/
def firstOf (ls : List Lexeme) (next : Option Lexeme) : Option Lexeme := ls.head?.or next

theorem lexeme?_append (tokens rest : List Token) (finish previous : Span) :
    (Cursor.mk (tokens ++ rest) finish previous).lexeme? =
      firstOf (tokens.map Token.lexeme) (rest.head?.map Token.lexeme) := by
  cases tokens with
  | nil => rfl
  | cons token tokens => rfl

namespace Parser

variable {α β γ : Type}

/-- Where the lexemes are ahead, with something after them that is allowed to follow: if there is
enough of what it takes, the parser reads them, makes something acceptable of them, and goes on as
another parser; otherwise it fails. -/
def Steps (enough : Prop) (p : Parser β) (ls : List Lexeme) (follow : Option Lexeme → Prop)
    (made : α → Prop) (k : α → Parser β) : Prop :=
  ∀ (tokens rest : List Token) (finish previous : Span), tokens.map Token.lexeme = ls →
    follow (rest.head?.map Token.lexeme) →
      (enough → ∃ a previous', made a ∧
        p ⟨tokens ++ rest, finish, previous⟩ = k a ⟨rest, finish, previous'⟩) ∧
      (¬enough → ∃ d, p ⟨tokens ++ rest, finish, previous⟩ = .error d)

/-- Where the lexemes are ahead, the parser reads them and is done. -/
def Reads (enough : Prop) (p : Parser α) (ls : List Lexeme) (follow : Option Lexeme → Prop)
    (made : α → Prop) : Prop :=
  Steps enough p ls follow made pure

/-- Anything may follow. -/
def Any (_ : Option Lexeme) : Prop := True

theorem bind_of_ok {p : Parser α} {k : α → Parser β} {c c' : Cursor} {a : α}
    (h : p c = .ok (a, c')) : (p >>= k) c = k a c' := by
  change (p c >>= fun r => k r.1 r.2) = _
  rw [h]
  rfl

theorem bind_of_error {p : Parser α} {k : α → Parser β} {c : Cursor} {d : Diagnostic}
    (h : p c = .error d) : (p >>= k) c = .error d := by
  change (p c >>= fun r => k r.1 r.2) = _
  rw [h]
  rfl

namespace Steps

variable {enough enough' both : Prop} {p : Parser γ} {ls ls' : List Lexeme}
  {follow follow' : Option Lexeme → Prop} {made : α → Prop} {made' : β → Prop}
  {k : α → Parser γ} {k' : β → Parser γ}

/-- One step after the other. What follows the first one begins with the lexemes of the second. -/
theorem trans (h : Steps enough p ls follow made k) (hboth : both ↔ enough ∧ enough')
    (h' : ∀ a, made a → Steps enough' (k a) ls' follow' made' k')
    (hfollow : ∀ next, follow' next → follow (firstOf ls' next)) :
    Steps both p (ls ++ ls') follow' made' k' := by
  rw [hboth]
  intro tokens rest finish previous htokens hrest
  obtain ⟨front, back, rfl, hfront, hback⟩ := List.map_eq_append_iff.1 htokens
  -- For the first step the tokens of the second one are ahead, and then the rest.
  have hnext : follow ((back ++ rest).head?.map Token.lexeme) := by
    change follow (Cursor.mk (back ++ rest) finish previous).lexeme?
    rw [lexeme?_append, hback]
    exact hfollow _ hrest
  obtain ⟨hok, hfail⟩ := h front (back ++ rest) finish previous hfront hnext
  rw [List.append_assoc]
  -- If the first step fails, so do both; otherwise the second one decides.
  by_cases henough : enough
  · obtain ⟨a, previous', ha, hp⟩ := hok henough
    rw [hp]
    obtain ⟨hok', hfail'⟩ := h' a ha back rest finish previous' hback hrest
    exact ⟨fun hboth => hok' hboth.2, fun hnot => hfail' fun h' => hnot ⟨henough, h'⟩⟩
  · exact ⟨fun hboth => absurd hboth.1 henough, fun _ => hfail henough⟩

/-- The same step, told in another way. -/
theorem mono (h : Steps enough p ls follow made k) (henough : enough ↔ enough') (hls : ls = ls')
    (hfollow : ∀ next, follow' next → follow next) : Steps enough' p ls' follow' made k := by
  intro tokens rest finish previous htokens hrest
  rw [← henough]
  exact h tokens rest finish previous (htokens.trans hls.symm) (hfollow _ hrest)

/-- A parser that does the same takes the same step. -/
theorem congr {q : Parser γ} (h : Steps enough p ls follow made k)
    (heq : ∀ tokens rest finish previous, tokens.map Token.lexeme = ls →
      q ⟨tokens ++ rest, finish, previous⟩ = p ⟨tokens ++ rest, finish, previous⟩) :
    Steps enough q ls follow made k := by
  intro tokens rest finish previous htokens hrest
  rw [heq tokens rest finish previous htokens]
  exact h tokens rest finish previous htokens hrest

end Steps

theorem pure_reads {follow : Option Lexeme → Prop} {made : α → Prop} {a : α} (h : made a) :
    Reads True (pure a) [] follow made := by
  intro tokens rest finish previous htokens _
  rw [List.map_eq_nil_iff.1 htokens]
  exact ⟨fun _ => ⟨a, previous, h, rfl⟩, fun h => absurd trivial h⟩

namespace Reads

variable {enough enough' both : Prop} {p : Parser α} {ls ls' : List Lexeme}
  {follow follow' : Option Lexeme → Prop} {made : α → Prop} {made' : γ → Prop}
  {k : α → Parser β} {k' : γ → Parser β}

/-- What reads some lexemes first takes a step over them. -/
theorem steps (h : Reads enough p ls follow made) (k : α → Parser β) :
    Steps enough (p >>= k) ls follow made k := by
  intro tokens rest finish previous htokens hrest
  obtain ⟨hok, hfail⟩ := h tokens rest finish previous htokens hrest
  constructor
  · intro henough
    obtain ⟨a, previous', ha, hp⟩ := hok henough
    exact ⟨a, previous', ha, bind_of_ok hp⟩
  · intro hnot
    obtain ⟨d, hd⟩ := hfail hnot
    exact ⟨d, bind_of_error hd⟩

/-- Read some lexemes and then do something else. -/
theorem bind (h : Reads enough p ls follow made) (hboth : both ↔ enough ∧ enough')
    (h' : ∀ a, made a → Steps enough' (k a) ls' follow' made' k')
    (hfollow : ∀ next, follow' next → follow (firstOf ls' next)) :
    Steps both (p >>= k) (ls ++ ls') follow' made' k' :=
  (h.steps k).trans hboth h' hfollow

/-- Read some lexemes, for which no budget is needed, and then do something else. -/
theorem andThen (h : Reads True p ls follow made)
    (h' : ∀ a, made a → Steps enough' (k a) ls' follow' made' k')
    (hfollow : ∀ next, follow' next → follow (firstOf ls' next)) :
    Steps enough' (p >>= k) (ls ++ ls') follow' made' k' :=
  h.bind (by rw [true_and]) h' hfollow

/-- Read some lexemes and then do something else, for which no budget is needed. -/
theorem bindFree (h : Reads enough p ls follow made)
    (h' : ∀ a, made a → Steps True (k a) ls' follow' made' k')
    (hfollow : ∀ next, follow' next → follow (firstOf ls' next)) :
    Steps enough (p >>= k) (ls ++ ls') follow' made' k' :=
  h.bind (by rw [and_true]) h' hfollow

/-- Read some lexemes and then do something that reads nothing. -/
theorem bindLast (h : Reads enough p ls follow made)
    (h' : ∀ a, made a → Steps True (k a) [] follow' made' k')
    (hfollow : ∀ next, follow' next → follow next) :
    Steps enough (p >>= k) ls follow' made' k' := by
  have hboth := h.bindFree h' hfollow
  rwa [List.append_nil] at hboth

/-- Read some lexemes and make something of the result. -/
theorem bind_pure {f : α → β} {made' : β → Prop} (h : Reads enough p ls follow made)
    (hf : ∀ a, made a → made' (f a)) :
    Reads enough (p >>= fun a => pure (f a)) ls follow made' :=
  h.bindLast (fun a ha => pure_reads (hf a ha)) fun _ hnext => hnext

/-- What reads some lexemes whatever follows reads them also before what may follow. -/
theorem before (h : Reads enough p ls Any made) (follow : Option Lexeme → Prop) :
    Reads enough p ls follow made :=
  h.mono Iff.rfl rfl fun _ _ => trivial

theorem map {f : α → β} {made' : β → Prop} (h : Reads enough p ls follow made)
    (hf : ∀ a, made a → made' (f a)) : Reads enough (f <$> p) ls follow made' := by
  rw [← bind_pure_comp]
  exact h.bind_pure hf

end Reads

/-! ### Single tokens -/

section Single

variable {follow : Option Lexeme → Prop}

/-- A parser that reads a token of the lexeme. -/
theorem reads_token {p : Parser α} {l : Lexeme} {made : α → Prop}
    (h : ∀ span rest finish previous, ∃ a, made a ∧
      p ⟨⟨l, span⟩ :: rest, finish, previous⟩ = .ok (a, ⟨rest, finish, span⟩)) :
    Reads True p [l] Any made := by
  intro tokens rest finish previous htokens _
  obtain ⟨token, tail, rfl, rfl, htail⟩ := List.map_eq_cons_iff.1 htokens
  rw [List.map_eq_nil_iff.1 htail]
  obtain ⟨a, ha, hp⟩ := h token.span rest finish previous
  exact ⟨fun _ => ⟨a, token.span, ha, hp⟩, fun h => absurd trivial h⟩

theorem take_reads (l : Lexeme) : Reads True take [l] Any fun _ => True :=
  reads_token fun span _ _ _ => ⟨span, trivial, rfl⟩

theorem expect_reads (s : Sign) : Reads True (expect s) [.sign s] Any fun _ => True :=
  reads_token fun span _ _ _ =>
    ⟨span, trivial, by simp [expect, Cursor.sees, Cursor.span, Cursor.next]⟩

theorem eat_reads (s : Sign) : Reads True (eat s) [.sign s] Any (· = true) :=
  reads_token fun _ _ _ _ => ⟨true, rfl, by simp [eat, Cursor.sees, Cursor.next]⟩

theorem eatWord_reads (k : Keyword) : Reads True (eatWord k) [.keyword k] Any (· = true) :=
  reads_token fun _ _ _ _ => ⟨true, rfl, by simp [eatWord, Cursor.seesWord, Cursor.next]⟩

theorem identifier_reads (name : String) :
    Reads True identifier [.name name] Any (·.name = name) :=
  reads_token fun span _ _ _ => ⟨⟨name, span⟩, rfl, rfl⟩

theorem modulePath_reads (path : String) :
    Reads True modulePath [.string path] Any (·.path = path) :=
  reads_token fun span _ _ _ => ⟨⟨path, span⟩, rfl, rfl⟩

theorem parameterName_reads (param : Ident) :
    Reads True parameterName [param.asParameter] Any (·.name = param.name) := by
  refine reads_token fun span rest finish previous => ⟨⟨param.name, span⟩, rfl, ?_⟩
  rw [Ident.asParameter]
  by_cases hself : param.name = selfName
  · rw [if_pos hself, hself]
    simp [parameterName, Cursor.seesWord, Cursor.span, Cursor.next]
  · rw [if_neg hself]
    simp [parameterName, Cursor.seesWord, identifier, Cursor.next]

/-- A parser that reads nothing. -/
theorem reads_nil {p : Parser α} {made : α → Prop}
    (h : ∀ c : Cursor, follow c.lexeme? → ∃ a, made a ∧ p c = .ok (a, c)) :
    Reads True p [] follow made := by
  intro tokens rest finish previous htokens hrest
  rw [List.map_eq_nil_iff.1 htokens]
  obtain ⟨a, ha, hp⟩ := h ⟨rest, finish, previous⟩ hrest
  exact ⟨fun _ => ⟨a, previous, ha, hp⟩, fun h => absurd trivial h⟩

theorem here_reads : Reads True here [] Any fun _ => True :=
  reads_nil fun c _ => ⟨c.span, trivial, rfl⟩

theorem behind_reads : Reads True behind [] Any fun _ => True :=
  reads_nil fun c _ => ⟨c.previous, trivial, rfl⟩

theorem sees_eq_true {c : Cursor} {s : Sign} (h : c.lexeme? = some (.sign s)) :
    c.sees s = true := by
  obtain ⟨ahead, finish, previous⟩ := c
  cases ahead with
  | nil => cases h
  | cons token rest =>
    obtain ⟨l, span⟩ := token
    cases h
    simp [Cursor.sees]

theorem atEnd_eq_true {c : Cursor} (h : c.lexeme? = none) : c.atEnd = true := by
  obtain ⟨ahead, finish, previous⟩ := c
  cases ahead with
  | nil => rfl
  | cons token rest => cases h

theorem atEnd_eq_false {c : Cursor} {l : Lexeme} (h : c.lexeme? = some l) : c.atEnd = false := by
  obtain ⟨ahead, finish, previous⟩ := c
  cases ahead with
  | nil => cases h
  | cons token rest => rfl

theorem sees_eq_false {c : Cursor} {s : Sign} (h : c.lexeme? ≠ some (.sign s)) :
    c.sees s = false := by
  rw [Cursor.sees]
  split
  · next hahead => simpa [Cursor.lexeme?, hahead] using h
  · rfl

theorem seesWord_eq_false {c : Cursor} {k : Keyword} (h : c.lexeme? ≠ some (.keyword k)) :
    c.seesWord k = false := by
  rw [Cursor.seesWord]
  split
  · next hahead => simpa [Cursor.lexeme?, hahead] using h
  · rfl

theorem sees_reads (s : Sign) : Reads True (sees s) [] (· = some (.sign s)) (· = true) :=
  reads_nil fun c hc => ⟨true, rfl, by rw [sees, sees_eq_true hc]⟩

theorem sees_skips (s : Sign) : Reads True (sees s) [] (· ≠ some (.sign s)) (· = false) :=
  reads_nil fun c hc => ⟨false, rfl, by rw [sees, sees_eq_false hc]⟩

theorem eat_skips (s : Sign) : Reads True (eat s) [] (· ≠ some (.sign s)) (· = false) :=
  reads_nil fun c hc => ⟨false, rfl, by rw [eat, sees_eq_false hc]; rfl⟩

theorem eatWord_skips (k : Keyword) :
    Reads True (eatWord k) [] (· ≠ some (.keyword k)) (· = false) :=
  reads_nil fun c hc => ⟨false, rfl, by rw [eatWord, seesWord_eq_false hc]; rfl⟩

/-- To look at the next token does not read it. -/
theorem peek_steps {enough : Prop} {l : Lexeme} {ls : List Lexeme} {made : α → Prop}
    {k : Option Lexeme → Parser β} {k' : α → Parser β}
    (h : Steps enough (k (some l)) (l :: ls) follow made k') :
    Steps enough (peek >>= k) (l :: ls) follow made k' := by
  refine h.congr fun tokens rest finish previous htokens => ?_
  obtain ⟨token, tail, rfl, rfl, -⟩ := List.map_eq_cons_iff.1 htokens
  rfl

/-- A parser that does, where the lexeme is next, what another does, reads what that one reads. -/
theorem Reads.of_head {enough : Prop} {p q : Parser α} {l : Lexeme} {ls : List Lexeme}
    {made : α → Prop} (h : Reads enough p (l :: ls) follow made)
    (heq : ∀ span rest finish previous,
      q ⟨⟨l, span⟩ :: rest, finish, previous⟩ = p ⟨⟨l, span⟩ :: rest, finish, previous⟩) :
    Reads enough q (l :: ls) follow made := by
  refine h.congr fun tokens rest finish previous htokens => ?_
  obtain ⟨token, tail, rfl, rfl, -⟩ := List.map_eq_cons_iff.1 htokens
  exact heq token.span (tail ++ rest) finish previous

end Single

/-! ### Lists

The items of a list are written in a row, and read as long as the next lexeme begins an item. -/

section Lists

variable {print : α → List Lexeme} {enough : α → Prop} {view : α → γ}

/-- Every item takes a lexeme at least. -/
theorem length_le_commaSeparated {items : List (List Lexeme)} (h : ∀ ls ∈ items, ls ≠ []) :
    items.length ≤ (commaSeparated items).length := by
  induction items with
  | nil => exact Nat.le_refl _
  | cons item items ih =>
    have hitem : 0 < item.length := List.length_pos_iff.2 (h item List.mem_cons_self)
    have hitems := ih fun ls hls => h ls (List.mem_cons_of_mem _ hls)
    cases items with
    | nil => exact hitem
    | cons next items =>
      simp only [commaSeparated, List.length_cons, List.length_append] at hitems ⊢
      omega

theorem length_le_flatMap {xs : List α} (h : ∀ x ∈ xs, print x ≠ []) :
    xs.length ≤ (xs.flatMap print).length := by
  induction xs with
  | nil => exact Nat.le_refl _
  | cons x xs ih =>
    have hitem : 0 < (print x).length := List.length_pos_iff.2 (h x List.mem_cons_self)
    have hitems := ih fun y hy => h y (List.mem_cons_of_mem _ hy)
    rw [List.flatMap_cons, List.length_append, List.length_cons]
    omega

/-- What may follow an item of a list between parentheses. -/
def EndsItem (next : Option Lexeme) : Prop :=
  next = some (.sign .comma) ∨ next = some (.sign .rightParen)

section CommaList

variable {item : List α → Parser α} {all : List α}
  (hbegin : ∀ x ∈ all, ∃ l ls, print x = l :: ls ∧ l ≠ .sign .rightParen)
  (hitem : ∀ done x later, all = done ++ x :: later → ∀ earlier, earlier.map view = done.map view →
    Reads (enough x) (item earlier) (print x) EndsItem (view · = view x))
include hbegin hitem

/-- The induction is on the items to come, after those that have been read. -/
theorem commaListUpTo_reads (xs done earlier : List α) (count : Nat) (hall : all = done ++ xs)
    (hearlier : earlier.map view = done.map view) (hcount : xs.length < count) :
    Reads (∀ x ∈ xs, enough x) (commaListUpTo item count earlier) (commaSeparated (xs.map print))
      (· = some (.sign .rightParen)) (·.map view = all.map view) := by
  induction xs generalizing done earlier count with
  | nil =>
    obtain ⟨count, rfl⟩ : ∃ n, count = n + 1 := ⟨count - 1, by omega⟩
    have hdone : earlier.map view = all.map view := by rw [hearlier, hall, List.append_nil]
    have hnone : (∀ x ∈ ([] : List α), enough x) = True := by simp
    -- The closing parenthesis is next, so the list ends before another item.
    rw [hnone, commaListUpTo]
    refine (sees_reads .rightParen).andThen (fun b hb => ?_) fun _ hnext => hnext
    subst hb
    exact pure_reads hdone
  | cons x xs ih =>
    obtain ⟨count, rfl⟩ : ∃ n, count = n + 1 := ⟨count - 1, by omega⟩
    obtain ⟨l, ls, hprint, hl⟩ := hbegin x (by simp [hall])
    have hread := hitem done x xs hall earlier hearlier
    have hdone (a : α) (ha : view a = view x) :
        (earlier ++ [a]).map view = (done ++ [x]).map view := by
      simp [hearlier, ha]
    have hskip (ls' : List Lexeme) (next : Option Lexeme) :
        firstOf (print x ++ ls') next ≠ some (.sign .rightParen) := by
      rw [hprint]
      exact fun heq => hl (Option.some.inj heq)
    rw [commaListUpTo]
    cases xs with
    | nil =>
      have hone : (∀ y ∈ [x], enough y) ↔ enough x := by simp
      refine (sees_skips .rightParen).andThen (fun b hb => ?_) fun next _ => ?_
      · subst hb
        rw [hone]
        -- No comma follows the last item, so the list ends there.
        refine hread.bindLast (fun a ha => ?_) fun next hnext => .inr hnext
        refine (eat_skips .comma).andThen (fun b hb => ?_) ?_
        · subst hb
          apply pure_reads
          rw [hdone a ha, hall]
        · rintro next rfl
          simp [firstOf]
      · have := hskip [] next
        rwa [List.append_nil] at this
    | cons y ys =>
      refine (sees_skips .rightParen).andThen (fun b hb => ?_) fun next _ => hskip _ next
      subst hb
      refine hread.bind List.forall_mem_cons (fun a ha => ?_) fun next _ => .inl rfl
      -- A comma follows, and the item just read is one of the earlier ones from now on.
      refine (eat_reads .comma).andThen (fun b hb => ?_) fun _ _ => trivial
      subst hb
      refine ih (done ++ [x]) (earlier ++ [a]) count ?_ (hdone a ha) ?_
      · rw [hall, List.append_assoc, List.singleton_append]
      · simpa using hcount

/-- Items with commas between them are read up to the closing parenthesis. -/
theorem commaList_reads :
    Reads (∀ x ∈ all, enough x) (commaList item) (commaSeparated (all.map print))
      (· = some (.sign .rightParen)) (·.map view = all.map view) := by
  intro tokens rest finish previous htokens hrest
  -- There are as many rounds as tokens, and each item has a token at least.
  have hlength : all.length ≤ tokens.length := by
    have hprints : ∀ ls ∈ all.map print, ls ≠ [] := by
      intro ls hls
      obtain ⟨x, hx, rfl⟩ := List.mem_map.1 hls
      obtain ⟨l, ls, hprint, -⟩ := hbegin x hx
      simp [hprint]
    have hitems := length_le_commaSeparated hprints
    rwa [← htokens, List.length_map, List.length_map] at hitems
  refine commaListUpTo_reads hbegin hitem all [] [] _ rfl rfl ?_ tokens rest finish previous htokens
    hrest
  rw [List.length_append]
  omega

end CommaList

section Many

variable {item : Parser α} {more : Cursor → Bool} {follow stop : Option Lexeme → Prop}

/-- The induction is on the items to come. -/
theorem manyUpTo_reads (hstop : ∀ c : Cursor, stop c.lexeme? → more c = false)
    (hfollow : ∀ next, stop next → follow next) (xs : List α)
    (hbegin : ∀ x ∈ xs, ∃ l ls, print x = l :: ls ∧ follow (some l) ∧
      ∀ c : Cursor, c.lexeme? = some l → more c = true)
    (hitem : ∀ x ∈ xs, Reads (enough x) item (print x) follow (view · = view x)) (count : Nat)
    (hcount : xs.length ≤ count) :
    Reads (∀ x ∈ xs, enough x) (manyUpTo more item count) (xs.flatMap print) stop
      (·.map view = xs.map view) := by
  induction xs generalizing count with
  | nil =>
    have hnone : (∀ x ∈ ([] : List α), enough x) = True := by simp
    rw [hnone]
    refine reads_nil fun c hc => ⟨[], rfl, ?_⟩
    have hdone : more c = false := hstop c hc
    cases count with
    | zero => simp [manyUpTo, hdone]
    | succ count => simp [manyUpTo, hdone]
  | cons x xs ih =>
    obtain ⟨count, rfl⟩ : ∃ n, count = n + 1 := ⟨count - 1, by simp at hcount; omega⟩
    obtain ⟨l, ls, hprint, -, hmore⟩ := hbegin x List.mem_cons_self
    have hrest := ih (fun y hy => hbegin y (List.mem_cons_of_mem _ hy))
      (fun y hy => hitem y (List.mem_cons_of_mem _ hy)) count (by simpa using hcount)
    have hread := hitem x List.mem_cons_self
    have hboth : Reads (∀ y ∈ x :: xs, enough y) (do
        let first ← item
        let rest ← manyUpTo more item count
        return first :: rest) (print x ++ xs.flatMap print) stop
        (·.map view = (x :: xs).map view) := by
      refine hread.bind List.forall_mem_cons (fun a ha => ?_) fun next hnext => ?_
      · refine hrest.bind_pure fun as has => ?_
        rw [List.map_cons, List.map_cons, ha, has]
      · -- What follows the item is the end of the list or the next item.
        cases xs with
        | nil => exact hfollow next hnext
        | cons y ys =>
          obtain ⟨l', ls', hprint', hl', -⟩ := hbegin y (by simp)
          rw [List.flatMap_cons, hprint']
          exact hl'
    rw [List.flatMap_cons]
    refine hboth.congr fun tokens rest finish previous htokens => ?_
    -- The first lexeme of the item is next, so there is more to read.
    have hgoes : more ⟨tokens ++ rest, finish, previous⟩ = true := by
      refine hmore _ ?_
      rw [lexeme?_append, htokens, hprint]
      rfl
    rw [manyUpTo]
    exact if_pos hgoes

/-- Items are read as long as there are more. -/
theorem many_reads (hstop : ∀ c : Cursor, stop c.lexeme? → more c = false)
    (hfollow : ∀ next, stop next → follow next) (xs : List α)
    (hbegin : ∀ x ∈ xs, ∃ l ls, print x = l :: ls ∧ follow (some l) ∧
      ∀ c : Cursor, c.lexeme? = some l → more c = true)
    (hitem : ∀ x ∈ xs, Reads (enough x) item (print x) follow (view · = view x)) :
    Reads (∀ x ∈ xs, enough x) (many more item) (xs.flatMap print) stop
      (·.map view = xs.map view) := by
  intro tokens rest finish previous htokens hrest
  have hlength : xs.length ≤ tokens.length := by
    have hprints : ∀ x ∈ xs, print x ≠ [] := by
      intro x hx
      obtain ⟨l, ls, hprint, -⟩ := hbegin x hx
      simp [hprint]
    have hitems := length_le_flatMap hprints
    rwa [← htokens, List.length_map] at hitems
  refine manyUpTo_reads hstop hfollow xs hbegin hitem _ ?_ tokens rest finish previous htokens hrest
  rw [List.length_append]
  omega

end Many

end Lists

end Parser

end ScriptLang
