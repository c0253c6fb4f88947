import ScriptLang.Proofs.Json.Spacing

/-!
# Reading back a value that was written

Writing a value gives pieces, and the value that those pieces write is the value. With the pieces in any
spacing, a document of a value made of texts and naturals is read as that value.

## Main results

* `ofLexemes?_lexemes`: the pieces of a value write that value
* `parse?_spaced`: a document of a value, in any spacing, is read as that value
-/

namespace ScriptLang.Json

/-! ### Values from pieces

An array and an object read their parts with less fuel than they are given, but every value has a piece
of its own, so twice the number of pieces is enough. -/

theorem lexemes_length_pos (j : Json) : 0 < j.lexemes.length := by
  cases j <;> rw [lexemes] <;> simp

/-- No value begins with the end of an array, so an array with items is not taken for an empty one. -/
theorem scanValue_beginArray (fuel : Nat) (item : Json) (items : List Json) (rest : List Lexeme) :
    scanValue (fuel + 1) (.beginArray :: (itemLexemes (item :: items) ++ rest)) =
      (scanItems fuel (itemLexemes (item :: items) ++ rest)).map
        fun (items, rest) => (array items, rest) := by
  have hfirst : ∀ more, itemLexemes (item :: items) ++ rest ≠ .endArray :: more := by
    intro more heq
    cases items <;> cases item <;> simp [itemLexemes, lexemes] at heq
  rw [scanValue]
  exact hfirst

theorem scanValue_beginObject (fuel : Nat) (member : List Char × Json)
    (members : List (List Char × Json)) (rest : List Lexeme) :
    scanValue (fuel + 1) (.beginObject :: (memberLexemes (member :: members) ++ rest)) =
      (scanMembers fuel (memberLexemes (member :: members) ++ rest)).map
        fun (members, rest) => (object members, rest) := by
  obtain ⟨name, value⟩ := member
  have hfirst : ∀ more, memberLexemes ((name, value) :: members) ++ rest ≠ .endObject :: more := by
    intro more heq
    cases members <;> simp [memberLexemes] at heq
  rw [scanValue]
  exact hfirst

mutual

theorem scanValue_lexemes : ∀ (fuel : Nat) (j : Json), 2 * j.lexemes.length ≤ fuel + 1 →
    ∀ rest, scanValue fuel (j.lexemes ++ rest) = some (j, rest)
  | 0, j, h => by
    have := j.lexemes_length_pos
    omega
  | _ + 1, null, _ | _ + 1, bool _, _ | _ + 1, number _, _ | _ + 1, string _, _
  | _ + 1, array [], _ | _ + 1, object [], _ => fun _ => rfl
  | fuel + 1, array (item :: items), h => fun rest => by
    simp only [lexemes, List.length_cons, List.length_append, List.length_nil] at h
    have hitems := scanItems_lexemes fuel item items (by omega) rest
    simp only [lexemes, List.cons_append, List.append_assoc, List.nil_append, scanValue_beginArray,
      hitems, Option.map_some]
  | fuel + 1, object ((name, value) :: members), h => fun rest => by
    simp only [lexemes, List.length_cons, List.length_append, List.length_nil] at h
    have hmembers := scanMembers_lexemes fuel name value members (by omega) rest
    simp only [lexemes, List.cons_append, List.append_assoc, List.nil_append, scanValue_beginObject,
      hmembers, Option.map_some]

theorem scanItems_lexemes : ∀ (fuel : Nat) (item : Json) (items : List Json),
    2 * (itemLexemes (item :: items)).length ≤ fuel →
    ∀ rest, scanItems fuel (itemLexemes (item :: items) ++ .endArray :: rest) =
      some (item :: items, rest)
  | 0, item, items, h => by
    have := item.lexemes_length_pos
    cases items <;> simp only [itemLexemes, List.length_append] at h <;> omega
  | fuel + 1, item, [], h => fun rest => by
    rw [itemLexemes] at h ⊢
    rw [scanItems, scanValue_lexemes fuel item h]
  | fuel + 1, item, next :: items, h => fun rest => by
    have := item.lexemes_length_pos
    simp only [itemLexemes, List.length_append, List.length_cons] at h
    simp only [itemLexemes, List.append_assoc, List.cons_append, scanItems,
      scanValue_lexemes fuel item (by omega), scanItems_lexemes fuel next items (by omega),
      Option.map_some]

theorem scanMembers_lexemes : ∀ (fuel : Nat) (name : List Char) (value : Json)
    (members : List (List Char × Json)),
    2 * (memberLexemes ((name, value) :: members)).length ≤ fuel →
    ∀ rest, scanMembers fuel (memberLexemes ((name, value) :: members) ++ .endObject :: rest) =
      some ((name, value) :: members, rest)
  | 0, name, value, members, h => by
    cases members <;> simp only [memberLexemes, List.length_append, List.length_cons] at h <;> omega
  | fuel + 1, name, value, [], h => fun rest => by
    simp only [memberLexemes, List.length_cons] at h
    rw [memberLexemes, List.cons_append, List.cons_append, scanMembers,
      scanValue_lexemes fuel value (by omega)]
  | fuel + 1, name, value, (name', value') :: members, h => fun rest => by
    simp only [memberLexemes, List.cons_append, List.length_cons, List.length_append] at h
    simp only [memberLexemes, List.cons_append, List.append_assoc, scanMembers,
      scanValue_lexemes fuel value (by omega),
      scanMembers_lexemes fuel name' value' members (by omega), Option.map_some]

end

/-- The pieces of a value write that value. -/
theorem ofLexemes?_lexemes (j : Json) : ofLexemes? j.lexemes = some j := by
  have hread := scanValue_lexemes (2 * j.lexemes.length + 1) j (by omega) []
  rw [List.append_nil] at hread
  rw [ofLexemes?, hread]

/-! ### Values from documents -/

/-- What is no number may stand before anything. -/
theorem isChain_cons_of_not_isNumber {x : Lexeme} (hx : ¬x.IsNumber) {rest : List Lexeme}
    (hrest : rest.IsChain Lexeme.Apart) : (x :: rest).IsChain Lexeme.Apart :=
  List.isChain_cons.2 ⟨fun _ _ h => hx h.1, hrest⟩

mutual

/-- No numbers meet in the pieces of a value, nor where it meets what follows. -/
theorem lexemes_apart : ∀ (j : Json) {rest : List Lexeme}, (∀ y ∈ rest.head?, ¬y.IsNumber) →
    rest.IsChain Lexeme.Apart → (j.lexemes ++ rest).IsChain Lexeme.Apart
  | null, _, _, hrest | bool _, _, _, hrest | string _, _, _, hrest =>
    isChain_cons_of_not_isNumber id hrest
  | number _, _, hfirst, hrest => List.isChain_cons.2 ⟨fun y hy h => hfirst y hy h.2, hrest⟩
  | array items, rest, _, hrest => by
    have hend := isChain_cons_of_not_isNumber (x := .endArray) id hrest
    have hitems := itemLexemes_apart items (by simp [Lexeme.IsNumber]) hend
    rw [lexemes, List.append_assoc, List.cons_append]
    exact isChain_cons_of_not_isNumber id hitems
  | object members, rest, _, hrest => by
    have hend := isChain_cons_of_not_isNumber (x := .endObject) id hrest
    have hmembers := memberLexemes_apart members (by simp [Lexeme.IsNumber]) hend
    rw [lexemes, List.append_assoc, List.cons_append]
    exact isChain_cons_of_not_isNumber id hmembers

theorem itemLexemes_apart : ∀ (items : List Json) {rest : List Lexeme},
    (∀ y ∈ rest.head?, ¬y.IsNumber) → rest.IsChain Lexeme.Apart →
    (itemLexemes items ++ rest).IsChain Lexeme.Apart
  | [], _, _, hrest => hrest
  | [item], _, hfirst, hrest => lexemes_apart item hfirst hrest
  | item :: next :: items, _, hfirst, hrest => by
    have hitems := itemLexemes_apart (next :: items) hfirst hrest
    simp only [itemLexemes, List.append_assoc, List.cons_append]
    exact lexemes_apart item (by simp [Lexeme.IsNumber]) (isChain_cons_of_not_isNumber id hitems)

theorem memberLexemes_apart : ∀ (members : List (List Char × Json)) {rest : List Lexeme},
    (∀ y ∈ rest.head?, ¬y.IsNumber) → rest.IsChain Lexeme.Apart →
    (memberLexemes members ++ rest).IsChain Lexeme.Apart
  | [], _, _, hrest => hrest
  | [(name, value)], _, hfirst, hrest =>
    isChain_cons_of_not_isNumber id
      (isChain_cons_of_not_isNumber id (lexemes_apart value hfirst hrest))
  | (name, value) :: next :: members, _, hfirst, hrest => by
    have hmembers := memberLexemes_apart (next :: members) hfirst hrest
    simp only [memberLexemes, List.append_assoc, List.cons_append]
    refine isChain_cons_of_not_isNumber id (isChain_cons_of_not_isNumber id ?_)
    exact lexemes_apart value (by simp [Lexeme.IsNumber]) (isChain_cons_of_not_isNumber id hmembers)

end

/-- The value is made of texts and naturals. -/
def IsPlain (j : Json) : Prop := ∀ x ∈ j.lexemes, x.IsPlain

/-- A document of a value, in any spacing, is read as that value. -/
theorem parse?_spaced {j : Json} (hplain : j.IsPlain) {text : List Char}
    (h : Spaced j.lexemes text) : parse? (String.ofList text) = some j := by
  have hapart : (j.lexemes ++ []).IsChain Lexeme.Apart := j.lexemes_apart (by simp) .nil
  rw [List.append_nil] at hapart
  rw [parse?, String.toList_ofList, lexemes?_spaced h hplain hapart, Option.bind_some,
    ofLexemes?_lexemes]

theorem isPlain_ofText (text : String) : (ofText text).IsPlain :=
  List.forall_mem_singleton.2 ⟨_, rfl⟩

theorem isPlain_ofNat (n : Nat) : (ofNat n).IsPlain := List.forall_mem_singleton.2 ⟨n, rfl⟩

/-- An object is plain if its members are; their names are texts. -/
theorem isPlain_ofMembers {members : List (String × Json)}
    (h : ∀ member ∈ members, member.2.IsPlain) : (ofMembers members).IsPlain := by
  have hmembers : ∀ x ∈ memberLexemes
      (members.map fun member => (encode member.1.toList, member.2)), x.IsPlain := by
    induction members with
    | nil => exact List.forall_mem_nil _
    | cons member members ih =>
      obtain ⟨name, value⟩ := member
      rw [List.forall_mem_cons] at h
      -- The last member has no comma behind it.
      have hname : (Lexeme.string (encode name.toList)).IsPlain := ⟨_, rfl⟩
      cases members with
      | nil => exact List.forall_mem_cons.2 ⟨hname, List.forall_mem_cons.2 ⟨trivial, h.1⟩⟩
      | cons next members =>
        simp only [List.map_cons, memberLexemes, List.cons_append]
        refine List.forall_mem_cons.2 ⟨hname, List.forall_mem_cons.2 ⟨trivial, ?_⟩⟩
        exact List.forall_mem_append.2 ⟨h.1, List.forall_mem_cons.2 ⟨trivial, ih h.2⟩⟩
  rw [IsPlain, ofMembers, lexemes, List.cons_append, List.forall_mem_cons, List.forall_mem_append,
    List.forall_mem_singleton]
  exact ⟨trivial, hmembers, trivial⟩

/-! ### Lines -/

theorem Lexeme.space_le_of_mem_text {x : Lexeme} (hx : x.IsPlain) {c : Char} (h : c ∈ x.text) :
    ' ' ≤ c := by
  have of_all {text : List Char} (hall : text.all (' ' ≤ ·) = true) (h : c ∈ text) : ' ' ≤ c :=
    of_decide_eq_true (List.all_eq_true.1 hall c h)
  cases x with
  | number literal =>
    obtain ⟨n, rfl⟩ := hx
    have hdigit := isDigit_of_mem_toDigits h
    have hrange : (c.val ≥ 48 && c.val ≤ 57) = true := hdigit
    rw [Bool.and_eq_true, decide_eq_true_eq, decide_eq_true_eq] at hrange
    exact UInt32.le_trans (by decide) hrange.1
  | string literal =>
    obtain ⟨text, rfl⟩ := hx
    rw [Lexeme.text, List.cons_append, List.mem_cons, List.mem_append, List.mem_singleton] at h
    obtain rfl | h | rfl := h
    · decide
    · exact space_le_of_mem_encode h
    · decide
  | bool value => exact of_all (by cases value <;> decide) h
  | _ => exact of_all (by decide) h

/-- The document of a plain value holds no control character. -/
theorem space_le_of_mem_render {j : Json} (hplain : j.IsPlain) {c : Char}
    (h : c ∈ j.render.toList) : ' ' ≤ c := by
  rw [render, String.toList_ofList, List.mem_flatMap] at h
  obtain ⟨x, hx, hc⟩ := h
  exact Lexeme.space_le_of_mem_text (hplain x hx) hc

end ScriptLang.Json
