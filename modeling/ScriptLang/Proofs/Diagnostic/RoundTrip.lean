import Mathlib.Data.List.Nodup
import ScriptLang.Diagnostic.Json
import ScriptLang.Proofs.Json.Reading

/-!
# Diagnostics survive being written as JSON

A diagnostic is written on one line, and reading that line gives the diagnostic back. It is also read
back from any other document that says the same: with the fields of the record and of the span in any
order, with white space anywhere between the pieces, and with `null` for fields that have no value.

## Main definitions

* `Span.Written`: the value is a record of the span
* `Json.OptionalField`: how a field may be written that may have no value
* `Diagnostic.Written`: the fields are those of the diagnostic, in any order

## Main results

* `Diagnostic.ofJson?_of_written`: a record of a diagnostic is read as the diagnostic
* `Diagnostic.document_roundTrip`: so is every document that writes it, which may be a single line
-/

namespace ScriptLang

/-! ### Fields in any order -/

section Entries

variable {α : Type} {entries entries' : List (String × α)}

/-- What is found does not depend on the order of the entries. -/
theorem findEntry_perm (h : entries.Perm entries') (hnodup : (entries'.map Prod.fst).Nodup)
    (name : String) : findEntry name entries = findEntry name entries' := by
  cases hfound : findEntry name entries with
  | some a => exact (findEntry_of_mem hnodup (h.subset (mem_of_findEntry hfound))).symm
  | none =>
    rw [findEntry_eq_none_iff, (h.map Prod.fst).mem_iff, ← findEntry_eq_none_iff] at hfound
    exact hfound.symm

end Entries

namespace Json

/-- A record is read from an object in which no name occurs twice. -/
theorem record?_ofMembers (names : List String) {members : List (String × Json)}
    (hnodup : (members.map Prod.fst).Nodup) : (ofMembers members).record? names = some members := by
  have hdistinct : areDistinct names members = true :=
    List.all_eq_true.2 fun name _ => decide_eq_true (List.nodup_iff_count_le_one.1 hnodup name)
  have hitems : (ofMembers members).items? = none := rfl
  rw [record?, fields?_ofMembers]
  simp [hdistinct, hitems]

/-- A field that may have no value: the value is written in one of its forms; a missing one is written
as `null` or left out. -/
inductive OptionalField {α : Type} (name : String) (form : α → Json → Prop) :
    Option α → List (String × Json) → Prop where
  | value {a : α} {j : Json} : form a j → OptionalField name form (some a) [(name, j)]
  | null : OptionalField name form none [(name, .null)]
  | leftOut : OptionalField name form none []

namespace OptionalField

variable {α : Type} {name : String} {form : α → Json → Prop} {value : Option α}
  {part : List (String × Json)}

theorem names_sublist (h : OptionalField name form value part) :
    (part.map Prod.fst).Sublist [name] := by
  cases h with
  | leftOut => exact List.nil_sublist _
  | _ => exact List.Sublist.refl _

/-- The field is found under no other name. -/
theorem findEntry_eq_none (h : OptionalField name form value part) {other : String}
    (hne : name ≠ other) : findEntry other part = none := by
  rw [findEntry_eq_none_iff]
  intro hmem
  exact hne (List.mem_singleton.1 (h.names_sublist.subset hmem)).symm

/-- The field is read as what it has been written for. -/
theorem optional?_eq (h : OptionalField name form value part) {fields : List (String × Json)}
    (hfields : findEntry name fields = findEntry name part) {read : Json → Option α}
    (hread : ∀ a j, value = some a → form a j → j ≠ .null ∧ read j = some a) :
    optional? fields name read = some value := by
  rw [optional?, hfields]
  cases h with
  | @value a j hform =>
    -- A value written as `null` would be read as none.
    obtain ⟨hnull, hj⟩ := hread a j rfl hform
    rw [findEntry, if_pos rfl]
    split
    · next heq => cases heq
    · next heq => exact absurd (Option.some.inj heq) hnull
    · next heq =>
      cases heq
      rw [hj, Option.map_some]
  | null => rw [findEntry, if_pos rfl]
  | leftOut => rw [findEntry]

theorem isPlain (h : OptionalField name form value part) (hform : ∀ a j, form a j → j.IsPlain) :
    ∀ member ∈ part, member.2.IsPlain := by
  cases h with
  | value hj => exact List.forall_mem_singleton.2 (hform _ _ hj)
  | null => exact List.forall_mem_singleton.2 (List.forall_mem_singleton.2 trivial)
  | leftOut => exact List.forall_mem_nil _

/-- A field with its value in the usual form, and left out if it has none. -/
theorem of_toList (name : String) (value : Option α) (write : α → Json) {form : α → Json → Prop}
    (h : ∀ a, form a (write a)) :
    OptionalField name form value (value.toList.map fun a => (name, write a)) := by
  cases value with
  | some a => exact .value (h a)
  | none => exact .leftOut

end OptionalField

end Json

/-! ### Spans -/

/-- The numbers of the span have 32 bits. -/
def Span.Fits (s : Span) : Prop :=
  s.start.line < placeBound ∧ s.start.column < placeBound ∧ s.stop.line < placeBound ∧
    s.stop.column < placeBound

instance (s : Span) : Decidable s.Fits := inferInstanceAs (Decidable (_ ∧ _))

/-- The fields of a span, in their usual order. -/
def Span.fields (s : Span) : List (String × Json) :=
  Span.fieldNames.zip <|
    [s.start.line, s.start.column, s.stop.line, s.stop.column].map Json.ofNat

/-- The value is a record of the span: an object with its fields in some order. -/
def Span.Written (s : Span) (j : Json) : Prop :=
  ∃ members, members.Perm s.fields ∧ j = .ofMembers members

theorem Span.nodup_fields (s : Span) : (s.fields.map Prod.fst).Nodup := by
  change Span.fieldNames.Nodup
  decide

theorem Span.isPlain_of_written {s : Span} {j : Json} (h : s.Written j) : j.IsPlain := by
  obtain ⟨members, hperm, rfl⟩ := h
  refine Json.isPlain_ofMembers fun member hmember => ?_
  obtain ⟨n, -, hn⟩ := List.mem_map.1 (List.of_mem_zip (hperm.subset hmember)).2
  rw [← hn]
  exact Json.isPlain_ofNat n

theorem Span.ofJson?_of_written {s : Span} (hfits : s.Fits) {j : Json} (h : s.Written j) :
    Span.ofJson? j = some s := by
  obtain ⟨members, hperm, rfl⟩ := h
  obtain ⟨hline, hcolumn, hendLine, hendColumn⟩ := hfits
  have hnodup : (members.map Prod.fst).Nodup :=
    (hperm.map Prod.fst).nodup_iff.2 s.nodup_fields
  -- The order does not matter, so each number is looked up as if it stood where it usually does.
  have hnumber (name : String) (n : Nat) (hn : n < placeBound)
      (hfound : findEntry name s.fields = some (Json.ofNat n)) :
      Json.required? members name (·.natBelow? placeBound) = some n := by
    rw [Json.required?, findEntry_perm hperm s.nodup_fields, hfound, Option.bind_some,
      Json.natBelow?_ofNat, if_pos hn]
  rw [Span.ofJson?, Json.record?_ofMembers _ hnodup]
  simp [hnumber "line" _ hline rfl, hnumber "column" _ hcolumn rfl,
    hnumber "end_line" _ hendLine rfl, hnumber "end_column" _ hendColumn rfl]

/-! ### Diagnostics -/

theorem DiagnosticKind.ofJson?_ofText (kind : DiagnosticKind) :
    DiagnosticKind.ofJson? (.ofText kind.text) = some kind := by
  change (Json.ofText kind.text).text?.bind DiagnosticKind.ofText? = some kind
  rw [Json.text?_ofText, Option.bind_some, ofText?_text]

namespace Diagnostic

/-- The fields are those of the diagnostic, in any order: a field without value is `null` or left out,
and the span is a record with its own fields in any order. -/
def Written (d : Diagnostic) (members : List (String × Json)) : Prop :=
  ∃ span unit expected found : List (String × Json),
    Json.OptionalField "span" Span.Written d.span span ∧
    Json.OptionalField "file" (fun text j => j = .ofText text) d.unit unit ∧
    Json.OptionalField "expected" (fun text j => j = .ofText text) d.expected expected ∧
    Json.OptionalField "found" (fun text j => j = .ofText text) d.found found ∧
    members.Perm ([("kind", .ofText d.kind.text), ("message", .ofText d.message)] ++
      (span ++ (unit ++ (expected ++ found))))

/-- A record of a diagnostic is read as the diagnostic. -/
theorem ofJson?_of_written {d : Diagnostic} (hfits : ∀ span, d.span = some span → span.Fits)
    {members : List (String × Json)} (h : d.Written members) :
    Diagnostic.ofJson? (.ofMembers members) = some d := by
  obtain ⟨span, unit, expected, found, hspan, hunit, hexpected, hfound, hperm⟩ := h
  have hnodup : (([("kind", Json.ofText d.kind.text), ("message", .ofText d.message)] ++
      (span ++ (unit ++ (expected ++ found)))).map Prod.fst).Nodup := by
    -- The names that are written are some of all six.
    have hsublist := hspan.names_sublist.append
      (hunit.names_sublist.append (hexpected.names_sublist.append hfound.names_sublist))
    have hall : fieldNames.Nodup := by decide
    simp only [List.map_append]
    exact hall.sublist ((List.Sublist.refl ["kind", "message"]).append hsublist)
  have hmembers : (members.map Prod.fst).Nodup := (hperm.map Prod.fst).nodup_iff.2 hnodup
  have hentry := findEntry_perm hperm hnodup
  have hkind : Json.required? members "kind" DiagnosticKind.ofJson? = some d.kind := by
    rw [Json.required?, hentry]
    exact DiagnosticKind.ofJson?_ofText d.kind
  have hmessage : Json.required? members "message" Json.text? = some d.message := by
    rw [Json.required?, hentry]
    exact Json.text?_ofText d.message
  -- Under the name of an optional field nothing is found but that field.
  obtain ⟨hspanEntry, hunitEntry, hexpectedEntry, hfoundEntry⟩ :
      findEntry "span" members = findEntry "span" span ∧
      findEntry "file" members = findEntry "file" unit ∧
      findEntry "expected" members = findEntry "expected" expected ∧
      findEntry "found" members = findEntry "found" found := by
    simp [hentry, findEntry, findEntry_append, hspan.findEntry_eq_none, hunit.findEntry_eq_none,
      hexpected.findEntry_eq_none, hfound.findEntry_eq_none]
  have hspanRead : Json.optional? members "span" Span.ofJson? = some d.span := by
    refine hspan.optional?_eq hspanEntry fun s j hs hj => ⟨?_, Span.ofJson?_of_written (hfits s hs) hj⟩
    obtain ⟨_, -, rfl⟩ := hj
    intro hnull
    cases hnull
  have htextRead (text : String) (j : Json) (hj : j = .ofText text) :
      j ≠ .null ∧ j.text? = some text := by
    subst hj
    refine ⟨fun hnull => ?_, Json.text?_ofText text⟩
    cases hnull
  have hunitRead := hunit.optional?_eq hunitEntry fun text j _ => htextRead text j
  have hexpectedRead := hexpected.optional?_eq hexpectedEntry fun text j _ => htextRead text j
  have hfoundRead := hfound.optional?_eq hfoundEntry fun text j _ => htextRead text j
  rw [Diagnostic.ofJson?, Json.record?_ofMembers _ hmembers]
  simp [hkind, hmessage, hspanRead, hunitRead, hexpectedRead, hfoundRead]

/-- The record that is written is one of them. -/
theorem exists_written (d : Diagnostic) :
    ∃ members, d.Written members ∧ d.toJson = .ofMembers members := by
  refine ⟨_, ⟨_, _, _, _,
    .of_toList "span" d.span Span.toJson fun s => ⟨s.fields, .refl _, rfl⟩,
    .of_toList "file" d.unit .ofText fun _ => rfl,
    .of_toList "expected" d.expected .ofText fun _ => rfl,
    .of_toList "found" d.found .ofText fun _ => rfl, .refl _⟩, ?_⟩
  obtain ⟨kind, message, span, unit, expected, found⟩ := d
  cases span <;> cases unit <;> cases expected <;> cases found <;> rfl

/-- What is written is made of texts and naturals. -/
theorem isPlain_of_written {d : Diagnostic} {members : List (String × Json)} (h : d.Written members) :
    (Json.ofMembers members).IsPlain := by
  obtain ⟨span, unit, expected, found, hspan, hunit, hexpected, hfound, hperm⟩ := h
  have htext (text : String) (j : Json) (hj : j = .ofText text) : j.IsPlain :=
    hj ▸ Json.isPlain_ofText text
  have hknown : ∀ member ∈ [("kind", Json.ofText d.kind.text), ("message", .ofText d.message)],
      member.2.IsPlain :=
    List.forall_mem_cons.2 ⟨Json.isPlain_ofText _, List.forall_mem_singleton.2 (Json.isPlain_ofText _)⟩
  refine Json.isPlain_ofMembers fun member hmember => ?_
  obtain h | h | h | h | h := by simpa only [List.mem_append] using hperm.subset hmember
  · exact hknown member h
  · exact hspan.isPlain (fun _ _ => Span.isPlain_of_written) member h
  · exact hunit.isPlain htext member h
  · exact hexpected.isPlain htext member h
  · exact hfound.isPlain htext member h

/-- **Diagnostics survive being written as JSON.** The document of a diagnostic whose numbers have 32
bits holds no control character, so it is one line, and it is read as the diagnostic. So is every other
document that writes it: with its fields and those of its span in any order, with white space between
the pieces, and with `null` for fields without a value. -/
theorem document_roundTrip {d : Diagnostic} (hfits : ∀ span, d.span = some span → span.Fits) :
    (∀ c ∈ d.document.toList, ' ' ≤ c) ∧
    ofDocument? d.document = some d ∧
    ∀ members text, d.Written members → Json.Spaced (Json.ofMembers members).lexemes text →
      ofDocument? (String.ofList text) = some d := by
  have hread (members : List (String × Json)) (text : List Char) (h : d.Written members)
      (htext : Json.Spaced (Json.ofMembers members).lexemes text) :
      ofDocument? (String.ofList text) = some d := by
    rw [ofDocument?, Json.parse?_spaced (isPlain_of_written h) htext, Option.bind_some,
      ofJson?_of_written hfits h]
  obtain ⟨members, hmembers, hjson⟩ := d.exists_written
  refine ⟨fun c hc => ?_, ?_, hread⟩
  · rw [document, hjson] at hc
    exact Json.space_le_of_mem_render (isPlain_of_written hmembers) hc
  · rw [document, hjson, Json.render]
    exact hread members _ hmembers (.flatMap (List.forall_mem_nil _) _)

/-- Quotes, a backslash and controls in the message, the largest number, a field without a value. Read
back with all fields from last to first, each piece on a line of its own, and the missing field `null`. -/
theorem document_roundTrip_reversed :
    let span : Span := ⟨⟨4294967295, 1⟩, ⟨4294967295, 0⟩⟩
    let d : Diagnostic :=
      ⟨.parsing, "\"\\\n\x01\x7f", some span, none, some "π", some "end of file"⟩
    let members : List (String × Json) :=
      [("kind", .ofText "ParseError"), ("message", .ofText d.message),
        ("span", .ofMembers span.fields.reverse), ("file", .null), ("expected", .ofText "π"),
        ("found", .ofText "end of file")].reverse
    (∀ s, d.span = some s → s.Fits) ∧ d.Written members ∧ (∀ c ∈ d.document.toList, ' ' ≤ c) ∧
      ofDocument? d.document = some d ∧
      ofDocument? (String.ofList ((Json.ofMembers members).lexemes.flatMap
        fun x => ['\n'] ++ x.text)) = some d := by
  intro span d members
  have hwritten : d.Written members :=
    ⟨_, _, _, _, .value ⟨_, List.reverse_perm _, rfl⟩, .null, .value rfl, .value rfl,
      List.reverse_perm _⟩
  have hfits : ∀ s, d.span = some s → s.Fits := by
    rintro s hs
    cases hs
    decide
  have hspace : ∀ c ∈ ['\n'], Json.isSpace c = true := List.forall_mem_singleton.2 rfl
  obtain ⟨hline, hread, hother⟩ := document_roundTrip hfits
  exact ⟨hfits, hwritten, hline, hread, hother members _ hwritten (.flatMap hspace _)⟩

end Diagnostic

end ScriptLang
