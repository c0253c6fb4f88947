import ScriptLang.Json.Literal

/-!
# Lexemes of JSON

The pieces of a JSON document: marks, words, numbers and strings, with white space between them.
Numbers and strings keep the form in which they are written.

## Main definitions

* `Lexeme`: a piece of a document
* `Lexeme.text`: how it is written
* `lexemes?`: the pieces of a document
-/

namespace ScriptLang.Json

/-- A piece of a document. -/
inductive Lexeme where
  | beginObject
  | endObject
  | beginArray
  | endArray
  | colon
  | comma
  | null
  | bool (value : Bool)
  | number (literal : List Char)
  | string (literal : List Char)
  deriving DecidableEq, Repr

/-- How a piece is written. -/
def Lexeme.text : Lexeme → List Char
  | beginObject => ['\x7b']
  | endObject => ['\x7d']
  | beginArray => ['[']
  | endArray => [']']
  | colon => [':']
  | comma => [',']
  | null => ['n', 'u', 'l', 'l']
  | bool true => ['t', 'r', 'u', 'e']
  | bool false => ['f', 'a', 'l', 's', 'e']
  | number literal => literal
  | string literal => '"' :: literal ++ ['"']

/-- The white space of documents. -/
def isSpace (c : Char) : Bool := c == ' ' || c == '\n' || c == '\t' || c == '\r'

/-- The digits at the front of a text, which must be there, and the rest. -/
def scanDigits (text : List Char) : Option (List Char × List Char) :=
  match text.takeWhile Char.isDigit with
  | [] => none
  | digits => some (digits, text.dropWhile Char.isDigit)

/-- The whole part of a number: a zero, or digits that do not begin with one. -/
def scanWhole (text : List Char) : Option (List Char × List Char) :=
  match text with
  | '0' :: rest => some (['0'], rest)
  | text => scanDigits text

/-- The fraction of a number, if it has one. A point is followed by a digit. -/
def scanFraction (text : List Char) : Option (List Char × List Char) :=
  match text with
  | '.' :: rest => (scanDigits rest).map fun (digits, rest) => ('.' :: digits, rest)
  | text => some ([], text)

/-- The sign of an exponent, if it has one. -/
def scanSign (text : List Char) : List Char × List Char :=
  match text with
  | '+' :: rest => (['+'], rest)
  | '-' :: rest => (['-'], rest)
  | text => ([], text)

/-- The exponent of a number, if it has one. -/
def scanExponent (text : List Char) : Option (List Char × List Char) :=
  match text with
  | c :: rest =>
    if c = 'e' ∨ c = 'E' then
      let (sign, rest) := scanSign rest
      (scanDigits rest).map fun (digits, rest) => (c :: sign ++ digits, rest)
    else some ([], c :: rest)
  | [] => some ([], [])

/-- The number at the front of a document, and what follows it. -/
def scanNumber (text : List Char) : Option (List Char × List Char) := do
  let (sign, rest) := match text with
    | '-' :: rest => (['-'], rest)
    | text => ([], text)
  let (whole, rest) ← scanWhole rest
  let (fraction, rest) ← scanFraction rest
  let (exponent, rest) ← scanExponent rest
  return (sign ++ whole ++ fraction ++ exponent, rest)

/-- The piece at the front of a document, and what follows it. -/
def scanLexeme (text : List Char) : Option (Lexeme × List Char) :=
  match text with
  | '\x7b' :: rest => some (.beginObject, rest)
  | '\x7d' :: rest => some (.endObject, rest)
  | '[' :: rest => some (.beginArray, rest)
  | ']' :: rest => some (.endArray, rest)
  | ':' :: rest => some (.colon, rest)
  | ',' :: rest => some (.comma, rest)
  | 'n' :: 'u' :: 'l' :: 'l' :: rest => some (.null, rest)
  | 't' :: 'r' :: 'u' :: 'e' :: rest => some (.bool true, rest)
  | 'f' :: 'a' :: 'l' :: 's' :: 'e' :: rest => some (.bool false, rest)
  | '"' :: rest => (scanString rest).map fun (literal, rest) => (.string literal, rest)
  | text => (scanNumber text).map fun (literal, rest) => (.number literal, rest)

theorem scanDigits_eq_append {text digits rest : List Char}
    (h : scanDigits text = some (digits, rest)) : text = digits ++ rest ∧ digits ≠ [] := by
  unfold scanDigits at h
  split at h
  · simp at h
  · next hne =>
    simp only [Option.some.injEq, Prod.mk.injEq] at h
    obtain ⟨rfl, rfl⟩ := h
    exact ⟨by simp, hne⟩

theorem scanWhole_eq_append {text whole rest : List Char}
    (h : scanWhole text = some (whole, rest)) : text = whole ++ rest ∧ whole ≠ [] := by
  unfold scanWhole at h
  split at h
  · simp only [Option.some.injEq, Prod.mk.injEq] at h
    obtain ⟨rfl, rfl⟩ := h
    exact ⟨rfl, by simp⟩
  · exact scanDigits_eq_append h

theorem scanFraction_eq_append {text fraction rest : List Char}
    (h : scanFraction text = some (fraction, rest)) : text = fraction ++ rest := by
  unfold scanFraction at h
  split at h
  · simp only [Option.map_eq_some_iff, Prod.exists, Prod.mk.injEq] at h
    obtain ⟨digits, rest, hd, rfl, rfl⟩ := h
    simp [(scanDigits_eq_append hd).1]
  · simp only [Option.some.injEq, Prod.mk.injEq] at h
    obtain ⟨rfl, rfl⟩ := h
    rfl

theorem scanSign_eq_append (text : List Char) : text = (scanSign text).1 ++ (scanSign text).2 := by
  unfold scanSign
  split <;> rfl

theorem scanExponent_eq_append {text exponent rest : List Char}
    (h : scanExponent text = some (exponent, rest)) : text = exponent ++ rest := by
  unfold scanExponent at h
  split at h
  · next c more =>
    split at h
    · simp only [Option.map_eq_some_iff, Prod.exists, Prod.mk.injEq] at h
      obtain ⟨digits, rest, hd, rfl, rfl⟩ := h
      have hs := scanSign_eq_append more
      rw [(scanDigits_eq_append hd).1] at hs
      simpa using hs
    · simp only [Option.some.injEq, Prod.mk.injEq] at h
      obtain ⟨rfl, rfl⟩ := h
      rfl
  · simp only [Option.some.injEq, Prod.mk.injEq] at h
    obtain ⟨rfl, rfl⟩ := h
    rfl

theorem scanNumber_eq_append {text literal rest : List Char}
    (h : scanNumber text = some (literal, rest)) : text = literal ++ rest ∧ literal ≠ [] := by
  unfold scanNumber at h
  simp only [Option.bind_eq_bind, Option.bind_eq_some_iff, Prod.exists, Option.pure_def,
    Option.some.injEq, Prod.mk.injEq] at h
  obtain ⟨whole, _, hw, fraction, _, hf, exponent, _, he, rfl, rfl⟩ := h
  have hw' := scanWhole_eq_append hw
  have hf' := scanFraction_eq_append hf
  have he' := scanExponent_eq_append he
  refine ⟨?_, by simp [hw'.2]⟩
  rw [List.append_assoc, List.append_assoc, List.append_assoc, ← he', ← hf', ← hw'.1]
  split <;> rfl

theorem scanString_length_lt {text literal rest : List Char}
    (h : scanString text = some (literal, rest)) : rest.length < text.length := by
  fun_induction scanString text generalizing literal rest with
  | case1 => simp at h
  | case2 =>
    simp only [Option.some.injEq, Prod.mk.injEq] at h
    simp [h.2]
  | case4 | case6 | case7 => simp at h
  | _ =>
    rename_i ih
    simp only [Option.map_eq_some_iff, Prod.exists, Prod.mk.injEq] at h
    obtain ⟨literal, rest, hr, -, rfl⟩ := h
    have := ih hr
    simp
    omega

/-- Every piece takes a character at least. -/
theorem scanLexeme_length_lt {text rest : List Char} {x : Lexeme}
    (h : scanLexeme text = some (x, rest)) : rest.length < text.length := by
  unfold scanLexeme at h
  split at h
  iterate 9
    · simp only [Option.some.injEq, Prod.mk.injEq] at h
      simp only [List.length_cons, ← h.2]
      omega
  · simp only [Option.map_eq_some_iff, Prod.exists, Prod.mk.injEq] at h
    obtain ⟨literal, rest, hr, -, rfl⟩ := h
    have := scanString_length_lt hr
    simp
    omega
  · simp only [Option.map_eq_some_iff, Prod.exists, Prod.mk.injEq] at h
    obtain ⟨literal, rest, hr, -, rfl⟩ := h
    obtain ⟨ht, hne⟩ := scanNumber_eq_append hr
    have := List.length_pos_iff.2 hne
    simp [ht]
    omega

/-- The pieces of a document. -/
def lexemes? (text : List Char) : Option (List Lexeme) :=
  match text with
  | [] => some []
  | c :: rest =>
    if isSpace c then lexemes? rest
    else
      match _h : scanLexeme (c :: rest) with
      | none => none
      | some (x, rest) => (lexemes? rest).map (x :: ·)
termination_by text.length
decreasing_by
  · simp
  · exact scanLexeme_length_lt _h

end ScriptLang.Json
