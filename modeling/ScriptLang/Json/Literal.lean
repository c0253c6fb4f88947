/-!
# String literals of JSON

What stands between the quotes of a string in a JSON document, and the text that it denotes. A
character is written as itself, by a letter after a backslash, or by its UTF-16 code units, each as
four hexadecimal digits. Units that are one half of a surrogate pair denote nothing on their own, so
there are literals that denote no text.

## Main definitions

* `encode`: the literal of a text
* `decode?`: the text of a literal
* `scanString`: the literal at the front of a document

## Main results

* `decode?_encode`: a text is denoted by its literal
* `scanString_encode`: a literal is read up to its closing quote
* `space_le_of_mem_encode`: the literal of a text holds no control character
-/

namespace ScriptLang.Json

/-- The characters that a letter after a backslash stands for. -/
def shortEscape? : Char → Option Char
  | '"' => some '"'
  | '\\' => some '\\'
  | '/' => some '/'
  | 'b' => some '\x08'
  | 'f' => some '\x0c'
  | 'n' => some '\n'
  | 'r' => some '\r'
  | 't' => some '\t'
  | _ => none

/-- How a character is written inside a literal: as itself, unless it would end the literal, begin an
escape or is a control. -/
def encodeChar (c : Char) : List Char :=
  match c with
  | '"' => ['\\', '"']
  | '\\' => ['\\', '\\']
  | '\x08' => ['\\', 'b']
  | '\x0c' => ['\\', 'f']
  | '\n' => ['\\', 'n']
  | '\r' => ['\\', 'r']
  | '\t' => ['\\', 't']
  | c =>
    if c < ' ' then
      ['\\', 'u', '0', '0', Nat.digitChar (c.toNat / 16), Nat.digitChar (c.toNat % 16)]
    else [c]

/-- The literal of a text. -/
def encode (text : List Char) : List Char := text.flatMap encodeChar

/-- The value of a hexadecimal digit, in either case. -/
def hexValue? (c : Char) : Option Nat :=
  if '0' ≤ c ∧ c ≤ '9' then some (c.toNat - '0'.toNat)
  else if 'a' ≤ c ∧ c ≤ 'f' then some (c.toNat - 'a'.toNat + 10)
  else if 'A' ≤ c ∧ c ≤ 'F' then some (c.toNat - 'A'.toNat + 10)
  else none

/-- The code unit that four hexadecimal digits write. -/
def codeUnit? (a b c d : Char) : Option Nat :=
  match hexValue? a, hexValue? b, hexValue? c, hexValue? d with
  | some a, some b, some c, some d => some (((a * 16 + b) * 16 + c) * 16 + d)
  | _, _, _, _ => none

/-- Whether a code unit is the first half of a surrogate pair. -/
def isLeading (unit : Nat) : Bool := 0xD800 ≤ unit && unit < 0xDC00

/-- Whether a code unit is the second half of a surrogate pair. -/
def isTrailing (unit : Nat) : Bool := 0xDC00 ≤ unit && unit < 0xE000

/-- The character of a surrogate pair. -/
def pairChar (leading trailing : Nat) : Char :=
  Char.ofNat (0x10000 + (leading - 0xD800) * 0x400 + (trailing - 0xDC00))

/-- The text that a literal denotes, if its surrogates come in pairs. -/
def decode? : List Char → Option (List Char)
  | [] => some []
  | '\\' :: 'u' :: a :: b :: c :: d :: rest =>
    match codeUnit? a b c d with
    | none => none
    | some unit =>
      if isLeading unit then
        match rest with
        | '\\' :: 'u' :: a :: b :: c :: d :: rest =>
          match codeUnit? a b c d with
          | none => none
          | some trailing =>
            if isTrailing trailing then (decode? rest).map (pairChar unit trailing :: ·) else none
        | _ => none
      else if isTrailing unit then none
      else (decode? rest).map (Char.ofNat unit :: ·)
  | '\\' :: c :: rest =>
    match shortEscape? c with
    | none => none
    | some c => (decode? rest).map (c :: ·)
  | ['\\'] => none
  | c :: rest => (decode? rest).map (c :: ·)

/-- The literal at the front of a document, after the quote that opens it, and what follows the quote
that closes it. There is none if a control character stands in it or an escape is none. -/
def scanString : List Char → Option (List Char × List Char)
  | [] => none
  | '"' :: rest => some ([], rest)
  | '\\' :: 'u' :: a :: b :: c :: d :: rest =>
    if (codeUnit? a b c d).isSome then
      (scanString rest).map fun (literal, rest) =>
        ('\\' :: 'u' :: a :: b :: c :: d :: literal, rest)
    else none
  | '\\' :: c :: rest =>
    if (shortEscape? c).isSome then
      (scanString rest).map fun (literal, rest) => ('\\' :: c :: literal, rest)
    else none
  | c :: rest =>
    if c < ' ' then none else (scanString rest).map fun (literal, rest) => (c :: literal, rest)

theorem codeUnit?_of_lt {n : Nat} (h : n < 32) :
    codeUnit? '0' '0' (Nat.digitChar (n / 16)) (Nat.digitChar (n % 16)) = some n := by
  have all : ∀ n : Fin 32,
      codeUnit? '0' '0' (Nat.digitChar (n / 16)) (Nat.digitChar (n % 16)) = some n.val := by decide
  exact all ⟨n, h⟩

/-- A character that ends no literal and begins no escape denotes itself. -/
theorem decode?_cons_of_ne {c : Char} (h : c ≠ '\\') (rest : List Char) :
    decode? (c :: rest) = (decode? rest).map (c :: ·) := by
  rw [decode?] <;> simp_all

theorem scanString_cons_of_ne {c : Char} (h : c ≠ '\\') (hq : c ≠ '"') (hs : ¬ c < ' ')
    (rest : List Char) :
    scanString (c :: rest) = (scanString rest).map fun (literal, rest) => (c :: literal, rest) := by
  rw [scanString, if_neg hs] <;> simp_all

theorem decode?_encodeChar_append (c : Char) (rest : List Char) :
    decode? (encodeChar c ++ rest) = (decode? rest).map (c :: ·) := by
  unfold encodeChar
  split
  any_goals rfl
  split
  · next hlt =>
    have hn : c.toNat < 32 := hlt
    have h1 : isLeading c.toNat = false := by simp [isLeading]; omega
    have h2 : isTrailing c.toNat = false := by simp [isTrailing]; omega
    simp [decode?, codeUnit?_of_lt hn, h1, h2]
  · exact decode?_cons_of_ne (by assumption) rest

theorem scanString_encodeChar_append (c : Char) (rest : List Char) :
    scanString (encodeChar c ++ rest) =
      (scanString rest).map fun (literal, rest) => (encodeChar c ++ literal, rest) := by
  unfold encodeChar
  split
  any_goals rfl
  split
  · next hlt =>
    have hn : c.toNat < 32 := hlt
    simp [scanString, codeUnit?_of_lt hn]
  · next hs => exact scanString_cons_of_ne (by assumption) (by assumption) hs rest

theorem decode?_encode (text : List Char) : decode? (encode text) = some text := by
  induction text with
  | nil => rfl
  | cons c text ih =>
    rw [encode, List.flatMap_cons, decode?_encodeChar_append]
    simp [encode] at ih
    simp [ih]

theorem scanString_encode (text rest : List Char) :
    scanString (encode text ++ '"' :: rest) = some (encode text, rest) := by
  induction text with
  | nil => rfl
  | cons c text ih =>
    simp only [encode, List.flatMap_cons, List.append_assoc, scanString_encodeChar_append] at ih ⊢
    simp [ih]

theorem space_le_of_mem_encode {text : List Char} {c : Char} (h : c ∈ encode text) : ' ' ≤ c := by
  obtain ⟨d, -, hd⟩ := List.mem_flatMap.1 h
  have digit : ∀ n : Fin 32, ' ' ≤ Nat.digitChar (n / 16) ∧ ' ' ≤ Nat.digitChar (n % 16) := by decide
  revert hd
  unfold encodeChar
  split
  any_goals
    intro hd
    simp only [List.mem_cons, List.not_mem_nil, or_false] at hd
    rcases hd with rfl | rfl <;> decide
  split
  · next hlt =>
    have hn : d.toNat < 32 := hlt
    intro hd
    simp only [List.mem_cons, List.not_mem_nil, or_false] at hd
    rcases hd with rfl | rfl | rfl | rfl | rfl | rfl
    · decide
    · decide
    · decide
    · decide
    · exact (digit ⟨d.toNat, hn⟩).1
    · exact (digit ⟨d.toNat, hn⟩).2
  · next hs =>
    intro hd
    rw [List.mem_singleton.1 hd]
    exact Char.not_lt.1 hs

end ScriptLang.Json
