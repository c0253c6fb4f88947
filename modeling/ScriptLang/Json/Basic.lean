import ScriptLang.Decimal.Text
import ScriptLang.Json.Lexeme

/-!
# JSON documents

The values that JSON documents hold, how they are written without white space and how they are read.
Numbers and strings keep the form in which they are written, since what they denote depends on who
asks: a number may have to be a natural, a string may denote no text.

## Main definitions

* `Json`: a value
* `Json.lexemes`, `Json.render`: how a value is written
* `Json.ofLexemes?`, `Json.parse?`: the value that a document holds
* `Json.text?`, `Json.natBelow?`, `Json.bool?`, `Json.items?`, `Json.fields?`: what a value denotes

## Main results

* `Json.text?_ofText`: the value of a text denotes that text
* `Json.natBelow?_ofNat`: the value of a natural denotes it, if it is below the bound
* `Json.fields?_ofMembers`: the fields of an object are the members it was made of
-/

namespace ScriptLang

/-- A value in a JSON document. -/
inductive Json where
  | null
  | bool (value : Bool)
  | number (literal : List Char)
  | string (literal : List Char)
  | array (items : List Json)
  | object (members : List (List Char × Json))

namespace Json

/-! ### Writing -/

/-- The value that denotes a text. -/
def ofText (text : String) : Json := string (encode text.toList)

/-- The value that denotes a natural. -/
def ofNat (n : Nat) : Json := number (Nat.toDigits 10 n)

/-- An object with the given members, in order. -/
def ofMembers (members : List (String × Json)) : Json :=
  object (members.map fun (name, value) => (encode name.toList, value))

mutual

/-- The pieces of a value. -/
def lexemes : Json → List Lexeme
  | null => [.null]
  | bool value => [.bool value]
  | number literal => [.number literal]
  | string literal => [.string literal]
  | array items => .beginArray :: itemLexemes items ++ [.endArray]
  | object members => .beginObject :: memberLexemes members ++ [.endObject]

/-- The pieces of values with commas between them. -/
def itemLexemes : List Json → List Lexeme
  | [] => []
  | [item] => item.lexemes
  | item :: items => item.lexemes ++ .comma :: itemLexemes items

/-- The pieces of members with commas between them. -/
def memberLexemes : List (List Char × Json) → List Lexeme
  | [] => []
  | [(name, value)] => .string name :: .colon :: value.lexemes
  | (name, value) :: members =>
    .string name :: .colon :: value.lexemes ++ .comma :: memberLexemes members

end

/-- A value as a document, without white space. -/
def render (j : Json) : String := String.ofList (j.lexemes.flatMap Lexeme.text)

/-! ### Reading -/

mutual

/-- The value at the front of a list of pieces, and the pieces after it. -/
def scanValue : Nat → List Lexeme → Option (Json × List Lexeme)
  | 0, _ => none
  | fuel + 1, pieces =>
    match pieces with
    | .null :: rest => some (null, rest)
    | .bool value :: rest => some (bool value, rest)
    | .number literal :: rest => some (number literal, rest)
    | .string literal :: rest => some (string literal, rest)
    | .beginArray :: .endArray :: rest => some (array [], rest)
    | .beginArray :: rest => (scanItems fuel rest).map fun (items, rest) => (array items, rest)
    | .beginObject :: .endObject :: rest => some (object [], rest)
    | .beginObject :: rest =>
      (scanMembers fuel rest).map fun (members, rest) => (object members, rest)
    | _ => none

/-- Values with commas between them up to the end of the array, and the pieces after it. -/
def scanItems : Nat → List Lexeme → Option (List Json × List Lexeme)
  | 0, _ => none
  | fuel + 1, pieces =>
    match scanValue fuel pieces with
    | some (item, .endArray :: rest) => some ([item], rest)
    | some (item, .comma :: rest) =>
      (scanItems fuel rest).map fun (items, rest) => (item :: items, rest)
    | _ => none

/-- Members with commas between them up to the end of the object, and the pieces after it. -/
def scanMembers : Nat → List Lexeme → Option (List (List Char × Json) × List Lexeme)
  | 0, _ => none
  | fuel + 1, pieces =>
    match pieces with
    | .string name :: .colon :: rest =>
      match scanValue fuel rest with
      | some (value, .endObject :: rest) => some ([(name, value)], rest)
      | some (value, .comma :: rest) =>
        (scanMembers fuel rest).map fun (members, rest) => ((name, value) :: members, rest)
      | _ => none
    | _ => none

end

/-- The value that a list of pieces writes. Each of the two steps down to an inner value takes one of
the fuel, and every value has a piece of its own. -/
def ofLexemes? (pieces : List Lexeme) : Option Json :=
  match scanValue (2 * pieces.length + 1) pieces with
  | some (value, []) => some value
  | _ => none

/-- The value that a document holds. -/
def parse? (document : String) : Option Json :=
  (lexemes? document.toList).bind ofLexemes?

/-! ### What values denote -/

/-- The text that a value denotes. -/
def text? : Json → Option String
  | string literal => (decode? literal).map String.ofList
  | _ => none

/-- The natural below a bound that a value denotes. It is written with digits alone. -/
def natBelow? (bound : Nat) : Json → Option Nat
  | number literal =>
    let n := natOfDigits literal
    if literal.all Char.isDigit && n < bound then some n else none
  | _ => none

/-- The truth value that a value denotes. -/
def bool? : Json → Option Bool
  | bool value => some value
  | _ => none

/-- The items of an array. -/
def items? : Json → Option (List Json)
  | array items => some items
  | _ => none

/-- The fields of a record: the members of an object, if their names denote texts, or the items of an
array, which stand for the first of the record's fields in order. -/
def fields? (names : List String) : Json → Option (List (String × Json))
  | object members =>
    members.mapM fun (name, value) => (decode? name).map fun name => (String.ofList name, value)
  | array items => if items.length ≤ names.length then some (names.zip items) else none
  | _ => none

@[simp] theorem text?_ofText (text : String) : (ofText text).text? = some text := by
  simp [ofText, text?, decode?_encode]

@[simp] theorem natBelow?_ofNat (bound n : Nat) :
    (ofNat n).natBelow? bound = if n < bound then some n else none := by
  have hdigits : (Nat.toDigits 10 n).all Char.isDigit = true :=
    List.all_eq_true.2 fun c hc => Nat.isDigit_of_mem_toDigits (by decide) (by decide) hc
  simp [ofNat, natBelow?, hdigits]

@[simp] theorem fields?_ofMembers (names : List String) (members : List (String × Json)) :
    (ofMembers members).fields? names = some members := by
  simp only [ofMembers, fields?]
  induction members with
  | nil => rfl
  | cons member members ih => simp [decode?_encode, ih]

end Json

end ScriptLang
