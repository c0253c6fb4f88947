/-!
# Tables in order of definition

A finite map from names that remembers the order in which the names were first entered. Entering a
name again replaces its value and keeps its place.

## Main definitions

* `Table`: the entries in order; no name occurs twice
* `Table.get?`, `Table.insert`, `Table.erase`: look up, enter, remove

## Main results

* `Table.get?_insert`: what is found after an entry
* `Table.names_insert`: a known name keeps its place, a new one comes last
* `Table.get?_erase`: what is found after a removal
-/

namespace ScriptLang

/-- Replace the value of a name where it stands, or enter it at the end. -/
def insertEntry {α : Type} (name : String) (value : α) : List (String × α) → List (String × α)
  | [] => [(name, value)]
  | (n, v) :: rest =>
    if n = name then (name, value) :: rest else (n, v) :: insertEntry name value rest

theorem map_fst_insertEntry {α : Type} (name : String) (value : α) (entries : List (String × α)) :
    (insertEntry name value entries).map Prod.fst =
      if name ∈ entries.map Prod.fst then entries.map Prod.fst
      else entries.map Prod.fst ++ [name] := by
  induction entries with
  | nil => simp [insertEntry]
  | cons entry rest ih =>
    obtain ⟨n, v⟩ := entry
    by_cases h : n = name
    · simp [insertEntry, h]
    · have h' : ¬ name = n := fun e => h e.symm
      simp only [insertEntry, if_neg h, List.map_cons, ih, List.mem_cons, h', false_or]
      split <;> simp

/-- The value entered under a name. -/
def findEntry {α : Type} (name : String) : List (String × α) → Option α
  | [] => none
  | (n, v) :: rest => if n = name then some v else findEntry name rest

theorem findEntry_insertEntry {α : Type} (name : String) (value : α) (entries : List (String × α))
    (n : String) :
    findEntry n (insertEntry name value entries) =
      if name = n then some value else findEntry n entries := by
  induction entries with
  | nil => simp [insertEntry, findEntry]
  | cons entry rest ih =>
    obtain ⟨k, v⟩ := entry
    by_cases hk : k = name
    · by_cases hn : name = n <;> simp [insertEntry, findEntry, hk, hn]
    · by_cases hn : k = n
      · subst hn
        simp [insertEntry, findEntry, hk, Ne.symm hk]
      · simp [insertEntry, findEntry, hk, hn, ih]

theorem findEntry_filter_ne {α : Type} (name : String) (entries : List (String × α)) (n : String) :
    findEntry n (entries.filter fun entry => entry.1 != name) =
      if name = n then none else findEntry n entries := by
  induction entries with
  | nil => simp [findEntry]
  | cons entry rest ih =>
    obtain ⟨k, v⟩ := entry
    by_cases hk : k = name
    · by_cases hn : name = n
      · simpa [findEntry, hk, hn] using ih
      · simpa [findEntry, hk, hn] using ih
    · by_cases hn : k = n
      · subst hn
        simp [findEntry, hk, Ne.symm hk]
      · simp [findEntry, hk, hn, ih]

theorem mem_map_fst_iff {α : Type} (name : String) (entries : List (String × α)) :
    name ∈ entries.map Prod.fst ↔ (findEntry name entries).isSome = true := by
  induction entries with
  | nil => simp [findEntry]
  | cons entry rest ih =>
    obtain ⟨k, v⟩ := entry
    rw [List.map_cons, List.mem_cons, ih]
    by_cases h : k = name
    · simp [findEntry, h]
    · have h' : ¬ name = k := fun e => h e.symm
      simp [findEntry, h, h']

theorem findEntry_eq_none_iff {α : Type} (name : String) (entries : List (String × α)) :
    findEntry name entries = none ↔ name ∉ entries.map Prod.fst := by
  rw [mem_map_fst_iff, Bool.not_eq_true, Option.isSome_eq_false_iff, Option.isNone_iff_eq_none]

theorem findEntry_append {α : Type} (name : String) (front back : List (String × α)) :
    findEntry name (front ++ back) = (findEntry name front).or (findEntry name back) := by
  induction front with
  | nil => rfl
  | cons entry rest ih =>
    obtain ⟨n, v⟩ := entry
    by_cases h : n = name
    · simp [findEntry, h]
    · simp [findEntry, h, ih]

theorem mem_of_findEntry {α : Type} {name : String} {entries : List (String × α)} {v : α}
    (h : findEntry name entries = some v) : (name, v) ∈ entries := by
  induction entries with
  | nil => cases h
  | cons entry rest ih =>
    obtain ⟨n, w⟩ := entry
    rw [findEntry] at h
    split at h
    · next hn =>
      cases h
      exact hn ▸ List.mem_cons_self
    · exact List.mem_cons_of_mem _ (ih h)

/-- Where no name occurs twice, every entry is found under its name. -/
theorem findEntry_of_mem {α : Type} {entries : List (String × α)}
    (hnodup : (entries.map Prod.fst).Nodup) {name : String} {a : α}
    (h : (name, a) ∈ entries) : findEntry name entries = some a := by
  induction entries with
  | nil => cases h
  | cons entry entries ih =>
    obtain ⟨n, b⟩ := entry
    rw [List.map_cons, List.nodup_cons] at hnodup
    rw [findEntry]
    obtain heq | hmem := List.mem_cons.1 h
    · cases heq
      exact if_pos rfl
    · -- An entry in front of it with the same name would be the second one with it.
      have hne : n ≠ name := by
        rintro rfl
        exact hnodup.1 (List.mem_map.2 ⟨_, hmem, rfl⟩)
      rw [if_neg hne, ih hnodup.2 hmem]

/-- A name that the front does not hold is entered behind it. -/
theorem insertEntry_append {α : Type} {name : String} {front : List (String × α)}
    (h : name ∉ front.map Prod.fst) (value : α) (back : List (String × α)) :
    insertEntry name value (front ++ back) = front ++ insertEntry name value back := by
  induction front with
  | nil => rfl
  | cons entry rest ih =>
    obtain ⟨n, v⟩ := entry
    rw [List.map_cons, List.mem_cons, not_or] at h
    rw [List.cons_append, insertEntry, if_neg (Ne.symm h.1), ih h.2, List.cons_append]

theorem filter_ne_eq_self {α : Type} {name : String} {entries : List (String × α)}
    (h : name ∉ entries.map Prod.fst) : (entries.filter fun entry => entry.1 != name) = entries := by
  rw [List.filter_eq_self]
  intro entry hentry
  rw [bne_iff_ne]
  rintro rfl
  exact h (List.mem_map_of_mem hentry)

/-- A finite map from names, in order of first entry. -/
structure Table (α : Type) where
  /-- The names with their values, oldest first. -/
  entries : List (String × α)
  /-- No name is entered twice. -/
  nodup : (entries.map Prod.fst).Nodup

namespace Table

variable {α : Type}

/-- The table without entries. -/
def empty : Table α := ⟨[], by simp⟩

instance : Inhabited (Table α) := ⟨empty⟩

instance : EmptyCollection (Table α) := ⟨empty⟩

/-- The names of a table, oldest first. -/
def names (t : Table α) : List String := t.entries.map Prod.fst

/-- How many names are entered. -/
def size (t : Table α) : Nat := t.entries.length

/-- The value of a name. -/
def get? (t : Table α) (name : String) : Option α := findEntry name t.entries

/-- Whether a name is entered. -/
def contains (t : Table α) (name : String) : Bool := (t.get? name).isSome

/-- Enter a value: a known name keeps its place, a new one comes last. -/
def insert (t : Table α) (name : String) (value : α) : Table α where
  entries := insertEntry name value t.entries
  nodup := by
    rw [map_fst_insertEntry]
    split
    · exact t.nodup
    · next h =>
      rw [List.nodup_append]
      refine ⟨t.nodup, by simp, ?_⟩
      rintro a ha b hb rfl
      exact h (List.mem_singleton.1 hb ▸ ha)

/-- Remove a name; the others keep their order. -/
def erase (t : Table α) (name : String) : Table α where
  entries := t.entries.filter fun entry => entry.1 != name
  nodup := t.nodup.sublist (List.filter_sublist.map _)

/-- Enter the values of a list one after the other. -/
def ofList (entries : List (String × α)) : Table α :=
  entries.foldl (fun t entry => t.insert entry.1 entry.2) empty

@[simp] theorem names_empty : (empty : Table α).names = [] := rfl

@[simp] theorem get?_empty (name : String) : (empty : Table α).get? name = none := rfl

theorem names_insert (t : Table α) (name : String) (value : α) :
    (t.insert name value).names = if name ∈ t.names then t.names else t.names ++ [name] :=
  map_fst_insertEntry name value t.entries

@[simp] theorem get?_insert (t : Table α) (name : String) (value : α) (n : String) :
    (t.insert name value).get? n = if name = n then some value else t.get? n :=
  findEntry_insertEntry name value t.entries n

@[simp] theorem get?_insert_self (t : Table α) (name : String) (value : α) :
    (t.insert name value).get? name = some value := by simp

@[simp] theorem get?_erase (t : Table α) (name n : String) :
    (t.erase name).get? n = if name = n then none else t.get? n :=
  findEntry_filter_ne name t.entries n

theorem mem_names_iff (t : Table α) (name : String) :
    name ∈ t.names ↔ (t.get? name).isSome = true :=
  mem_map_fst_iff name t.entries

end Table

end ScriptLang
