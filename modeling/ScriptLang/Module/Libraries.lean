import ScriptLang.Module.Resolver

/-!
# Libraries in use

A library can grow while sessions search it. Whoever holds it enters texts, and may hand it on: the new
holder has the same library from then on, not one that is alike.

## Main definitions

* `Libraries`: libraries, and which of them each holder has
* `Libraries.empty`, `Libraries.add`, `Libraries.share`, `Libraries.put`: none, a library more, a holder
  more, a text more
* `Libraries.resolve`: the search of a holder
* `Libraries.Share`: two holders have the same library

## Main results

* `Libraries.library?_put`, `Libraries.library?_put_of_not_share`: all holders of a library see what one
  of them enters, and nobody else does
-/

namespace ScriptLang

/-- A holder of a library, by the order in which they came. -/
abbrev HolderId := Nat

/-- Libraries, and which of them each holder has. -/
structure Libraries where
  shelves : Array Library
  /-- The place of the library that each holder has. -/
  holders : Array Nat
  held : ∀ place ∈ holders, place < shelves.size

namespace Libraries

/-- No libraries, and nobody who holds one. -/
def empty : Libraries := ⟨#[], #[], fun _ hplace => absurd hplace (Array.not_mem_empty _)⟩

/-- The library that a holder has. -/
def library? (s : Libraries) (h : HolderId) : Option Library :=
  (s.holders[h]?).bind fun place => s.shelves[place]?

/-- A new library without texts, with a holder of its own. -/
def add (s : Libraries) : Libraries where
  shelves := s.shelves.push Table.empty
  holders := s.holders.push s.shelves.size
  held place hplace := by
    rw [Array.size_push]
    obtain hplace | rfl := Array.mem_push.1 hplace
    · exact Nat.lt_succ_of_lt (s.held place hplace)
    · exact Nat.lt_succ_self _

/-- One holder more for the library that a holder has. -/
def share (s : Libraries) (h : HolderId) : Libraries where
  shelves := s.shelves
  holders := s.holders ++ (s.holders[h]?).toArray
  held place hplace := by
    obtain hplace | hplace := Array.mem_append.1 hplace
    · exact s.held place hplace
    · exact s.held place (Array.mem_of_getElem? (by simpa using hplace))

/-- A holder enters a text, or replaces it. The name is taken as it is. -/
def put (s : Libraries) (h : HolderId) (name text : String) : Libraries where
  shelves := (s.holders[h]?).elim s.shelves fun place => s.shelves.modify place (·.insert name text)
  holders := s.holders
  held place hplace := by
    cases s.holders[h]? with
    | none => exact s.held place hplace
    | some => simpa using s.held place hplace

/-- The search of a holder. -/
def resolve (s : Libraries) (h : HolderId) : Resolver := ((s.library? h).getD Table.empty).resolve

/-- The holders have the same library. -/
def Share (s : Libraries) (h h' : HolderId) : Prop :=
  ∃ place, s.holders[h]? = some place ∧ s.holders[h']? = some place

variable {s : Libraries} {h h' : HolderId}

theorem exists_library?_of_share (hshare : s.Share h h') : ∃ l, s.library? h' = some l := by
  obtain ⟨place, -, hplace⟩ := hshare
  have hlt := s.held place (Array.mem_of_getElem? hplace)
  exact ⟨s.shelves[place], by rw [library?, hplace, Option.bind_some, Array.getElem?_eq_getElem hlt]⟩

/-- All holders of a library see what one of them enters. -/
theorem library?_put (hshare : s.Share h h') (name text : String) :
    (s.put h name text).library? h' = (s.library? h').map (·.insert name text) := by
  obtain ⟨place, hplace, hplace'⟩ := hshare
  simp only [library?, put, hplace, hplace', Option.elim_some, Option.bind_some]
  rw [Array.getElem?_modify, if_pos rfl]

/-- Nobody else sees it. -/
theorem library?_put_of_not_share (hshare : ¬ s.Share h h') (name text : String) :
    (s.put h name text).library? h' = s.library? h' := by
  cases hplace : s.holders[h]? with
  | none => simp only [library?, put, hplace, Option.elim_none]
  | some place =>
    cases hplace' : s.holders[h']? with
    | none => simp only [library?, put, hplace', Option.bind_none]
    | some other =>
      have hne : place ≠ other := fun heq => hshare ⟨place, hplace, heq ▸ hplace'⟩
      simp only [library?, put, hplace, hplace', Option.elim_some, Option.bind_some]
      rw [Array.getElem?_modify, if_neg hne]

end Libraries

end ScriptLang
