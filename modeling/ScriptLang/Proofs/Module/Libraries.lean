import ScriptLang.Module.Libraries

/-!
# What a library finds

A text is found once it has been entered, by every holder of the library and under the name that it was
entered by, with or without the ending of source files. It stays until the name is entered again, and
entering it changes no other search.

The search takes one ending off the name, but a text is entered under its name as it is. So a name that
has the ending itself can be entered but is not found: the text is under the name with the ending once
more.

## Main definitions

* `IsSourceName`: the names that end as source files do
* `LibraryCall`, `Libraries.perform`, `Libraries.performAll`: what holders can do, and what comes of it

## Main results

* `Library.resolve_insert`: what is found after a text has been entered
* `Libraries.Share.performAll`: who shares a library goes on sharing it
* `Libraries.entered_found`: what is found after any calls and one more text
* `Libraries.not_entered_found`: a text that is entered and not found
-/

namespace ScriptLang

/-! ### Names with the ending -/

/-- The name ends as source files do. -/
def IsSourceName (name : String) : Prop := sourceSuffix.toList <:+ name.toList

instance (name : String) : Decidable (IsSourceName name) :=
  inferInstanceAs (Decidable (sourceSuffix.toList <:+ name.toList))

theorem withoutSuffix_append (suffix s : String) : withoutSuffix suffix (s ++ suffix) = s := by
  have hsuffix : suffix.toList.isSuffixOf (s ++ suffix).toList = true := by
    rw [List.isSuffixOf_iff_suffix, String.toList_append]
    exact List.suffix_append _ _
  rw [withoutSuffix, if_pos hsuffix, String.length_append, Nat.add_sub_cancel, String.toList_append,
    ← String.length_toList, List.take_left, String.ofList_toList]

theorem withoutSuffix_of_not_isSourceName {name : String} (h : ¬ IsSourceName name) :
    withoutSuffix sourceSuffix name = name := by
  rw [withoutSuffix, if_neg]
  rwa [List.isSuffixOf_iff_suffix]

theorem withoutSuffix_ne_of_isSourceName {name : String} (h : IsSourceName name) :
    withoutSuffix sourceSuffix name ≠ name := by
  intro heq
  obtain ⟨front, hfront⟩ := h
  obtain rfl : name = String.ofList front ++ sourceSuffix := by
    rw [← String.toList_inj, String.toList_append, String.toList_ofList, hfront]
  rw [withoutSuffix_append] at heq
  have hlength := congrArg String.length heq
  rw [String.length_append] at hlength
  have hsuffix : sourceSuffix.length = 4 := rfl
  omega

/-! ### One library -/

namespace Library

variable (l : Library)

/-- A name is found if what is left of it without the ending has just been entered. -/
theorem resolve_insert (name text n : String) :
    resolve (l.insert name text) n =
      if withoutSuffix sourceSuffix n = name then .ok ⟨name, text⟩ else l.resolve n := by
  simp only [resolve, Table.get?_insert]
  by_cases h : withoutSuffix sourceSuffix n = name
  · rw [if_pos h.symm, if_pos h, h]
  · rw [if_neg (Ne.symm h), if_neg h]

/-- The search finds what is entered under the name without the ending, or it reports that there is no
such module. -/
theorem resolve_cases (name : String) :
    (∃ text, l.get? (withoutSuffix sourceSuffix name) = some text ∧
      l.resolve name = .ok ⟨withoutSuffix sourceSuffix name, text⟩) ∨
    l.get? (withoutSuffix sourceSuffix name) = none ∧
      ∃ d, l.resolve name = .error d ∧ d.kind = .moduleNotFound := by
  simp only [resolve]
  cases l.get? (withoutSuffix sourceSuffix name) with
  | some text => exact .inl ⟨text, rfl, rfl⟩
  | none => exact .inr ⟨rfl, _, rfl, rfl⟩

end Library

/-! ### Holders -/

/-- What holders can do. -/
inductive LibraryCall where
  | add
  | share (h : HolderId)
  | put (h : HolderId) (name text : String)

namespace Libraries

/-- The libraries after a call. -/
def perform (s : Libraries) : LibraryCall → Libraries
  | .add => s.add
  | .share h => s.share h
  | .put h name text => s.put h name text

/-- The libraries after some calls. -/
def performAll (s : Libraries) (calls : List LibraryCall) : Libraries := calls.foldl perform s

variable {s : Libraries} {h h' : HolderId} {name text : String}

/-- No holder loses its library. -/
theorem holders_perform {place : Nat} (hplace : s.holders[h]? = some place) (call : LibraryCall) :
    (s.perform call).holders[h]? = some place := by
  have hlt : h < s.holders.size := (Array.getElem?_eq_some_iff.1 hplace).1
  cases call with
  | add => exact (Array.getElem?_push_lt hlt).trans ((Array.getElem?_eq_getElem hlt).symm.trans hplace)
  | share other => exact (Array.getElem?_append_left hlt).trans hplace
  | put => exact hplace

theorem Share.perform (hshare : s.Share h h') (call : LibraryCall) : (s.perform call).Share h h' := by
  obtain ⟨place, hplace, hplace'⟩ := hshare
  exact ⟨place, holders_perform hplace call, holders_perform hplace' call⟩

/-- Who shares a library goes on sharing it. -/
theorem Share.performAll (hshare : s.Share h h') (calls : List LibraryCall) :
    (s.performAll calls).Share h h' := by
  induction calls generalizing s with
  | nil => exact hshare
  | cons call calls ih => exact ih (hshare.perform call)

theorem Share.trans {k : HolderId} (hshare : s.Share h h') (hshare' : s.Share h k) :
    s.Share h' k := by
  obtain ⟨place, hplace, hplace'⟩ := hshare
  obtain ⟨place', hplace'', hother⟩ := hshare'
  rw [hplace] at hplace''
  cases hplace''
  exact ⟨place, hplace', hother⟩

theorem resolve_put (hshare : s.Share h h') (name text n : String) :
    (s.put h name text).resolve h' n =
      if withoutSuffix sourceSuffix n = name then .ok ⟨name, text⟩ else s.resolve h' n := by
  obtain ⟨l, hl⟩ := exists_library?_of_share hshare
  rw [resolve, resolve, library?_put hshare, hl]
  exact l.resolve_insert name text n

theorem resolve_put_of_not_share (hshare : ¬ s.Share h h') (name text n : String) :
    (s.put h name text).resolve h' n = s.resolve h' n := by
  rw [resolve, resolve, library?_put_of_not_share hshare]

/-- A call that does not enter the name in the library changes nothing about it. -/
theorem resolve_perform {n : String} (hself : s.Share h h) {call : LibraryCall}
    (hcall : ∀ k text, call = .put k (withoutSuffix sourceSuffix n) text → ¬ s.Share k h) :
    (s.perform call).resolve h n = s.resolve h n := by
  obtain ⟨place, hplace, -⟩ := hself
  have hheld : place < s.shelves.size := s.held place (Array.mem_of_getElem? hplace)
  cases call with
  | add =>
    have hplace' : s.add.holders[h]? = some place := holders_perform hplace .add
    have hlibrary : s.add.library? h = s.library? h := by
      rw [library?, library?, hplace, hplace', Option.bind_some, Option.bind_some]
      exact (Array.getElem?_push_lt hheld).trans (Array.getElem?_eq_getElem hheld).symm
    rw [perform, resolve, resolve, hlibrary]
  | share other =>
    have hplace' : (s.share other).holders[h]? = some place := holders_perform hplace (.share other)
    have hlibrary : (s.share other).library? h = s.library? h := by
      rw [library?, library?, hplace, hplace']
      rfl
    rw [perform, resolve, resolve, hlibrary]
  | put k other text =>
    rw [perform]
    by_cases hshare : s.Share k h
    · rw [resolve_put hshare, if_neg]
      rintro rfl
      exact hcall k text rfl hshare
    · exact resolve_put_of_not_share hshare other text n

/-- What a holder finds stays until the name is entered again in the library. The induction is on the
calls: who shares the library at one of them shares it in the end. -/
theorem resolve_performAll {n : String} (hself : s.Share h h) {calls : List LibraryCall}
    (hcalls : ∀ k text, .put k (withoutSuffix sourceSuffix n) text ∈ calls →
      ¬ (s.performAll calls).Share k h) :
    (s.performAll calls).resolve h n = s.resolve h n := by
  induction calls generalizing s with
  | nil => rfl
  | cons call calls ih =>
    have hfirst : (s.perform call).resolve h n = s.resolve h n := by
      refine resolve_perform hself fun k text heq hshare => ?_
      refine hcalls k text (heq ▸ List.mem_cons_self) ?_
      exact (hshare.perform call).performAll calls
    have hrest := ih (hself.perform call) fun k text hmem =>
      hcalls k text (List.mem_cons_of_mem _ hmem)
    exact hrest.trans hfirst

/-- Whom a library is handed on to shares it. -/
theorem share_share (hlt : h < s.holders.size) : (s.share h).Share h s.holders.size := by
  have hplace : s.holders[h]? = some s.holders[h] := Array.getElem?_eq_getElem hlt
  refine ⟨s.holders[h], holders_perform hplace (.share h), ?_⟩
  change (s.holders ++ (s.holders[h]?).toArray)[s.holders.size]? = _
  rw [hplace, Array.getElem?_append_right (Nat.le_refl _), Nat.sub_self]
  rfl

/-- A new library is nobody else's. -/
theorem eq_of_share_add (hshare : s.add.Share h s.holders.size) : h = s.holders.size := by
  obtain ⟨place, hplace, hnew⟩ := hshare
  change (s.holders.push s.shelves.size)[h]? = some place at hplace
  change (s.holders.push s.shelves.size)[s.holders.size]? = some place at hnew
  rw [Array.getElem?_push_size] at hnew
  cases hnew
  rw [Array.getElem?_push] at hplace
  split at hplace
  · assumption
  · exact absurd (s.held _ (Array.mem_of_getElem? hplace)) (Nat.lt_irrefl _)

/-- A name is found with the ending if it is found without it. -/
theorem resolve_with_ending {n : String} (hn : ¬ IsSourceName n) :
    (∃ found, s.resolve h n = .ok found ∧ s.resolve h (n ++ sourceSuffix) = .ok found) ∨
      ∃ d d', s.resolve h n = .error d ∧ s.resolve h (n ++ sourceSuffix) = .error d' ∧
        d.kind = .moduleNotFound ∧ d'.kind = .moduleNotFound := by
  have hkey : withoutSuffix sourceSuffix n = n := withoutSuffix_of_not_isSourceName hn
  have hkey' : withoutSuffix sourceSuffix (n ++ sourceSuffix) = n := withoutSuffix_append _ n
  obtain ⟨text, hfound, hok⟩ | ⟨hnone, d, hd, hkind⟩ := ((s.library? h).getD Table.empty).resolve_cases n
  · obtain ⟨text', hfound', hok'⟩ | ⟨hnone, -⟩ :=
      ((s.library? h).getD Table.empty).resolve_cases (n ++ sourceSuffix)
    · rw [hkey] at hfound hok
      rw [hkey', hfound] at hfound'
      cases hfound'
      rw [hkey'] at hok'
      exact .inl ⟨_, hok, hok'⟩
    · rw [hkey', ← hkey, hfound] at hnone
      cases hnone
  · obtain ⟨text', hfound', -⟩ | ⟨-, d', hd', hkind'⟩ :=
      ((s.library? h).getD Table.empty).resolve_cases (n ++ sourceSuffix)
    · rw [hkey', ← hkey, hnone] at hfound'
      cases hfound'
    · exact .inr ⟨d, d', hd, hd', hkind, hkind'⟩

/-- **What is entered is found.** After any calls, a text that is entered under a name without the ending
is found by all who share the library, with the ending and without, until the name is entered again
there. Nothing else that is searched for changes, and nothing at all for other holders; and with the
ending or without, the same is found, or nothing. But under a name that has the ending itself the search
goes on as if nothing had been entered: the text is found when the ending is written twice. -/
theorem entered_found (calls : List LibraryCall) (h : HolderId) (name text : String) :
    let s := empty.performAll calls
    let s' := s.put h name text
    (∀ h', s.Share h h' →
      (¬ IsSourceName name → s'.resolve h' name = .ok ⟨name, text⟩) ∧
      (IsSourceName name → s'.resolve h' name = s.resolve h' name) ∧
      s'.resolve h' (name ++ sourceSuffix) = .ok ⟨name, text⟩ ∧
      (∀ n, withoutSuffix sourceSuffix n ≠ name → s'.resolve h' n = s.resolve h' n) ∧
      ∀ n later, withoutSuffix sourceSuffix n = name →
        (∀ k other, .put k name other ∈ later → ¬ (s'.performAll later).Share k h') →
        (s'.performAll later).resolve h' n = .ok ⟨name, text⟩) ∧
    (∀ h' n, ¬ s.Share h h' → s'.resolve h' n = s.resolve h' n) ∧
    (∀ h' n, ¬ IsSourceName n →
      (∃ found, s.resolve h' n = .ok found ∧ s.resolve h' (n ++ sourceSuffix) = .ok found) ∨
        ∃ d d', s.resolve h' n = .error d ∧ s.resolve h' (n ++ sourceSuffix) = .error d' ∧
          d.kind = .moduleNotFound ∧ d'.kind = .moduleNotFound) ∧
    (h < s.holders.size → (s.share h).Share h s.holders.size) ∧
    ∀ k, s.add.Share k s.holders.size → k = s.holders.size := by
  intro s s'
  refine ⟨fun h' hshare => ⟨fun hplain => ?_, fun hending => ?_, ?_, fun n hn => ?_, ?_⟩,
    fun h' n hshare => resolve_put_of_not_share hshare name text n,
    fun h' n hplain => resolve_with_ending hplain, share_share, fun k => eq_of_share_add⟩
  · rw [resolve_put hshare, if_pos (withoutSuffix_of_not_isSourceName hplain)]
  · rw [resolve_put hshare, if_neg (withoutSuffix_ne_of_isSourceName hending)]
  · rw [resolve_put hshare, if_pos (withoutSuffix_append _ name)]
  · rw [resolve_put hshare, if_neg hn]
  · rintro n later rfl hlater
    have hself : s'.Share h' h' := (hshare.trans hshare).perform (.put h _ text)
    rw [resolve_performAll hself hlater, resolve_put hshare, if_pos rfl]

/-- A library, a second holder of it, and a third one with a library of its own. -/
def lending : List LibraryCall := [.add, .share 0, .add]

/-- What the first holder enters the second one finds, after the third one has entered something else
under the name. -/
theorem entered_found_lending :
    let s := empty.performAll lending
    let s' := (s.put 0 "lib" "X = 1").performAll [.put 2 "lib" "X = 2"]
    s.Share 0 1 ∧ ¬ s.Share 2 1 ∧ s'.resolve 1 "lib" = .ok ⟨"lib", "X = 1"⟩ ∧
      s'.resolve 1 "lib.zen" = .ok ⟨"lib", "X = 1"⟩ := by
  intro s s'
  have hshare : s.Share 0 1 := ⟨0, rfl, rfl⟩
  have hother : ¬ s.Share 2 1 := by
    rintro ⟨place, hplace, hplace'⟩
    cases hplace
    cases hplace'
  have hstays := ((entered_found lending 0 "lib" "X = 1").1 1 hshare).2.2.2.2
  have hlater (k : HolderId) (other : String)
      (hput : .put k "lib" other ∈ [LibraryCall.put 2 "lib" "X = 2"]) : ¬ s'.Share k 1 := by
    cases List.mem_singleton.1 hput
    exact hother
  exact ⟨hshare, hother, hstays "lib" _ (by decide +kernel) hlater,
    hstays "lib.zen" _ (by decide +kernel) hlater⟩

/-- A text that is entered under a name with the ending is not found. And a name with the ending and one
with the ending twice differ when one ending is taken off each, but what is entered under one of them is
found under the other. -/
theorem not_entered_found :
    (¬ ∀ (calls : List LibraryCall) (h : HolderId) (name text : String),
      let s := empty.performAll calls
      h < s.holders.size → ∃ found, (s.put h name text).resolve h name = .ok found ∧
        found.text = text) ∧
    ¬ ∀ (calls : List LibraryCall) (h : HolderId) (name text n : String),
      let s := empty.performAll calls
      withoutSuffix sourceSuffix n ≠ withoutSuffix sourceSuffix name →
        (s.put h name text).resolve h n = s.resolve h n := by
  have hkey : withoutSuffix sourceSuffix "lib.zen" = "lib" := by decide +kernel
  have hkey' : withoutSuffix sourceSuffix "lib.zen.zen" = "lib.zen" := by decide +kernel
  have hshare : (empty.performAll [.add]).Share 0 0 := ⟨0, rfl, rfl⟩
  refine ⟨fun hfinds => ?_, fun hkeeps => ?_⟩
  · obtain ⟨found, hfound, -⟩ := hfinds [.add] 0 "lib.zen" "X = 1" Nat.one_pos
    rw [resolve_put hshare, if_neg (by simp [hkey])] at hfound
    cases hfound
  · have hsame := hkeeps [.add] 0 "lib.zen" "X = 1" "lib.zen.zen" (by simp [hkey, hkey'])
    rw [resolve_put hshare, if_pos hkey'] at hsame
    cases hsame

end Libraries

end ScriptLang
