import Mathlib.Data.List.Infix
import ScriptLang.Proofs.Interactive.Inputs
import ScriptLang.Proofs.Session.Attribution

/-!
# Whose lines a report shows

A report shows a line of the unit it is made against if its fault has the name of that unit, and of
an interactive session all inputs have the same name. So a line is shown for a fault of the input
itself, and for one of a function that an earlier input has defined; the line that is shown then is
not the one that the fault lies in.

## Main definitions

* `Diagnostic.heading`, `Diagnostic.ShowsLine`: a report without a line, and whether it shows one
* `Resolver.Avoids`: no module has a given name
* `Blame.withFunctions`: what is known, and some functions besides

## Main results

* `Diagnostic.showsLine_iff`: when a report shows a line
* `Session.evaluate_origin`: a unit ends with a fault of its own, of a module that it loads, or of a
  function that was there before
* `LineLoop.shown_line_origin`: which of them are shown with a line
-/

namespace ScriptLang

/-! ### Reports -/

namespace Diagnostic

/-- The report against a unit without any line of it. -/
def heading (d : Diagnostic) (source : SourceUnit) : String :=
  let head := s!"{d.kind.text}: {d.message}"
  match d.span with
  | none => head
  | some span => s!"{head}\n  --> {d.unit.getD source.name}:{span.text}"

/-- The report against a unit shows a line of it. -/
def ShowsLine (d : Diagnostic) (source : SourceUnit) : Prop := d.render source ≠ d.heading source

instance (d : Diagnostic) (source : SourceUnit) : Decidable (d.ShowsLine source) :=
  inferInstanceAs (Decidable (_ ≠ _))

theorem excerpt_ne_empty (span : Span) (line : String) : excerpt span line ≠ "" := by
  intro h
  have hchars := congrArg String.toList h
  simp [excerpt, ToString.toString] at hchars

/-- A line is shown if the place of the fault is known, its unit has the name of the one that the
report is made against, and that has a line of this number. -/
theorem showsLine_iff (d : Diagnostic) (source : SourceUnit) :
    d.ShowsLine source ↔ d.unit.getD source.name = source.name ∧
      ∃ span line, d.span = some span ∧ source.line? span.start.line = some line := by
  rw [ShowsLine, render, heading]
  cases d.span with
  | none => simp
  | some span =>
    dsimp only
    by_cases hunit : d.unit.getD source.name = source.name
    · rw [if_pos hunit]
      cases hline : source.line? span.start.line with
      | none => simp [hline]
      | some line => simp [excerpt_ne_empty, hline, hunit]
    · simp [hunit]

end Diagnostic

/-! ### Lines -/

theorem length_splitLines (text : List Char) : (splitLines text).length = text.count '\n' + 1 := by
  induction text with
  | nil => rfl
  | cons c text ih =>
    rw [splitLines_cons]
    by_cases hc : c = '\n'
    · simp [hc, ih]
    · simp [hc, ih]

namespace SourceUnit

/-- A unit has the lines from the first to as many as there are. -/
theorem exists_line_iff (u : SourceUnit) (number : Nat) :
    (∃ line, u.line? number = some line) ↔ 1 ≤ number ∧ number ≤ u.lineCount := by
  rw [line?, lineCount]
  by_cases hzero : number = 0
  · simp [hzero]
  · simp only [if_neg hzero, Option.map_eq_some_iff, List.getElem?_eq_some_iff]
    constructor
    · rintro ⟨line, chars, ⟨hlt, -⟩, -⟩
      omega
    · intro h
      exact ⟨_, _, ⟨by omega, rfl⟩, rfl⟩

/-- A position of a text is on one of its lines. -/
theorem line_of_inText {u : SourceUnit} {p : Position} (h : p.InText u.text.toList) :
    1 ≤ p.line ∧ p.line ≤ u.lineCount := by
  obtain ⟨before, hbefore, rfl⟩ := h
  rw [Position.after_start, lineCount, lines, length_splitLines]
  have hcount := hbefore.sublist.count_le '\n'
  simpa [Position.counted] using hcount

end SourceUnit

/-- A fault of a unit is shown with a line of any unit of the same name that has one of that number. -/
theorem Diagnostic.AttributedTo.showsLine_iff {u : SourceUnit} {d : Diagnostic}
    (h : d.AttributedTo u) (source : SourceUnit) : d.ShowsLine source ↔
      u.name = source.name ∧ ∃ span, d.span = some span ∧ span.start.line ≤ source.lineCount := by
  obtain ⟨span, hspan, hlies⟩ := h.span
  have hfirst := (SourceUnit.line_of_inText hlies.start).1
  rw [Diagnostic.showsLine_iff, h.unit, hspan]
  simp [SourceUnit.exists_line_iff, hfirst]

/-- A fault of a unit is shown with the line it begins on. -/
theorem Diagnostic.AttributedTo.showsLine {u : SourceUnit} {d : Diagnostic} (h : d.AttributedTo u) :
    d.ShowsLine u := by
  obtain ⟨span, hspan, hlies⟩ := h.span
  exact (h.showsLine_iff u).2 ⟨rfl, span, hspan, (SourceUnit.line_of_inText hlies.start).2⟩

/-! ### Where the fault of a unit comes from -/

namespace Blame

/-- What is known, and some functions besides. -/
def withFunctions (B : Blame) (known : Closure → Prop) : Blame where
  base := B.base
  Code j unit places := B.Code j unit places ∨
    ∃ f, known f ∧ f.origin = unit ∧ places ⊆ f.function.places
  Named j d := B.Named j d ∨ ∃ f, known f ∧ d.RaisedIn f.origin f.function.places
  code_mono hj hsub h := by
    obtain hcode | ⟨f, hf, hunit, hplaces⟩ := h
    · exact .inl (B.code_mono hj hsub hcode)
    · exact .inr ⟨f, hf, hunit, fun _ hplace => hplaces (hsub hplace)⟩
  named_mono hj h := h.imp_left (B.named_mono hj)
  unit h := by
    obtain hnamed | ⟨f, -, hraised⟩ := h
    · exact B.unit hnamed
    · exact hraised.placed.unit
  span h := by
    obtain hnamed | ⟨f, -, hraised⟩ := h
    · exact B.span hnamed
    · exact hraised.placed.span

variable {B : Blame} {known : Closure → Prop}

theorem withFunctions_complete (complete : B.Complete) : (B.withFunctions known).Complete := by
  intro j unit places d hcode hd
  obtain hcode | ⟨f, hf, rfl, hplaces⟩ := hcode
  · exact .inl (complete hcode hd)
  · exact .inr ⟨f, hf, (hd.withUnit f.origin).mono hplaces⟩

theorem withFunctions_read {j : Journal} {u : SourceUnit} (h : B.Read j u) :
    (B.withFunctions known).Read j u := by
  rw [Read] at h ⊢
  cases hparse : Program.parse u with
  | ok p =>
    rw [hparse] at h
    exact .inl h
  | error d =>
    rw [hparse] at h
    exact .inl h

end Blame

/-- A unit ends with a fault of its own, of a module that it loads, or of a function that was in the
store before. -/
theorem Session.evaluate_origin {setting : Setting} {source : SourceUnit} {scope : ScopeId}
    {known : Closure → Prop} {m m' : Machine} {d : Diagnostic} (hsilent : setting.resolve.Silent)
    (hm : m.store.All known) (hrun : evaluate setting source scope m = .error d m') :
    d.AttributedTo source ∨
      (∃ u, setting.resolve.HasLoaded m.journal m'.journal u ∧ d.AttributedTo u) ∨
      ∃ f, known f ∧ d.RaisedIn f.origin f.function.places := by
  -- Code runs that stands in the unit, in a module, or in a function of the store.
  let B := (Blame.ofUnits (· = source) setting.resolve m.journal).withFunctions known
  have complete : B.Complete := Blame.withFunctions_complete Blame.ofUnits_complete
  have hmodules : B.ReadsFrom setting.resolve := by
    intro j name found hfound hbase
    exact Blame.withFunctions_read (Blame.ofUnits_readsFrom hfound hbase)
  have hosts (frames : Nat) : B.HostKeeps (Host.withFrames setting frames) :=
    Blame.withFrames_keeps complete hsilent hmodules frames
  have hread : B.Read m.journal source :=
    Blame.withFunctions_read (Blame.ofUnits_read (.inl rfl))
  have hfine : B.Fine m.unit m :=
    ⟨List.suffix_rfl, rfl, hm.mono fun f hf => .inr ⟨f, hf, rfl, List.Subset.refl _⟩⟩
  have hends : B.Ends m.journal m.unit B.Value B.Named (evaluate setting source scope m) :=
    evaluate_keeps complete hosts hread m rfl hfine
  obtain ⟨u, rfl | hloaded, hattributed⟩ | hfunction := hends.of_error hrun
  · exact .inl hattributed
  · exact .inr (.inl ⟨u, hloaded, hattributed⟩)
  · exact .inr (.inr hfunction)

/-! ### Interactive sessions -/

/-- No module is found under the name. -/
def Resolver.Avoids (resolve : Resolver) (name : String) : Prop :=
  ∀ asked found, resolve asked = .ok found → found.key ≠ name

/-- A module that is found has the full path of a file as its key. -/
theorem FileTree.exists_locate_of_resolver {tree : FileTree} {roots : List Path} {asked : String}
    {found : ResolvedModule} (h : tree.resolver roots asked = .ok found) :
    ∃ path place, tree.locate path = .ok place ∧
      found.key = tree.top ++ String.intercalate "/" place := by
  rw [resolver, resolve] at h
  split at h
  · cases h
  · next path hpath =>
    have hfile : tree.isFile path = true := List.find?_some hpath
    rw [isFile, readBytes] at hfile
    cases hlocate : tree.locate path with
    | error why => simp [hlocate] at hfile
    | ok place =>
      refine ⟨path, place, hlocate, ?_⟩
      cases hread : tree.read path with
      | error why =>
        rw [hread] at h
        cases h
      | ok text =>
        rw [hread] at h
        cases h
        rw [fullPath, hlocate]

/-- Full paths begin with a slash, and so do the keys of files. -/
theorem FileTree.resolver_avoids {tree : FileTree} (htop : tree.top.toList.head? = some '/')
    (roots : List Path) {name : String} (hname : name.toList.head? ≠ some '/') :
    (tree.resolver roots).Avoids name := by
  rintro asked found hfound rfl
  obtain ⟨path, place, hlocate, hkey⟩ := tree.exists_locate_of_resolver hfound
  rw [hkey] at hname
  refine hname ?_
  cases hchars : tree.top.toList with
  | nil => simp [hchars] at htop
  | cons c chars => simpa [hchars] using htop

namespace LineLoop

/-- The unit is an input that has been typed, unless it has a name of its own. -/
def Typed (inputs : List (Setting × String)) (u : SourceUnit) : Prop :=
  u.name = inputName → ∃ entry ∈ inputs, u.text = entry.2

variable {config : Config} {asJson : Bool} {earlier : List (Setting × String)} {setting : Setting}
  {input : String}

/-- Every function in the store comes from an input that has been typed, or from a module. -/
theorem accounted_after (hsettings : ∀ entry ∈ earlier,
    entry.1.resolve.Silent ∧ entry.1.resolve.Avoids inputName) :
    Session.Accounted (Typed earlier) ((start config).after asJson earlier).machine := by
  refine after_induction (P := fun inputs loop =>
    (∀ entry ∈ inputs, entry.1.resolve.Silent ∧ entry.1.resolve.Avoids inputName) →
      Session.Accounted (Typed inputs) loop.machine) (fun _ => ?_)
    (fun earlier setting input loop ih hsettings => ?_) earlier hsettings
  · exact Store.All.newScope .empty .empty
  · rw [List.forall_mem_append] at hsettings
    obtain ⟨hearlier, hlast⟩ := hsettings
    obtain ⟨hsilent, havoids⟩ := hlast _ (List.mem_singleton_self _)
    -- An input is a request like others, but for the report at its end.
    let request : Request := .evaluate ⟨inputName, input⟩ loop.scope
    have hperform : (request.perform setting).after loop.machine =
        (Session.evaluate setting ⟨inputName, input⟩ loop.scope).after loop.machine := by
      rw [Request.perform, Eval.after_bind, Eval.after]
      cases Session.evaluate setting ⟨inputName, input⟩ loop.scope loop.machine <;> rfl
    have hrequest : request.IsEvaluation := trivial
    have hstep := Session.accounted_perform (ih hearlier) hsilent hrequest
    rw [Session.Accounted, store_evaluate, ← hperform]
    refine hstep.mono fun f hf => ?_
    obtain ⟨u, hread, hcomes⟩ := hf
    refine ⟨u, fun hname => ?_, hcomes⟩
    obtain hread | heq | hloaded := hread
    · obtain ⟨entry, hentry, htext⟩ := hread hname
      exact ⟨entry, List.mem_append_left _ hentry, htext⟩
    · cases heq
      exact ⟨_, List.mem_append_right _ (List.mem_singleton_self _), rfl⟩
    · obtain ⟨_, asked, -, -, hfound⟩ := hloaded
      exact absurd hname (havoids asked _ hfound)

/-- **Whose lines a report shows.** A fault of an input itself is reported with the line it begins on.
A fault of a function that an earlier input has defined is reported with the line of the same number of
the new input, if there is one, because all inputs have one name. A fault of a module, whether it is
loaded now or has left its functions behind, is reported without a line. There is no other fault. -/
theorem shown_line_origin (config : Config) (asJson : Bool) (earlier : List (Setting × String))
    (setting : Setting) (input : String) {d : Diagnostic}
    (hsettings : ∀ entry ∈ earlier ++ [(setting, input)],
      entry.1.resolve.Silent ∧ entry.1.resolve.Avoids inputName)
    (hfail : ((start config).after asJson earlier).result setting input = .error d) :
    let source : SourceUnit := ⟨inputName, input⟩
    d.AttributedTo source ∧ d.ShowsLine source ∨
    (∃ entry ∈ earlier, ∃ f : Closure, f.ComesFrom ⟨inputName, entry.2⟩ ∧
      d.RaisedIn inputName f.function.places ∧
      (d.ShowsLine source ↔ ∃ span, d.span = some span ∧ span.start.line ≤ source.lineCount)) ∨
    (∃ u : SourceUnit, u.name ≠ inputName ∧ d.AttributedTo u) ∧ ¬d.ShowsLine source := by
  intro source
  rw [List.forall_mem_append] at hsettings
  obtain ⟨hearlier, hlast⟩ := hsettings
  obtain ⟨hsilent, havoids⟩ := hlast _ (List.mem_singleton_self _)
  obtain ⟨m, hrun⟩ := (result_eq_error setting _ input).1 hfail
  have hother {u : SourceUnit} (hname : u.name ≠ inputName) (hd : d.AttributedTo u) :
      ¬d.ShowsLine source := fun h => hname ((hd.showsLine_iff source).1 h).1
  obtain hown | ⟨u, hloaded, hd⟩ | ⟨f, ⟨u, htyped, hcomes⟩, hraised⟩ :=
    Session.evaluate_origin hsilent (accounted_after hearlier) hrun
  · exact .inl ⟨hown, hown.showsLine⟩
  · obtain ⟨_, asked, -, -, hfound⟩ := hloaded
    have hname : u.name ≠ inputName := havoids asked _ hfound
    exact .inr (.inr ⟨⟨u, hname, hd⟩, hother hname hd⟩)
  · -- The fault is one of the unit that the function comes from: an earlier input, or a module.
    have hd : d.AttributedTo u := by
      obtain ⟨p, hparse, hplaces⟩ := hcomes.function
      rw [hcomes.origin] at hraised
      exact (hraised.mono hplaces).attributedTo hparse
    by_cases hname : u.name = inputName
    · obtain ⟨entry, hentry, htext⟩ := htyped hname
      have hu : u = ⟨inputName, entry.2⟩ := by rw [← hname, ← htext]
      have hshows := hd.showsLine_iff source
      rw [hcomes.origin, hname] at hraised
      rw [hu] at hcomes
      exact .inr (.inl ⟨entry, hentry, f, hcomes, hraised, hshows.trans (and_iff_right hname)⟩)
    · exact .inr (.inr ⟨⟨u, hname, hd⟩, hother hname hd⟩)

/-- A setting in which there are no files. -/
def noFiles : Setting := Config.setting {} {}

/-- The definition of a function that fails whenever it is called. -/
def failingDefinition : String := "fx f() \x7b return -nil \x7d\n"

/-- A session with such a function. -/
def failing : LineLoop := (start {}).after false [(noFiles, failingDefinition)]

/-- When the function is called, its fault is reported with a line of the call. -/
theorem failing_result : ∃ d, failing.result noFiles "f()\n" = .error d ∧
    d.ShowsLine ⟨inputName, "f()\n"⟩ ∧ d.span = some ⟨⟨1, 17⟩, ⟨1, 21⟩⟩ := by
  -- The value does not matter, and values cannot be compared.
  have hevaluated : ((failing.result noFiles "f()\n").map fun _ => ()).mapError
      (fun d => (decide (d.ShowsLine ⟨inputName, "f()\n"⟩), d.span)) =
        .error (true, some ⟨⟨1, 17⟩, ⟨1, 21⟩⟩) := by
    decide +kernel
  cases hresult : failing.result noFiles "f()\n" with
  | ok v =>
    rw [hresult] at hevaluated
    cases hevaluated
  | error d =>
    rw [hresult] at hevaluated
    obtain ⟨hshows, hspan⟩ := Prod.mk.inj (Except.error.inj hevaluated)
    exact ⟨d, rfl, of_decide_eq_true hshows, hspan⟩

/-- Nothing stands as far to the right in the call as the fault does in the definition. -/
theorem not_liesIn_call : ¬Span.LiesIn "f()\n".toList ⟨⟨1, 17⟩, ⟨1, 21⟩⟩ := by
  rintro ⟨⟨before, hbefore, hposition⟩, -, -⟩
  have hall : ∀ before ∈ "f()\n".toList.inits, (⟨1, 17⟩ : Position) ≠ Position.start.after before := by
    decide
  exact hall before ((List.mem_inits _ _).2 hbefore) hposition

/-- The report of a call shows the line of the call, though the fault is that of the function. -/
theorem shown_line_origin_call : ∃ d, failing.result noFiles "f()\n" = .error d ∧
    d.ShowsLine ⟨inputName, "f()\n"⟩ ∧
      ∃ f : Closure, f.ComesFrom ⟨inputName, failingDefinition⟩ ∧
        d.RaisedIn inputName f.function.places := by
  obtain ⟨d, hresult, hshows, hspan⟩ := failing_result
  have hsettings : ∀ entry ∈ [(noFiles, failingDefinition)] ++ [(noFiles, "f()\n")],
      entry.1.resolve.Silent ∧ entry.1.resolve.Avoids inputName := by
    have hgood : noFiles.resolve.Silent ∧ noFiles.resolve.Avoids inputName :=
      ⟨FileTree.resolver_silent _ _, FileTree.resolver_avoids rfl _ (by decide)⟩
    simpa using hgood
  refine ⟨d, hresult, hshows, ?_⟩
  obtain ⟨hown, -⟩ | ⟨entry, hentry, f, hcomes, hraised, -⟩ | ⟨-, hnone⟩ :=
    shown_line_origin {} false [(noFiles, failingDefinition)] noFiles "f()\n" hsettings hresult
  · obtain ⟨span, hown, hlies⟩ := hown.span
    cases hspan.symm.trans hown
    exact absurd hlies not_liesIn_call
  · cases List.mem_singleton.1 hentry
    exact ⟨f, hcomes, hraised⟩
  · exact absurd hshows hnone

/-- So a report can show a line of a unit that the fault does not come from. -/
theorem shows_line_of_other_input : ∃ d, failing.result noFiles "f()\n" = .error d ∧
    d.ShowsLine ⟨inputName, "f()\n"⟩ ∧ ¬d.AttributedTo ⟨inputName, "f()\n"⟩ := by
  obtain ⟨d, hresult, hshows, hspan⟩ := failing_result
  refine ⟨d, hresult, hshows, fun hown => ?_⟩
  obtain ⟨span, hown, hlies⟩ := hown.span
  cases hspan.symm.trans hown
  exact not_liesIn_call hlies

end LineLoop

end ScriptLang
