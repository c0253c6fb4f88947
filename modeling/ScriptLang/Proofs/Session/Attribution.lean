import ScriptLang.File.Search
import ScriptLang.Proofs.Eval.Layers
import ScriptLang.Proofs.Session.Request

/-!
# Every fault is attributed to the unit it came from

In a session that evaluates units one after the other, over scopes that it makes as it goes, every
fault names a unit that has been read and lies in its text. A function carries the name of its unit
with it, into whatever scope, class, object or module it is put; so what has to be kept through a
session is that every function in the store belongs to the unit that it names.

## Main definitions

* `Diagnostic.AttributedTo`: the fault has the name of a unit, and lies at a place of it
* `Closure.ComesFrom`: the function is one of the program of a unit, and has its name
* `Session.Reads`: a unit is evaluated or loaded in the course of some requests

## Main results

* `Library.resolve_silent`, `FileTree.resolver_silent`: the faults of the library and of the files on
  disk do not say where they come from
* `Session.accounted_after`: every function in the store comes from a unit that has been read
* `Session.errors_attributed`: every fault is attributed to a unit that has been read
-/

namespace ScriptLang

/-! ### Resolvers

No search for modules knows where the load is written. -/

theorem Library.resolve_silent (l : Library) : Resolver.Silent l.resolve := by
  intro name d h
  unfold resolve at h
  dsimp only at h
  split at h <;> cases h
  exact Fault.report_placeless _

theorem FileTree.resolver_silent (tree : FileTree) (roots : List Path) :
    (tree.resolver roots).Silent := by
  intro name d h
  unfold resolver at h
  cases hresolve : tree.resolve roots name with
  | error fault =>
    rw [hresolve] at h
    cases h
    exact Fault.report_placeless fault
  | ok found =>
    rw [hresolve] at h
    cases h

/-! ### Units -/

/-- The fault names the unit and lies in its text. It is what is wrong with the text, or it lies at a
place of the program that the text is read as, where there can be such a fault. -/
structure Diagnostic.AttributedTo (u : SourceUnit) (d : Diagnostic) : Prop where
  unit : d.unit = some u.name
  span : ∃ span, d.span = some span ∧ span.LiesIn u.text.toList
  cause : Program.parse u = .error d ∧ d.isSyntax = true ∨
    ∃ p, Program.parse u = .ok p ∧ d.RaisedIn u.name p.places

/-- The function is one of the program of the unit, and has the name of the unit. -/
structure Closure.ComesFrom (u : SourceUnit) (f : Closure) : Prop where
  origin : f.origin = u.name
  function : ∃ p, Program.parse u = .ok p ∧ f.function.places ⊆ p.places

theorem Diagnostic.attributedTo_of_parse_error {u : SourceUnit} {d : Diagnostic}
    (h : Program.parse u = .error d) : d.AttributedTo u := by
  obtain ⟨hkind, hunit, hspan⟩ := Program.parse_error h
  exact ⟨hunit, hspan, .inl ⟨h, hkind⟩⟩

/-- A place of a program lies in the text of the unit. -/
theorem Diagnostic.RaisedIn.attributedTo {u : SourceUnit} {p : Program} {d : Diagnostic}
    (hparse : Program.parse u = .ok p) (h : d.RaisedIn u.name p.places) : d.AttributedTo u where
  unit := h.unit
  span := by
    obtain ⟨place, hplace, hspan, -⟩ := h.place
    exact ⟨place.span, hspan, Program.parse_hasPlaces hparse place hplace⟩
  cause := .inr ⟨p, hparse, h⟩

/-- The unit has been loaded between the two journals: the resolver has found its text under its key, and
the evaluation of that text has begun. -/
def Resolver.HasLoaded (resolve : Resolver) (base j : Journal) (u : SourceUnit) : Prop :=
  ∃ events name, j = events ++ base ∧ .began u.name u.text ∈ events ∧
    resolve name = .ok ⟨u.name, u.text⟩

theorem Resolver.HasLoaded.mono {resolve : Resolver} {base j j' : Journal} {u : SourceUnit}
    (hj : j <:+ j') (h : resolve.HasLoaded base j u) : resolve.HasLoaded base j' u := by
  obtain ⟨events, name, rfl, hbegan, hfound⟩ := h
  obtain ⟨later, rfl⟩ := hj
  exact ⟨later ++ events, name, by rw [List.append_assoc], List.mem_append_right _ hbegan, hfound⟩

namespace Blame

/-- What is known in the course of a request: the units that have been read before, and those loaded
since the request began. -/
def ofUnits (read : SourceUnit → Prop) (resolve : Resolver) (base : Journal) : Blame where
  base := base
  Code j unit places := ∃ u, (read u ∨ resolve.HasLoaded base j u) ∧ u.name = unit ∧
    ∃ p, Program.parse u = .ok p ∧ places ⊆ p.places
  Named j d := ∃ u, (read u ∨ resolve.HasLoaded base j u) ∧ d.AttributedTo u
  code_mono hj hsub h := by
    obtain ⟨u, hu, hunit, p, hparse, hplaces⟩ := h
    exact ⟨u, hu.imp_right (·.mono hj), hunit, p, hparse, fun _ hplace => hplaces (hsub hplace)⟩
  named_mono hj h := by
    obtain ⟨u, hu, hd⟩ := h
    exact ⟨u, hu.imp_right (·.mono hj), hd⟩
  unit h := by
    obtain ⟨u, -, hd⟩ := h
    simp [hd.unit]
  span h := by
    obtain ⟨u, -, hd⟩ := h
    obtain ⟨span, hspan, -⟩ := hd.span
    simp [hspan]

variable {read : SourceUnit → Prop} {resolve : Resolver} {base j : Journal}

theorem ofUnits_complete : (ofUnits read resolve base).Complete := by
  intro j unit places d hcode hd
  obtain ⟨u, hu, rfl, p, hparse, hsub⟩ := hcode
  exact ⟨u, hu, ((hd.mono hsub).withUnit u.name).attributedTo hparse⟩

theorem ofUnits_read {u : SourceUnit} (hu : read u ∨ resolve.HasLoaded base j u) :
    (ofUnits read resolve base).Read j u := by
  rw [Read]
  cases hparse : Program.parse u with
  | ok p => exact ⟨u, hu, rfl, p, hparse, List.Subset.refl _⟩
  | error d => exact ⟨u, hu, Diagnostic.attributedTo_of_parse_error hparse⟩

theorem ofUnits_readsFrom : (ofUnits read resolve base).ReadsFrom resolve := by
  intro j name found hfound hbase
  obtain ⟨events, hevents⟩ := hbase
  refine ofUnits_read (.inr ⟨.began found.key found.text :: events, name, ?_, List.mem_cons_self, hfound⟩)
  exact (congrArg (List.cons _) hevents).symm

theorem ofUnits_known {f : Closure} : (ofUnits read resolve base).Known j f ↔
    ∃ u, (read u ∨ resolve.HasLoaded base j u) ∧ f.ComesFrom u := by
  constructor
  · rintro ⟨u, hu, hunit, hp⟩
    exact ⟨u, hu, hunit.symm, hp⟩
  · rintro ⟨u, hu, hf⟩
    exact ⟨u, hu, hf.origin.symm, hf.function⟩

end Blame

/-! ### Requests -/

namespace Request

/-- The request evaluates a unit, or makes a scope for units to come. -/
def IsEvaluation : Request → Prop
  | evaluate _ _ | newRoot | newChild _ => True
  | run _ _ _ | call _ _ _ | load _ | define _ _ _ => False

/-- The unit is the one that the request evaluates. -/
def Evaluates (u : SourceUnit) : Request → Prop
  | evaluate source _ => source = u
  | _ => False

/-- The request evaluates the unit, or loads it on the way. -/
def Reads (setting : Setting) (request : Request) (m : Machine) (u : SourceUnit) : Prop :=
  request.Evaluates u ∨
    setting.resolve.HasLoaded m.journal ((request.perform setting).after m).journal u

end Request

namespace Session

/-- The unit is evaluated or loaded in the course of the requests. -/
def Reads : List (Setting × Request) → Machine → SourceUnit → Prop
  | [], _, _ => False
  | (setting, request) :: later, m, u =>
    request.Reads setting m u ∨ Reads later ((request.perform setting).after m) u

/-- Every function in the store comes from one of the units. -/
def Accounted (read : SourceUnit → Prop) (m : Machine) : Prop :=
  m.store.All fun f => ∃ u, read u ∧ f.ComesFrom u

theorem reads_append {earlier later : List (Setting × Request)} {m : Machine} {u : SourceUnit} :
    Reads (earlier ++ later) m u ↔ Reads earlier m u ∨ Reads later (after earlier m) u := by
  induction earlier generalizing m with
  | nil => simp [Reads, after]
  | cons entry earlier ih =>
    obtain ⟨setting, request⟩ := entry
    rw [List.cons_append, Reads, Reads, ih, or_assoc]
    rfl

section Requests

variable {B : Blame} {setting : Setting} {j : Journal} {unit : String} (complete : B.Complete)
  (hosts : ∀ frames, B.HostKeeps (Host.withFrames setting frames))
include complete hosts

theorem evaluate_keeps {source : SourceUnit} {scope : ScopeId} (hread : B.Read j source) :
    B.Keeps j unit (evaluate setting source scope) B.Value B.Named := by
  rw [evaluate]
  rw [Blame.Read] at hread
  cases hparse : Program.parse source with
  | error d =>
    rw [hparse] at hread
    exact .throw hread
  | ok program =>
    rw [hparse] at hread
    intro m hm hfine
    -- All frames that are left are there for the program.
    exact Blame.runProgram_keeps complete (hosts (setting.maxFrames - m.depth)) hread m hm hfine

theorem perform_keeps {request : Request} (hrequest : request.IsEvaluation)
    (hread : ∀ u, request.Evaluates u → B.Read j u) :
    B.Keeps j unit (request.perform setting) Blame.Any B.Named := by
  cases request with
  | evaluate source scope =>
    exact (evaluate_keeps complete hosts (hread source rfl)).bind fun _ _ _ _ => .pure trivial
  | newRoot => exact (Blame.Keeps.newScope none .empty).bind fun _ _ _ _ => .pure trivial
  | newChild scope => exact (Blame.Keeps.newScope _ .empty).bind fun _ _ _ _ => .pure trivial
  | run | call | load | define => cases hrequest

end Requests

/-- What is known in the course of a request, where some units have been read before. -/
def blame (read : SourceUnit → Prop) (setting : Setting) (request : Request) (m : Machine) :
    Blame :=
  .ofUnits (fun u => read u ∨ request.Evaluates u) setting.resolve m.journal

section Steps

variable {read : SourceUnit → Prop} {setting : Setting} {request : Request} {m : Machine}
  (hm : Accounted read m) (hsilent : setting.resolve.Silent) (hrequest : request.IsEvaluation)
include hm hsilent hrequest

theorem perform_ends : (blame read setting request m).Ends m.journal m.unit Blame.Any
    (blame read setting request m).Named (request.perform setting m) := by
  have hosts (frames : Nat) :
      (blame read setting request m).HostKeeps (Host.withFrames setting frames) :=
    Blame.withFrames_keeps Blame.ofUnits_complete hsilent Blame.ofUnits_readsFrom frames
  refine perform_keeps Blame.ofUnits_complete hosts hrequest (fun u hu => ?_) m rfl ?_
  · exact Blame.ofUnits_read (.inl (.inr hu))
  · refine ⟨List.suffix_rfl, rfl, hm.mono fun f hf => ?_⟩
    obtain ⟨u, hu, hcomes⟩ := hf
    exact Blame.ofUnits_known.2 ⟨u, .inl (.inl hu), hcomes⟩

/-- A request leaves all functions accounted for. -/
theorem accounted_perform :
    Accounted (fun u => read u ∨ request.Reads setting m u)
      ((request.perform setting).after m) := by
  refine (perform_ends hm hsilent hrequest).fine.store.mono fun f hf => ?_
  obtain ⟨u, hu, hcomes⟩ := Blame.ofUnits_known.1 hf
  exact ⟨u, or_assoc.1 hu, hcomes⟩

/-- A request ends with a fault of a unit that has been read. -/
theorem perform_attributed {d : Diagnostic} {m' : Machine}
    (hrun : request.perform setting m = .error d m') :
    ∃ u, (read u ∨ request.Reads setting m u) ∧ d.AttributedTo u := by
  obtain ⟨u, hu, hattributed⟩ := (perform_ends hm hsilent hrequest).of_error hrun
  refine ⟨u, or_assoc.1 ?_, hattributed⟩
  rwa [Eval.after_of_error hrun]

end Steps

/-- In the course of a session all functions stay accounted for. The induction is on the requests. -/
theorem accounted_after {history : List (Setting × Request)} {m : Machine}
    {read : SourceUnit → Prop} (hm : Accounted read m)
    (hhistory : ∀ entry ∈ history, entry.1.resolve.Silent ∧ entry.2.IsEvaluation) :
    Accounted (fun u => read u ∨ Reads history m u) (after history m) := by
  induction history generalizing m read with
  | nil => exact hm.mono fun f hf => by simpa [Reads] using hf
  | cons entry later ih =>
    obtain ⟨setting, request⟩ := entry
    obtain ⟨⟨hsilent, hrequest⟩, hlater⟩ := List.forall_mem_cons.1 hhistory
    -- The later requests begin with the units that this one has read.
    have hstep := accounted_perform hm hsilent hrequest
    refine (ih hstep hlater).mono fun f hf => ?_
    obtain ⟨u, hu, hcomes⟩ := hf
    exact ⟨u, or_assoc.1 hu, hcomes⟩

/-- **Every fault is attributed to the unit it came from.** In a session that only evaluates units,
with resolvers that do not say where their faults come from, every fault names a unit that has been
evaluated or loaded and lies in its text: it is what is wrong with the text, or it lies at a place of
the program. There a missing argument and the end of the frames are found at calls and loads only, and
missing modules at loads. Every function in the store has the name of a unit that holds it. A call or
a load ends with a fault that has its unit, or with that of the request, which has none; and whatever
host the code of a function or of a program runs on, its own faults get the unit that it comes from. -/
theorem errors_attributed (echo : Bool) (history : List (Setting × Request)) (setting : Setting)
    (source : SourceUnit) (scope : ScopeId)
    (hhistory : ∀ entry ∈ history, entry.1.resolve.Silent ∧ entry.2.IsEvaluation)
    (hsilent : setting.resolve.Silent) :
    let start := Machine.start echo
    let requests := history ++ [(setting, .evaluate source scope)]
    (∀ d m, evaluate setting source scope (after history start) = .error d m →
      ∃ u, Reads requests start u ∧ d.AttributedTo u) ∧
    (after requests start).store.All (fun f => ∃ u, Reads requests start u ∧ f.ComesFrom u) ∧
    (∀ frames, (Host.withFrames setting frames).Fails Diagnostic.Placed) ∧
    ∀ (host : Host) (named : Diagnostic → Prop), (∀ d, named d → d.Placed) → host.Fails named →
      host.NamesFaults named := by
  intro start requests
  -- At the start there is no function yet.
  have hstart : Accounted (fun _ => False) start := .empty
  have hlast : (Request.evaluate source scope).IsEvaluation := trivial
  refine ⟨fun d m hrun => ?_, ?_, Host.withFrames_fails hsilent,
    fun host named hplaced hfails => hfails.namesFaults hplaced⟩
  · have hperform : (Request.evaluate source scope).perform setting (after history start) =
        .error d m := by
      rw [Request.perform, Eval.bind_eq, hrun]
    obtain ⟨u, hu, hattributed⟩ :=
      perform_attributed (accounted_after hstart hhistory) hsilent hlast hperform
    refine ⟨u, reads_append.2 ?_, hattributed⟩
    simpa [Reads] using hu
  · have hrequests : ∀ entry ∈ requests, entry.1.resolve.Silent ∧ entry.2.IsEvaluation := by
      intro entry hentry
      rcases List.mem_append.1 hentry with hentry | hentry
      · exact hhistory entry hentry
      · rw [List.mem_singleton.1 hentry]
        exact ⟨hsilent, hlast⟩
    refine (accounted_after hstart hrequests).mono fun f hf => ?_
    simpa using hf

/-- A setting with a module whose only function fails whenever it is called. -/
def failingSetting : Setting where
  maxFrames := 4
  resolve := Library.resolve (Table.ofList [("lib", "fx Go() \x7b-nil\x7d")])

/-- Called from another unit, a function fails under the name of its own. An argument too many is the
fault of the unit that gives it. -/
theorem errors_attributed_across_units :
    let before := after [(failingSetting, .newRoot)] (Machine.start false)
    (∃ d m u, evaluate failingSetting ⟨"main", "load(\"lib\") lib.Go()"⟩ 0 before = .error d m ∧
      d.AttributedTo u ∧ u.name = "lib") ∧
    (∃ d m u, evaluate failingSetting ⟨"main", "load(\"lib\") lib.Go(1)"⟩ 0 before = .error d m ∧
      d.AttributedTo u ∧ u.name = "main") := by
  intro before
  have hsilent : failingSetting.resolve.Silent := Library.resolve_silent _
  have hhistory : ∀ entry ∈ [(failingSetting, Request.newRoot)],
      entry.1.resolve.Silent ∧ entry.2.IsEvaluation := by
    intro entry hentry
    rw [List.mem_singleton.1 hentry]
    exact ⟨hsilent, trivial⟩
  have hnamed (text name : String)
      (hunit : (match evaluate failingSetting ⟨"main", text⟩ 0 before with
        | .error d _ => d.unit
        | .ok _ _ => none) = some name) :
      ∃ d m u, evaluate failingSetting ⟨"main", text⟩ 0 before = .error d m ∧ d.AttributedTo u ∧
        u.name = name := by
    cases hrun : evaluate failingSetting ⟨"main", text⟩ 0 before with
    | ok v m =>
      rw [hrun] at hunit
      cases hunit
    | error d m =>
      rw [hrun] at hunit
      change d.unit = some name at hunit
      obtain ⟨u, -, hattributed⟩ :=
        (errors_attributed false _ _ _ _ hhistory hsilent).1 d m hrun
      rw [hattributed.unit] at hunit
      exact ⟨d, m, u, rfl, hattributed, Option.some.inj hunit⟩
  exact ⟨hnamed _ _ (by decide +kernel), hnamed _ _ (by decide +kernel)⟩

end Session

end ScriptLang
