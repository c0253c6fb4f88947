import ScriptLang.Proofs.Eval.Run
import ScriptLang.Proofs.Machine.Contents
import ScriptLang.Proofs.Syntax.Places
import ScriptLang.Proofs.Value.Outcome

/-!
# Where the faults of a run come from

Code runs for a unit and ends with faults of two sorts: those of its own, which lie at one of its
places and have no unit yet, and those that the units further in have put their names to. To know
the code behind a fault, one has to know where the functions in the store come from; and more of them
are known the longer a session runs. What is known is indexed by the journal therefore, and only
grows.

## Main definitions

* `Place.fits`: which faults can lie at a place
* `Diagnostic.LiesAt`: a fault of code that does not know its unit yet
* `Blame`: what is known of the code in the store and of the faults that have their unit
* `Blame.Keeps`: what a computation gives back and ends with, if all code in the store is known

## Main results

* `Blame.Keeps.bind`: one computation after the other
* `Blame.Keeps.inUnit`, `Blame.Keeps.withSpan`: where a fault gets its unit, and its place
* `Blame.Keeps.load`: loads
-/

namespace ScriptLang

/-- Whether a fault of some kind can lie at a place. Wrong values are met everywhere, but a missing
argument and the end of the frames are the fault of a call, and a module is missed by a load only.
At the path of a load there may be anything that the resolver reports. -/
def Place.fits : Place → DiagnosticKind → Bool
  | node _, kind | name _, kind => kind.isOfValues
  | call _, kind => kind.isOfValues || kind = .arity || kind = .stackExhausted
  | path _, _ => true
  | function _, _ => false

namespace Diagnostic

/-- The fault lies at one of the places, and its unit is not known yet. -/
structure LiesAt (places : List Place) (d : Diagnostic) : Prop where
  unit : d.unit = none
  place : ∃ place ∈ places, d.span = some place.span ∧ place.fits d.kind = true

/-- Neither the unit nor the place of the fault is known yet. -/
structure Placeless (d : Diagnostic) : Prop where
  unit : d.unit = none
  span : d.span = none

theorem LiesAt.mono {places places' : List Place} {d : Diagnostic} (h : d.LiesAt places)
    (hsub : places ⊆ places') : d.LiesAt places' := by
  obtain ⟨place, hplace, hspan, hfits⟩ := h.place
  exact ⟨h.unit, place, hsub hplace, hspan, hfits⟩

theorem Placeless.withSpan {d : Diagnostic} (h : d.Placeless) {place : Place}
    (hfits : place.fits d.kind = true) : (d.withSpan place.span).LiesAt [place] where
  unit := h.unit
  place := ⟨place, List.mem_singleton_self _, by rw [Diagnostic.withSpan, h.span]; rfl, hfits⟩

end Diagnostic

@[simp] theorem Fault.report_kind (fault : Fault) : fault.report.kind = fault.kind := by
  cases fault <;> rfl

theorem Fault.report_placeless (fault : Fault) : fault.report.Placeless :=
  ⟨Fault.report_unit fault, Fault.report_span fault⟩

theorem Fault.at_liesAt {fault : Fault} {place : Place} {places : List Place}
    (hplace : place ∈ places) (hfits : place.fits fault.kind = true) :
    (fault.at place.span).LiesAt places := by
  have hkind : place.fits fault.report.kind = true := by
    rwa [Fault.report_kind]
  exact (fault.report_placeless.withSpan hkind).mono (by simpa using hplace)

/-- What has happened to the loads of a session, the latest first. -/
abbrev Journal := List (LoadEvent ModuleRef)

/-- What is known, at a point of a session, of the code that may run and of the faults that have got
their unit. -/
structure Blame where
  /-- The journal from which on anything is known. -/
  base : Journal
  /-- There is code of a unit with these places. -/
  Code : Journal → String → List Place → Prop
  /-- The fault has its unit and its place. -/
  Named : Journal → Diagnostic → Prop
  code_mono {j j' : Journal} {unit : String} {places places' : List Place} : j <:+ j' →
    places' ⊆ places → Code j unit places → Code j' unit places'
  named_mono {j j' : Journal} {d : Diagnostic} : j <:+ j' → Named j d → Named j' d
  unit {j : Journal} {d : Diagnostic} : Named j d → d.unit.isSome = true
  span {j : Journal} {d : Diagnostic} : Named j d → d.span.isSome = true

namespace Blame

variable (B : Blame)

/-- The function is code of the unit that it says it comes from. -/
def Known (j : Journal) (f : Closure) : Prop := B.Code j f.origin f.function.places

/-- All functions that the value holds are known. -/
def Value (j : Journal) (v : ScriptLang.Value) : Prop := v.All (B.Known j)

def Values (j : Journal) (vs : List ScriptLang.Value) : Prop := ∀ v ∈ vs, B.Value j v

/-- Nothing has to be known of the result. -/
def Any {α : Type} (_ : Journal) (_ : α) : Prop := True

/-- A fault of code with these places. -/
def Fault (places : List Place) (j : Journal) (d : Diagnostic) : Prop :=
  B.Named j d ∨ d.LiesAt places

/-- A fault of a load. -/
def LoadFault (j : Journal) (d : Diagnostic) : Prop := B.Named j d ∨ d.Placeless

/-- The machine runs code of the unit, and all functions in its store are known. -/
structure Fine (unit : String) (m : Machine) : Prop where
  base : B.base <:+ m.journal
  unit : m.unit = unit
  store : m.store.All (B.Known m.journal)

/-- The computation has ended, the functions in the store are known, and what it gave back or ended
with can be told from the journal, which has only grown. -/
inductive Ends {α : Type} (j : Journal) (unit : String) (value : Journal → α → Prop)
    (fault : Journal → Diagnostic → Prop) : EStateM.Result Diagnostic Machine α → Prop where
  | ok {a : α} {m : Machine} : j <:+ m.journal → B.Fine unit m → value m.journal a →
    Ends j unit value fault (.ok a m)
  | error {d : Diagnostic} {m : Machine} : j <:+ m.journal → B.Fine unit m → fault m.journal d →
    Ends j unit value fault (.error d m)

/-- Where all functions in the store are known, the computation leaves it so. -/
def Keeps {α : Type} (j : Journal) (unit : String) (e : Eval α) (value : Journal → α → Prop)
    (fault : Journal → Diagnostic → Prop) : Prop :=
  ∀ m : Machine, m.journal = j → B.Fine unit m → B.Ends j unit value fault (e m)

variable {B}

/-- What is code stays code. -/
theorem later {j j' : Journal} {unit : String} {places : List Place} (hj : j <:+ j')
    (h : B.Code j unit places) : B.Code j' unit places :=
  B.code_mono hj (List.Subset.refl _) h

theorem part {j : Journal} {unit : String} {places places' : List Place} (hsub : places' ⊆ places)
    (h : B.Code j unit places) : B.Code j unit places' :=
  B.code_mono List.suffix_rfl hsub h

section Mono

variable {j j' : Journal} (hj : j <:+ j')
include hj

theorem Known.mono {f : Closure} (h : B.Known j f) : B.Known j' f :=
  later hj h

theorem Value.mono {v : ScriptLang.Value} (h : B.Value j v) : B.Value j' v :=
  ScriptLang.Value.All.mono (fun _ => Known.mono hj) h

theorem Values.mono {vs : List ScriptLang.Value} (h : B.Values j vs) : B.Values j' vs :=
  fun v hv => Value.mono hj (h v hv)

end Mono

/-- A step that leaves the store and the unit as they are. -/
theorem Fine.of_journal {unit : String} {m m' : Machine} (h : B.Fine unit m)
    (hjournal : m.journal <:+ m'.journal) (hunit : m'.unit = m.unit) (hstore : m'.store = m.store) :
    B.Fine unit m' where
  base := h.base.trans hjournal
  unit := hunit.trans h.unit
  store := by
    rw [hstore]
    exact h.store.mono fun _ => Known.mono hjournal

section Loads

variable {unit : String} {m : Machine} (h : B.Fine unit m)
include h

theorem Fine.record (event : LoadEvent ModuleRef) : B.Fine unit (m.record event) :=
  h.of_journal (List.suffix_cons _ _) rfl rfl

theorem Fine.beginLoad (found : ResolvedModule) (registry : Registry ModuleRef) :
    B.Fine unit (m.beginLoad found registry) :=
  h.of_journal (List.suffix_cons _ _) rfl rfl

theorem Fine.abortLoad (key : String) : B.Fine unit (m.abortLoad key) :=
  h.of_journal (List.suffix_cons _ _) rfl rfl

theorem Fine.completeLoad {module : Module} (hmodule : module.members.All (B.Value m.journal))
    (key : String) (ref : ModuleRef) :
    B.Fine unit ({ m with store := (m.store.addModule module).2 }.completeLoad key ref) := by
  have hadded : B.Fine unit { m with store := (m.store.addModule module).2 } :=
    ⟨h.base, h.unit, h.store.addModule hmodule⟩
  exact hadded.of_journal (List.suffix_cons _ _) rfl rfl

end Loads

theorem Fault.mono {places places' : List Place} (hsub : places ⊆ places') {j : Journal}
    {d : Diagnostic} (h : B.Fault places j d) : B.Fault places' j d :=
  h.imp_right fun hd => hd.mono hsub

section Ends

variable {α : Type} {j : Journal} {unit : String} {value : Journal → α → Prop}
  {fault : Journal → Diagnostic → Prop} {e : Eval α} {m : Machine}
  (h : B.Ends j unit value fault (e m))
include h

theorem Ends.fine : B.Fine unit (e.after m) := by
  rw [Eval.after]
  generalize e m = result at h ⊢
  cases h with
  | ok _ hfine _ => exact hfine
  | error _ hfine _ => exact hfine

theorem Ends.journal : j <:+ (e.after m).journal := by
  rw [Eval.after]
  generalize e m = result at h ⊢
  cases h with
  | ok hj _ _ => exact hj
  | error hj _ _ => exact hj

theorem Ends.of_error {d : Diagnostic} {m' : Machine} (hrun : e m = .error d m') :
    fault m'.journal d := by
  rw [hrun] at h
  cases h with
  | error _ _ hd => exact hd

end Ends

namespace Keeps

variable {α β : Type} {j : Journal} {unit : String} {e : Eval α} {value value' : Journal → α → Prop}
  {follow : Journal → β → Prop} {fault fault' : Journal → Diagnostic → Prop}

theorem mono (h : B.Keeps j unit e value fault)
    (hvalue : ∀ j' a, j <:+ j' → value j' a → value' j' a)
    (hfault : ∀ j' d, j <:+ j' → fault j' d → fault' j' d) : B.Keeps j unit e value' fault' := by
  intro m hm hfine
  have hrun := h m hm hfine
  generalize e m = result at hrun ⊢
  cases hrun with
  | ok hj hfine' ha => exact .ok hj hfine' (hvalue _ _ hj ha)
  | error hj hfine' hd => exact .error hj hfine' (hfault _ _ hj hd)

theorem mono_fault (h : B.Keeps j unit e value fault)
    (hfault : ∀ j' d, j <:+ j' → fault j' d → fault' j' d) : B.Keeps j unit e value fault' :=
  h.mono (fun _ _ _ ha => ha) hfault

theorem pure {a : α} (h : value j a) : B.Keeps j unit (Pure.pure a : Eval α) value fault := by
  rintro m rfl hfine
  exact .ok List.suffix_rfl hfine h

theorem throw {d : Diagnostic} (h : fault j d) :
    B.Keeps j unit (MonadExcept.throw d : Eval α) value fault := by
  rintro m rfl hfine
  exact .error List.suffix_rfl hfine h

/-- One computation after the other. -/
theorem bind {k : α → Eval β} (h : B.Keeps j unit e value fault)
    (hk : ∀ a j', j <:+ j' → value j' a → B.Keeps j' unit (k a) follow fault) :
    B.Keeps j unit (e >>= k) follow fault := by
  intro m hm hfine
  have hfirst := h m hm hfine
  rw [Eval.bind_eq]
  generalize e m = result at hfirst ⊢
  cases hfirst with
  | error hj hfine' hd => exact .error hj hfine' hd
  | @ok a m' hj hfine' ha =>
    -- The second computation begins with the journal that the first one has left.
    have hsecond := hk a m'.journal hj ha m' rfl hfine'
    dsimp only
    generalize k a m' = result' at hsecond ⊢
    cases hsecond with
    | ok hj' hfine'' hb => exact .ok (hj.trans hj') hfine'' hb
    | error hj' hfine'' hd => exact .error (hj.trans hj') hfine'' hd

/-! ### Steps on the store -/

theorem readStore {f : Store → α} (h : ∀ s : Store, s.All (B.Known j) → value j (f s)) :
    B.Keeps j unit (Eval.readStore f) value fault := by
  rintro m rfl hfine
  exact .ok List.suffix_rfl hfine (h m.store hfine.store)

theorem unitName : B.Keeps j unit Eval.unitName (fun _ name => name = unit) fault := by
  rintro m rfl hfine
  exact .ok List.suffix_rfl hfine hfine.unit

theorem withStore {f : Store → α × Store}
    (h : ∀ s : Store, s.All (B.Known j) → (f s).2.All (B.Known j) ∧ value j (f s).1) :
    B.Keeps j unit (Eval.withStore f) value fault := by
  rintro m rfl hfine
  obtain ⟨hstore, ha⟩ := h m.store hfine.store
  exact .ok List.suffix_rfl ⟨hfine.base, hfine.unit, hstore⟩ ha

theorem modifyStore {f : Store → Store}
    (h : ∀ s : Store, s.All (B.Known j) → (f s).All (B.Known j)) :
    B.Keeps j unit (Eval.modifyStore f) Any fault := by
  rintro m rfl hfine
  exact .ok List.suffix_rfl ⟨hfine.base, hfine.unit, h m.store hfine.store⟩ trivial

theorem print (line : String) : B.Keeps j unit (Eval.print line) Any fault := by
  rintro m rfl hfine
  exact .ok List.suffix_rfl ⟨hfine.base, hfine.unit, hfine.store⟩ trivial

theorem newScope (parent : Option ScopeId) {bindings : Table ScriptLang.Value}
    (h : bindings.All (B.Value j)) :
    B.Keeps j unit (Eval.withStore (·.newScope parent bindings)) Any fault :=
  withStore fun _ hs => ⟨hs.newScope h, trivial⟩

theorem newObject : B.Keeps j unit (Eval.withStore Store.newObject) Any fault :=
  withStore fun _ hs => ⟨hs.newObject, trivial⟩

theorem define {id : ScopeId} {name : String} {v : ScriptLang.Value} (h : B.Value j v) :
    B.Keeps j unit (Eval.modifyStore (·.define id name v)) Any fault :=
  modifyStore fun _ hs => hs.define h

theorem assign {id : ScopeId} {name : String} {v : ScriptLang.Value} (h : B.Value j v) :
    B.Keeps j unit (Eval.modifyStore (·.assign id name v)) Any fault :=
  modifyStore fun _ hs => hs.assign h

/-! ### Faults -/

theorem failAt {f : ScriptLang.Fault} {place : Place} {places : List Place}
    (hplace : place ∈ places) (hfits : place.fits f.kind = true) :
    B.Keeps j unit (Eval.failAt f place.span) value (B.Fault places) :=
  throw (.inr (Fault.at_liesAt hplace hfits))

theorem ofExceptAt {result : Except ScriptLang.Fault α} {good : α → Prop} {place : Place}
    {places : List Place} (hplace : place ∈ places)
    (h : Outcome good (fun kind => place.fits kind = true) result)
    (hvalue : ∀ a, good a → value j a) :
    B.Keeps j unit (Eval.ofExceptAt place.span result) value (B.Fault places) := by
  cases h with
  | ok ha => exact pure (hvalue _ ha)
  | error hkind => exact failAt hplace hkind

/-- A fault of a computation that knows neither where it runs nor for which unit. -/
theorem ofExcept {result : Except ScriptLang.Fault α} {good : α → Prop}
    {kinds : DiagnosticKind → Prop} (h : Outcome good kinds result) :
    B.Keeps j unit (Eval.ofExcept result) (fun _ a => good a)
      fun _ d => d.Placeless ∧ kinds d.kind := by
  cases h with
  | ok ha => exact pure ha
  | @error fault hkind =>
    have hreport : kinds fault.report.kind := by rwa [Fault.report_kind]
    exact throw ⟨Fault.report_placeless fault, hreport⟩

/-- A fault without a place is given one; one that has its unit already has its place as well. -/
theorem withSpan {place : Place} {places : List Place} (hplace : place ∈ places)
    (h : B.Keeps j unit e value fun j d =>
      B.Named j d ∨ d.Placeless ∧ place.fits d.kind = true) :
    B.Keeps j unit (Eval.mapDiagnostic (·.withSpan place.span) e) value (B.Fault places) := by
  intro m hm hfine
  have hrun := h m hm hfine
  rw [Eval.mapDiagnostic]
  generalize e m = result at hrun ⊢
  cases hrun with
  | ok hj hfine' ha => exact .ok hj hfine' ha
  | error hj hfine' hd =>
    refine .error hj hfine' ?_
    obtain hnamed | ⟨hplaceless, hfits⟩ := hd
    · obtain ⟨span, hspan⟩ := Option.isSome_iff_exists.1 (B.span hnamed)
      rw [Diagnostic.withSpan_of_some _ span _ hspan]
      exact .inl hnamed
    · exact .inr ((hplaceless.withSpan hfits).mono (by simpa using hplace))

/-- A fault of the code of a unit is given the unit; one that has its unit keeps it. -/
theorem inUnit {inner : String} {places : List Place}
    (h : B.Keeps j inner e value (B.Fault places)) :
    B.Keeps j unit (Eval.inUnit inner e) value fun j d =>
      B.Named j d ∨ ∃ d' : Diagnostic, d'.LiesAt places ∧ d = d'.withUnit inner := by
  intro m hm hfine
  have hrun := h { m with unit := inner } hm ⟨hfine.base, rfl, hfine.store⟩
  rw [Eval.inUnit]
  generalize e { m with unit := inner } = result at hrun ⊢
  cases hrun with
  | ok hj hfine' ha => exact .ok hj ⟨hfine'.base, hfine.unit, hfine'.store⟩ ha
  | error hj hfine' hd =>
    refine .error hj ⟨hfine'.base, hfine.unit, hfine'.store⟩ ?_
    obtain hnamed | hlies := hd
    · obtain ⟨u, hu⟩ := Option.isSome_iff_exists.1 (B.unit hnamed)
      rw [Diagnostic.withUnit_of_some _ u _ hu]
      exact .inl hnamed
    · exact .inr ⟨_, hlies, rfl⟩

theorem inFrame (h : B.Keeps j unit e value fault) :
    B.Keeps j unit (Eval.inFrame e) value fault := by
  intro m hm hfine
  have hrun := h { m with depth := m.depth + 1 } hm ⟨hfine.base, hfine.unit, hfine.store⟩
  rw [Eval.inFrame]
  generalize e { m with depth := m.depth + 1 } = result at hrun ⊢
  cases hrun with
  | ok hj hfine' ha => exact .ok hj ⟨hfine'.base, hfine'.unit, hfine'.store⟩ ha
  | error hj hfine' hd => exact .error hj ⟨hfine'.base, hfine'.unit, hfine'.store⟩ hd

/-- A load. The evaluation of a module begins with a journal that tells so. -/
theorem load {resolve : Resolver} {name : String} {evaluate : SourceUnit → Eval Module}
    (hresolve : ∀ d, resolve name = .error d → d.Placeless)
    (hevaluate : ∀ found, resolve name = .ok found → B.base <:+ j →
      B.Keeps (.began found.key found.text :: j) unit (evaluate ⟨found.key, found.text⟩)
        (fun j module => module.members.All (B.Value j)) B.LoadFault) :
    B.Keeps j unit (loadModule resolve name evaluate) Any B.LoadFault := by
  rintro m rfl hfine
  have hrun := loadModule_run resolve name evaluate m
  generalize loadModule resolve name evaluate m = result at hrun ⊢
  cases hrun with
  | notFound hnone => exact .error List.suffix_rfl hfine (.inr (hresolve _ hnone))
  -- A module that has been loaded, or is being loaded, leaves a word in the journal only.
  | refused =>
    exact .error (List.suffix_cons _ _) (hfine.record _) (.inr (Fault.report_placeless _))
  | reused => exact .ok (List.suffix_cons _ _) (hfine.record _) trivial
  | @aborted found registry d m' hfound _ hfail =>
    have hinside := hevaluate found hfound hfine.base (m.beginLoad found registry) rfl
      (hfine.beginLoad _ _)
    rw [hfail] at hinside
    -- The fault was named in the journal before the last entry.
    cases hinside with
    | error hj hfine' hd =>
      have hend : m'.journal <:+ (m'.abortLoad found.key).journal := List.suffix_cons _ _
      refine .error (((List.suffix_cons _ _).trans hj).trans hend) (hfine'.abortLoad _) ?_
      exact hd.imp_left (B.named_mono hend)
  | @completed found registry module m' hfound _ hdone =>
    have hinside := hevaluate found hfound hfine.base (m.beginLoad found registry) rfl
      (hfine.beginLoad _ _)
    rw [hdone] at hinside
    cases hinside with
    | ok hj hfine' hmodule =>
      refine .ok (((List.suffix_cons _ _).trans hj).trans (List.suffix_cons _ _)) ?_ trivial
      exact hfine'.completeLoad hmodule _ _

end Keeps

end Blame

end ScriptLang
