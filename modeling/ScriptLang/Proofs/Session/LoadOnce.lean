import ScriptLang.Proofs.Session.LoadJournal
import ScriptLang.Proofs.Session.Stock
import ScriptLang.Proofs.Token.Layout

/-!
# A module is loaded at most once

A load is asked for by a request, or by a load statement that the evaluator comes to; then it is inside
the modules whose evaluation has come to that statement. The registry is asked first, and there is one
evaluation at most. It runs between two entries in the books of the machine: one that takes the key, and
one that gives it its module or frees it again.

## Main definitions

* `AskedLoad`: a load, with the chain of the modules that ask for it
* `Request.Asks`: the loads that a request asks for
* `Machine.Retains`: a later machine has what an earlier one knows of loads
* `Machine.Enters`: one entry in the books
* `LoadReport`: what a load does, from its answer to its end

## Main results

* `Request.Asks.continues`: the loads in progress are those of the chain
* `AskedLoad.report`: every load reports what it does
* `LoadReport.eq_refused`: a load from within the evaluation of its own module is refused
* `Session.module_loaded_once`: the laws of loading hold in every session
-/

namespace ScriptLang

/-! ### Loads that are asked for -/

/-- A load that is asked for. -/
structure AskedLoad where
  /-- The keys of the modules being evaluated further up, the innermost first. -/
  chain : List String
  /-- The frames that are left. -/
  frames : Nat
  name : String
  machine : Machine

/-- The loads that a request asks for, each by itself or from within another one. -/
inductive Request.Asks (setting : Setting) (request : Request) (m : Machine) : AskedLoad → Prop where
  | itself {name : String} : request = .load name →
    Asks setting request m ⟨[], setting.maxFrames - m.depth, name, m⟩
  /-- The code of the request comes to a load statement. -/
  | code {x y : Moment} {name : String} {m' : Machine} : request.Begins setting m x →
    (∀ name, request ≠ .load name) → Relation.ReflTransGen (Moment.StaysIn setting) x y →
    y.AsksFor setting name m' → Asks setting request m ⟨[], y.frames, name, m'⟩
  /-- The module that is loaded comes to a load statement. -/
  | inside {load : AskedLoad} {found : ResolvedModule} {x y : Moment} {name : String} {m' : Machine} :
    Asks setting request m load → setting.resolve load.name = .ok found →
    Moment.Loaded setting load.frames load.name load.machine x →
    Relation.ReflTransGen (Moment.StaysIn setting) x y → y.AsksFor setting name m' →
    Asks setting request m ⟨found.key :: load.chain, y.frames, name, m'⟩

/-- The second machine has what the first one tells of loads, and its loaded modules, each as it is. -/
structure Machine.Retains (m m' : Machine) : Prop where
  journal : m.journal <:+ m'.journal
  modules {key : String} {ref : ModuleRef} : m.registry.get? key = some ref →
    m'.registry.get? key = some ref ∧ ∃ module, module.key = key ∧
      m.store.module? ref = some module ∧ m'.store.module? ref = some module

namespace Machine.Continues

variable {setting : Setting} {m m' : Machine} {x y : Moment} {name : String}

theorem closed : Moment.Closed (Continues []) where
  toStepClosed := stepClosed
  withUnit := withUnit
  withDepth := withDepth
  hosts := runClosed.hosts

theorem retains {keys : List String} (h : Continues keys m m') (hm : m.Consistent)
    (hstocked : m.Stocked) : m.Retains m' where
  journal := h.journal
  modules {key ref} href := by
    have hcompleted := h.journal.subset ((hm.loaded key ref).1 href)
    obtain ⟨module, hmodule, hkey⟩ := hstocked.loaded href
    exact ⟨((h.consistent hm).loaded key ref).2 hcompleted, module, hkey, hmodule,
      Store.module?_of_prefix h.modules hmodule⟩

/-- The evaluator comes to a load statement without a load. -/
theorem asked (hreaches : Relation.ReflTransGen (Moment.StaysIn setting) x y)
    (hasks : y.AsksFor setting name m') : Continues [] x.machine m' :=
  (closed.reaches hreaches).trans (closed.asksFor hasks)

end Machine.Continues

/-- When a load is asked for, the loads in progress are those of its chain. -/
theorem Request.Asks.continues {setting : Setting} {request : Request} {m : Machine} {load : AskedLoad}
    (h : request.Asks setting m load) : m.Continues load.chain load.machine := by
  have closed := Machine.Continues.closed
  -- The induction is on the chain: a load from within another one adds the key of that one.
  induction h with
  | itself => exact .refl m
  | code hbegins hrequest hreaches hasks =>
    rcases closed.begins hbegins with hfirst | ⟨name, hload, -⟩
    · exact hfirst.trans (.asked hreaches hasks)
    · exact absurd hload (hrequest name)
  | inside _ hfound hloaded hreaches hasks ih =>
    obtain ⟨found, registry, hresolve, hstart, hinside⟩ := closed.loaded hloaded
    cases hfound.symm.trans hresolve
    -- The key of the module is in progress from the answer to its load on, and none has ended since.
    have hbegun := (Machine.Continues.beginLoad hstart).trans hinside
    exact ih.trans (hbegun.trans (.asked hreaches hasks))

/-! ### What a load does -/

/-- An entry in the books of a machine: an event in the journal, and what the registry knows of the key
from then on. Nothing else changes. -/
structure Machine.Enters (m m' : Machine) (event : LoadEvent ModuleRef)
    (entry : Option (LoadEntry ModuleRef)) : Prop where
  machine : m' = { m with registry := m'.registry, journal := event :: m.journal }
  entry : m'.registry.entries.get? event.key = entry
  others (k : String) : k ≠ event.key → m'.registry.entries.get? k = m.registry.entries.get? k

namespace Machine.Enters

variable {m : Machine} {key name : String}

theorem beginLoad {found : ResolvedModule} {registry : Registry ModuleRef}
    (hstart : m.registry.start? found.key name = .ok (.started registry)) :
    m.Enters (m.beginLoad found registry) (.began found.key found.text) (some .loading) := by
  obtain ⟨-, rfl⟩ := Registry.start?_eq_started hstart
  exact ⟨rfl, Table.get?_insert_self .., fun _ hk =>
    (Table.get?_insert ..).trans (if_neg hk.symm)⟩

theorem completeLoad (m : Machine) (key : String) (ref : ModuleRef) :
    m.Enters (m.completeLoad key ref) (.completed key ref) (some (.loaded ref)) :=
  ⟨rfl, Table.get?_insert_self .., fun _ hk =>
    (Table.get?_insert ..).trans (if_neg hk.symm)⟩

theorem abortLoad (m : Machine) (key : String) :
    m.Enters (m.abortLoad key) (.aborted key) none :=
  ⟨rfl, (Table.get?_erase ..).trans (if_pos rfl), fun _ hk =>
    (Table.get?_erase ..).trans (if_neg hk.symm)⟩

end Machine.Enters

/-- The key is not being evaluated and has no module, and is taken for the evaluation to come. -/
structure AskedLoad.Begins (load : AskedLoad) (found : ResolvedModule) (m : Machine) : Prop where
  notInside : found.key ∉ load.chain
  notLoaded (ref : ModuleRef) : .completed found.key ref ∉ load.machine.journal
  enters : load.machine.Enters m (.began found.key found.text) (some .loading)

/-- What a load does, from its answer to its end. -/
inductive LoadReport (setting : Setting) (load : AskedLoad) :
    EStateM.Result Diagnostic Machine ModuleRef → Prop where
  /-- There is no such module. -/
  | notFound {d : Diagnostic} : setting.resolve load.name = .error d →
    LoadReport setting load (.error d load.machine)
  /-- The module is being evaluated further up. -/
  | refused {found : ResolvedModule} : setting.resolve load.name = .ok found →
    found.key ∈ load.chain →
    LoadReport setting load
      (.error (Fault.circularImport (load.machine.registry.cycle found.key (bareName load.name))).report
        { load.machine with journal := .refused found.key :: load.machine.journal })
  /-- The module is there. -/
  | reused {found : ResolvedModule} {ref : ModuleRef} : setting.resolve load.name = .ok found →
    found.key ∉ load.chain → .completed found.key ref ∈ load.machine.journal →
    LoadReport setting load
      (.ok ref { load.machine with journal := .reused found.key ref :: load.machine.journal })
  /-- The module is evaluated, once, which fails. -/
  | aborted {found : ResolvedModule} {d : Diagnostic} {m₁ m₂ m₃ : Machine} :
    setting.resolve load.name = .ok found → load.Begins found m₁ →
    evaluateWithin setting load.frames load.name ⟨found.key, found.text⟩ m₁ = .error d m₂ →
    m₁.Continues [] m₂ → m₂.Enters m₃ (.aborted found.key) none →
    LoadReport setting load (.error d m₃)
  /-- The module is evaluated, once, which succeeds. -/
  | completed {found : ResolvedModule} {module : Module} {ref : ModuleRef} {m₁ m₂ m₃ : Machine} :
    setting.resolve load.name = .ok found → load.Begins found m₁ →
    evaluateWithin setting load.frames load.name ⟨found.key, found.text⟩ m₁ = .ok module m₂ →
    m₁.Continues [] m₂ → ref = ⟨m₂.store.modules.size, module.name⟩ →
    Machine.Enters { m₂ with store := { m₂.store with modules := m₂.store.modules.push module } } m₃
      (.completed found.key ref) (some (.loaded ref)) →
    LoadReport setting load (.ok ref m₃)

/-- A load from within the evaluation of its own module is refused. -/
theorem LoadReport.eq_refused {setting : Setting} {load : AskedLoad}
    {result : EStateM.Result Diagnostic Machine ModuleRef} (h : LoadReport setting load result)
    {found : ResolvedModule} (hfound : setting.resolve load.name = .ok found)
    (hinside : found.key ∈ load.chain) :
    result =
      .error (Fault.circularImport (load.machine.registry.cycle found.key (bareName load.name))).report
        { load.machine with journal := .refused found.key :: load.machine.journal } := by
  cases h with
  | notFound hresolve => cases hfound.symm.trans hresolve
  | refused hresolve =>
    cases hfound.symm.trans hresolve
    rfl
  | reused hresolve hnotInside =>
    cases hfound.symm.trans hresolve
    exact absurd hinside hnotInside
  | aborted hresolve hbegins | completed hresolve hbegins =>
    cases hfound.symm.trans hresolve
    exact absurd hinside hbegins.notInside

namespace AskedLoad

variable {setting : Setting} {load : AskedLoad}
  (hm : load.machine.Consistent) (hchain : inProgress load.machine.journal = load.chain)
include hm hchain

/-- The registry takes a key for loading exactly if it is in the chain. -/
theorem loading_iff {key : String} : load.machine.registry.state key = .loading ↔ key ∈ load.chain := by
  rw [hm.loading, hchain]

theorem begins {found : ResolvedModule} {name : String} {registry : Registry ModuleRef}
    (hstart : load.machine.registry.start? found.key name = .ok (.started registry)) :
    load.Begins found (load.machine.beginLoad found registry) where
  notInside := by
    rw [← loading_iff hm hchain, Registry.state_eq_notLoaded_of_started hstart]
    nofun
  notLoaded ref := by
    rw [← hm.loaded, Registry.get?_eq_some_iff, (Registry.start?_eq_started hstart).1]
    nofun
  enters := .beginLoad hstart

/-- Every load reports what it does. -/
theorem report :
    LoadReport setting load (loadWithin setting load.frames load.name load.machine) := by
  have hinside := Machine.Continues.runClosed.evaluateWithin setting load.frames load.name
  have hrun := loadModule_run setting.resolve load.name
    (evaluateWithin setting load.frames load.name) load.machine
  rw [loadWithin_eq]
  -- The registry answers, and the chain and the journal tell what each answer means.
  generalize loadModule setting.resolve load.name _ load.machine = result at hrun ⊢
  cases hrun with
  | notFound hresolve => exact .notFound hresolve
  | refused hresolve hstart =>
    obtain ⟨hstate, rfl⟩ := Registry.start?_eq_error_iff.1 hstart
    exact .refused hresolve ((loading_iff hm hchain).1 hstate)
  | @reused found _ hresolve hstart =>
    have hloaded := Registry.start?_eq_cached_iff.1 hstart
    have hnotInside : found.key ∉ load.chain := by
      rw [← loading_iff hm hchain]
      exact Registry.state_ne_loading_of_get? hloaded
    exact .reused hresolve hnotInside ((hm.loaded _ _).1 hloaded)
  | @aborted found registry d m' hresolve hstart hfail =>
    have hcontinues := hinside ⟨found.key, found.text⟩ (load.machine.beginLoad found registry)
    rw [Eval.after_of_error hfail] at hcontinues
    exact .aborted hresolve (begins hm hchain hstart) hfail hcontinues (.abortLoad m' found.key)
  | @completed found registry module m' hresolve hstart hdone =>
    have hcontinues := hinside ⟨found.key, found.text⟩ (load.machine.beginLoad found registry)
    rw [Eval.after_of_ok hdone] at hcontinues
    exact .completed hresolve (begins hm hchain hstart) hdone hcontinues rfl (.completeLoad _ _ _)

end AskedLoad

namespace Session

/-- **A module is loaded at most once, and never from within itself.** In the journal of a session, the
evaluation of at most one module succeeds under each key. None begins under a key that is being
evaluated, or has been with success. From then on every load of the key is given that module; and a load
is refused exactly if its key is being evaluated. The registry knows the same as the journal, at rest and
wherever a load is asked for, and a module that it has it keeps. And the journal has all of this from the
loads: each is refused exactly if it comes from the evaluation of its own module, gives back a module that
is there as it is, and otherwise evaluates the module once, between the two entries for it. -/
theorem module_loaded_once (echo : Bool) (history : List (Setting × Request)) :
    let m := after history (Machine.start echo)
    (∀ later past key ref, m.journal = later ++ .completed key ref :: past →
      ∀ ref', .completed key ref' ∉ past) ∧
    (∀ later past key text, m.journal = later ++ .began key text :: past →
      key ∉ inProgress past ∧ ∀ ref, .completed key ref ∉ past) ∧
    (∀ later past event ref, m.journal = later ++ event :: past → event.IsAnswer →
      .completed event.key ref ∈ past → event = .reused event.key ref) ∧
    (∀ later past event, m.journal = later ++ event :: past → event.IsAnswer →
      (event = .refused event.key ↔ event.key ∈ inProgress past)) ∧
    m.Consistent ∧ inProgress m.journal = [] ∧
    (∀ later, m.Retains (after later m)) ∧
    ∀ setting (request : Request) load, request.Asks setting m load →
      load.machine.Consistent ∧ inProgress load.machine.journal = load.chain ∧
      m.Retains load.machine ∧
      LoadReport setting load
        ((Host.withFrames setting load.frames).load load.name load.machine) := by
  intro m
  have hm : m.Consistent := consistent_after echo history
  have hrest : inProgress m.journal = [] := inProgress_after echo history
  have hstocked : m.Stocked := (Machine.Occurs.of_history echo history).stocked
  -- Each law is about one event and what the journal told before it.
  refine ⟨?_, ?_, ?_, ?_, hm, hrest, fun later => ?_, fun setting request load hasks => ?_⟩
  · intro later past key ref hjournal
    obtain ⟨hpast, hallowed⟩ := (hjournal ▸ hm.lawful).allowed
    exact hpast.not_completed_of_allowed hallowed
  · intro later past key text hjournal
    exact (hjournal ▸ hm.lawful).allowed.2
  · intro later past event ref hjournal hanswer hcompleted
    obtain ⟨hpast, hallowed⟩ := (hjournal ▸ hm.lawful).allowed
    exact hpast.answer_of_completed hallowed hanswer hcompleted
  · intro later past event hjournal hanswer
    obtain ⟨hpast, hallowed⟩ := (hjournal ▸ hm.lawful).allowed
    exact hpast.answer_refused_iff hallowed hanswer
  · exact (Machine.Continues.after m later).retains hm hstocked
  · have hcontinues := hasks.continues
    have hload : load.machine.Consistent := hcontinues.consistent hm
    have hchain : inProgress load.machine.journal = load.chain := by
      rw [hcontinues.inProgress, hrest, List.append_nil]
    exact ⟨hload, hchain, hcontinues.retains hm hstocked, load.report hload hchain⟩

/-- Two modules that are taken for one, a module that loads one of them, and a module that loads itself. -/
def looping : Setting :=
  ⟨4, Resolver.ignoringCase "key:" (Library.resolve (Table.ofList
    [("base", "One = 1"), ("BASE", "One = 2"), ("shapes", "load(\"base\")"), ("loop", "load(\"loop\")")]))⟩

theorem looping_resolve_loop : looping.resolve "loop" = .ok ⟨"key:loop", "load(\"loop\")"⟩ := rfl

/-- Only the module that loaded itself can be found, and it does so no more. -/
def repaired : Setting :=
  ⟨4, Resolver.ignoringCase "key:" (Library.resolve (Table.ofList [("loop", "Two = 2")]))⟩

/-- A program asks by another name for what a module has loaded. -/
def sharing : List (Setting × Request) :=
  [(looping, .newRoot), (looping, .load "shapes"), (looping, .evaluate ⟨"main", "load(\"BASE\")"⟩ 0)]

/-- The module that loads itself asks for that from within its own evaluation. -/
theorem exists_asks_loop : ∃ m, (Request.load "loop").Asks looping
    (after sharing (Machine.start false)) ⟨["key:loop"], 3, "loop", m⟩ := by
  let m := after sharing (Machine.start false)
  have htokens : tokenize "load(\"loop\")" =
      .ok ⟨[⟨.keyword .load, ⟨1, 1⟩, ⟨1, 5⟩⟩, ⟨.sign .leftParen, ⟨1, 5⟩, ⟨1, 6⟩⟩,
        ⟨.string "loop", ⟨1, 6⟩, ⟨1, 12⟩⟩, ⟨.sign .rightParen, ⟨1, 12⟩, ⟨1, 13⟩⟩],
        ⟨⟨1, 13⟩, ⟨1, 13⟩⟩⟩ := by
    rw [tokenize, tokensFrom_cons rfl rfl (tokensFrom_cons rfl rfl
      (tokensFrom_cons rfl rfl (tokensFrom_cons rfl rfl (tokensFrom_end rfl))))]
    rfl
  let path : ModulePath := ⟨"loop", ⟨⟨1, 6⟩, ⟨1, 12⟩⟩⟩
  have hprogram : Program.parse ⟨"key:loop", "load(\"loop\")"⟩ =
      .ok ⟨[.load ([] ++ path :: []) ⟨⟨1, 1⟩, ⟨1, 13⟩⟩], ⟨⟨1, 1⟩, ⟨1, 13⟩⟩⟩ := by
    rw [Program.parse, htokens]
    rfl
  have hnone : m.registry.entries.get? "key:loop" = none :=
    Option.isNone_iff_eq_none.1 (by decide +kernel)
  have hstart : m.registry.start? "key:loop" (bareName "loop") = .ok (.started
      ⟨m.registry.entries.insert "key:loop" .loading, m.registry.pending ++ [⟨"key:loop", "loop"⟩]⟩) := by
    rw [Registry.start?, hnone]
    rfl
  have hdepth : m.depth = 0 := by decide +kernel
  have hitself : (Request.load "loop").Asks looping m ⟨[], 3 + 1, "loop", m⟩ := by
    have h : (Request.load "loop").Asks looping m ⟨[], 4 - m.depth, "loop", m⟩ := .itself rfl
    rwa [hdepth] at h
  have first {frames : Nat} {scope : ScopeId} {x : Node} {xs : List Node} {m' : Machine} :
      Moment.Among looping frames scope (x :: xs) m' ⟨frames, scope, x, m'⟩ :=
    .intro (List.nil_append (x :: xs)).symm .nil
  -- The load turns to the only statement of the module, which asks for the module again.
  exact ⟨_, .inside hitself looping_resolve_loop
    (.body looping_resolve_loop hstart hprogram rfl first) .refl (.intro rfl)⟩

/-- A module is found under two names, with two texts of which one is evaluated; and one loads itself and
is loaded again when it does so no more. The events come in this order, the latest first. The module that
loads itself is refused, and no evaluation of it has succeeded before the last one. -/
theorem module_loaded_once_loop :
    let m := after sharing (Machine.start false)
    let reloaded := after (sharing ++ [(looping, .load "loop"), (repaired, .load "loop")])
      (Machine.start false)
    let before : List (LoadEvent ModuleRef) := [.began "key:loop" "Two = 2", .aborted "key:loop",
      .refused "key:loop", .began "key:loop" "load(\"loop\")", .reused "key:base" ⟨0, "base"⟩,
      .completed "key:shapes" ⟨1, "shapes"⟩, .completed "key:base" ⟨0, "base"⟩,
      .began "key:base" "One = 1", .began "key:shapes" "load(\"base\")"]
    reloaded.journal = .completed "key:loop" ⟨2, "loop"⟩ :: before ∧
      (∀ ref, .completed "key:loop" ref ∉ before) ∧
      reloaded.registry.get? "key:base" = some ⟨0, "base"⟩ ∧
      (∀ later, (after later reloaded).registry.get? "key:base" = some ⟨0, "base"⟩) ∧
      ∃ load, (Request.load "loop").Asks looping m load ∧ load.chain = ["key:loop"] ∧
        ∃ d, (Host.withFrames looping load.frames).load load.name load.machine =
          .error d { load.machine with journal := .refused "key:loop" :: load.machine.journal } := by
  intro m reloaded before
  -- The two histories are run; what holds of all that comes later is the theorem's.
  have hjournal : reloaded.journal = .completed "key:loop" ⟨2, "loop"⟩ :: before := by decide +kernel
  have hbase : reloaded.registry.get? "key:base" = some ⟨0, "base"⟩ := by decide +kernel
  obtain ⟨honce, -, -, -, -, -, hretains, -⟩ := module_loaded_once false
    (sharing ++ [(looping, .load "loop"), (repaired, .load "loop")])
  obtain ⟨m', hasks⟩ := exists_asks_loop
  obtain ⟨-, -, -, -, -, -, -, hloads⟩ := module_loaded_once false sharing
  obtain ⟨-, -, -, hreport⟩ := hloads looping (.load "loop") _ hasks
  have hrefused := hreport.eq_refused looping_resolve_loop List.mem_cons_self
  refine ⟨hjournal, honce [] before "key:loop" _ hjournal, hbase, fun later => ?_, _, hasks, rfl, _,
    hrefused⟩
  exact ((hretains later).modules hbase).1

end Session

end ScriptLang
