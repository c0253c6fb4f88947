import ScriptLang.Proofs.Eval.Attribution
import ScriptLang.Proofs.Source.Coverage

/-!
# Which layer names a fault

A fault gets its place where a call or a load is written, and its unit where the code of a unit
ends. So the fault of a call itself (a missing argument, no frame left) leaves the call with its place
and without unit, and that of a load with neither; a fault in the body of a function leaves the
function with the unit that the function comes from.

What a call or a load ends with besides may be anything that has its unit and its place. Functions and
programs are looked at on every host therefore, and with every set of such faults: a fault that they
end with is one of the set, or it has got the unit of their own code.

## Main definitions

* `Diagnostic.Placed`, `Diagnostic.RaisedIn`: a fault with unit and place, and one of code that has
  been given the unit of the code
* `Eval.FailsWith`: a computation ends with some faults only
* `Host.Fails`: calls and loads end with faults of a set, or with that of the request
* `Host.NamesFaults`: functions and programs end with faults of a set, or with their own

## Main results

* `Host.withFrames_fails`: with any number of frames, calls and loads are as told above
* `Host.Fails.namesFaults`: on every host, functions and programs are
-/

namespace ScriptLang

namespace Diagnostic

/-- The unit and the place of the fault are known. -/
structure Placed (d : Diagnostic) : Prop where
  unit : d.unit.isSome = true
  span : d.span.isSome = true

/-- The fault has the unit, and lies at one of the places. -/
structure RaisedIn (unit : String) (places : List Place) (d : Diagnostic) : Prop where
  unit : d.unit = some unit
  place : ∃ place ∈ places, d.span = some place.span ∧ place.fits d.kind = true

variable {d : Diagnostic} {unit : String} {places places' : List Place}

theorem LiesAt.withUnit (h : d.LiesAt places) (unit : String) :
    (d.withUnit unit).RaisedIn unit places where
  unit := by
    rw [Diagnostic.withUnit, h.unit]
    rfl
  place := h.place

theorem RaisedIn.mono (h : d.RaisedIn unit places) (hsub : places ⊆ places') :
    d.RaisedIn unit places' := by
  obtain ⟨place, hplace, hspan⟩ := h.place
  exact ⟨h.unit, place, hsub hplace, hspan⟩

theorem RaisedIn.placed (h : d.RaisedIn unit places) : d.Placed where
  unit := by simp [h.unit]
  span := by
    obtain ⟨place, -, hspan, -⟩ := h.place
    simp [hspan]

end Diagnostic

/-- The computation ends with some faults only. It continues the journal and comes back to the unit
that it began in. -/
structure Eval.FailsWith {α : Type} (e : Eval α) (fault : Diagnostic → Prop) : Prop where
  journal (m : Machine) : m.journal <:+ (e.after m).journal
  unit (m : Machine) : (e.after m).unit = m.unit
  fault {m m' : Machine} {d : Diagnostic} : e m = .error d m' → fault d

namespace Host

/-- The calls and loads of the host end with faults of a set, or with that of the request: this lies
at the call, or does not know where the load is. -/
structure Fails (host : Host) (named : Diagnostic → Prop) : Prop where
  call (callee : Value) (args : List Value) (span : Span) :
    (host.call callee args span).FailsWith fun d => named d ∨ d.LiesAt [.call span]
  load (name : String) : (host.load name).FailsWith fun d => named d ∨ d.Placeless

/-- The code of functions and programs ends with faults of a set, or with its own. -/
structure NamesFaults (host : Host) (named : Diagnostic → Prop) : Prop where
  /-- A call with the wrong number of arguments is the fault of whoever calls. Any other fault that
  is not of the set has the unit that the function comes from. -/
  function (f : Closure) (receiver : Option Value) (args : List Value) (span : Span) :
    (invoke host f receiver args span).FailsWith fun d =>
      d = (arityFault f receiver.toList.length args.length).at span ∨
        d.RaisedIn f.origin f.function.places ∨ named d
  program (program : Program) (scope : ScopeId) (unit : String) :
    (runProgram host program scope unit).FailsWith fun d =>
      d.RaisedIn unit program.places ∨ named d

end Host

namespace Blame

/-- All code is known, whatever unit it is of. -/
def anywhere (named : Diagnostic → Prop) (hplaced : ∀ d, named d → d.Placed) : Blame where
  base := []
  Code _ _ _ := True
  Named _ := named
  code_mono _ _ _ := trivial
  named_mono _ hd := hd
  unit hd := (hplaced _ hd).unit
  span hd := (hplaced _ hd).span

section Anywhere

variable {named : Diagnostic → Prop} {hplaced : ∀ d, named d → d.Placed}

theorem anywhere_fine {unit : String} {m : Machine} (hunit : m.unit = unit) :
    (anywhere named hplaced).Fine unit m where
  base := List.nil_suffix
  unit := hunit
  store := .of_forall fun _ => trivial

theorem anywhere_value {j : Journal} (v : ScriptLang.Value) : (anywhere named hplaced).Value j v :=
  .of_forall (fun _ => trivial) v

theorem anywhere_values {j : Journal} (vs : List ScriptLang.Value) :
    (anywhere named hplaced).Values j vs :=
  fun v _ => anywhere_value v

variable {α : Type} {e : Eval α} {value : Journal → α → Prop} {fault : Diagnostic → Prop}

/-- Where all code is known, only the faults of a computation matter. -/
theorem keeps_of_failsWith {j : Journal} {unit : String} (h : e.FailsWith fault)
    (hvalue : ∀ j a, value j a) :
    (anywhere named hplaced).Keeps j unit e value fun _ => fault := by
  rintro m rfl hfine
  have hjournal := h.journal m
  have hunit := (h.unit m).trans hfine.unit
  cases hrun : e m with
  | ok a m' =>
    rw [Eval.after_of_ok hrun] at hjournal hunit
    exact .ok hjournal (anywhere_fine hunit) (hvalue _ a)
  | error d m' =>
    rw [Eval.after_of_error hrun] at hjournal hunit
    exact .error hjournal (anywhere_fine hunit) (h.fault hrun)

theorem failsWith_of_keeps
    (h : ∀ j unit, (anywhere named hplaced).Keeps j unit e value fun _ => fault) :
    e.FailsWith fault where
  journal m := (h m.journal m.unit m rfl (anywhere_fine rfl)).journal
  unit m := (h m.journal m.unit m rfl (anywhere_fine rfl)).fine.unit
  fault {m _ _} hrun := (h m.journal m.unit m rfl (anywhere_fine rfl)).of_error hrun

end Anywhere

section Code

variable {named : Diagnostic → Prop} {hplaced : ∀ d, named d → d.Placed} {host : Host}
  (hosts : (anywhere named hplaced).HostKeeps host) {j : Journal} {unit : String}
include hosts

/-- What leaves code that is run for a unit. -/
theorem inUnit_raised {inner : String} {scope : ScopeId} (stmts : List Stmt) :
    (anywhere named hplaced).Keeps j unit (Eval.inUnit inner (runStmts host scope stmts .nil)) Any
      fun _ d => d.RaisedIn inner (Stmt.placesOfStmts stmts) ∨ named d := by
  have code : (anywhere named hplaced).Code j inner (Stmt.placesOfStmts stmts) := trivial
  have hbody := runStmts_keeps hosts code scope stmts .nil (List.Subset.refl _) value_nil
  refine (Keeps.inUnit hbody).mono (fun _ _ _ _ => trivial) fun _ d _ hd => ?_
  obtain hnamed | ⟨d', hlies, rfl⟩ := hd
  · exact .inr hnamed
  · exact .inl (hlies.withUnit inner)

theorem invoke_raised (f : Closure) (receiver : Option ScriptLang.Value)
    (args : List ScriptLang.Value) (span : Span) :
    (anywhere named hplaced).Keeps j unit (invoke host f receiver args span) Any
      fun _ d => d = (arityFault f receiver.toList.length args.length).at span ∨
        d.RaisedIn f.origin f.function.places ∨ named d := by
  rw [invoke]
  by_cases mismatch : (receiver.toList ++ args).length ≠ f.arity
  · simp only [if_pos mismatch]
    exact .throw (.inl rfl)
  · simp only [if_neg mismatch]
    have hparams : (bindParams f.function.params (receiver.toList ++ args)).All
        ((anywhere named hplaced).Value j) :=
      fun _ v _ => anywhere_value v
    refine (Keeps.newScope _ hparams).bind fun scope j₁ _ _ => ?_
    refine ((inUnit_raised hosts f.function.body.stmts).mono_fault fun _ d _ hd => ?_).bind
      fun completion j₂ _ _ => ?_
    · exact .inr (hd.imp_left fun hraised => hraised.mono f.function.placesOfStmts_body_subset)
    · cases completion with
      | finished v => exact .pure trivial
      | returned v => exact .pure trivial

theorem runProgram_raised (program : Program) (scope : ScopeId) (name : String) :
    (anywhere named hplaced).Keeps j unit (runProgram host program scope name) Any
      fun _ d => d.RaisedIn name program.places ∨ named d := by
  refine (inUnit_raised hosts program.stmts).bind fun completion j₁ _ _ => ?_
  cases completion with
  | finished v => exact .pure trivial
  | returned v => exact .pure trivial

end Code

/-- A fault with a unit has a place as well. -/
def placed : Blame := anywhere Diagnostic.Placed fun _ hd => hd

theorem placed_hostKeeps {setting : Setting} (hsilent : setting.resolve.Silent) (frames : Nat) :
    placed.HostKeeps (Host.withFrames setting frames) := by
  refine withFrames_keeps ?_ hsilent ?_ frames
  · intro j unit places d _ hd
    exact (hd.withUnit unit).placed
  · -- A text that cannot be read is refused under its own name.
    intro j name found hfound _
    rw [Read]
    cases hparse : Program.parse ⟨found.key, found.text⟩ with
    | ok program => trivial
    | error d =>
      obtain ⟨-, hunit, span, hspan, -⟩ := Program.parse_error hparse
      exact ⟨by simp [hunit], by simp [hspan]⟩

end Blame

namespace Host

/-- With any number of frames, a fault that leaves a call or a load without unit is one of the request
itself. -/
theorem withFrames_fails {setting : Setting} (hsilent : setting.resolve.Silent) (frames : Nat) :
    (withFrames setting frames).Fails Diagnostic.Placed where
  call callee args span := by
    have hcall (j : Journal) (unit : String) :
        Blame.placed.Keeps j unit ((withFrames setting frames).call callee args span)
          Blame.placed.Value (Blame.placed.Fault [.call span]) :=
      (Blame.placed_hostKeeps hsilent frames).call (Blame.anywhere_value callee)
        (Blame.anywhere_values args)
    exact Blame.failsWith_of_keeps hcall
  load name := by
    have hload (j : Journal) (unit : String) :
        Blame.placed.Keeps j unit ((withFrames setting frames).load name) Blame.Any
          Blame.placed.LoadFault :=
      (Blame.placed_hostKeeps hsilent frames).load
    exact Blame.failsWith_of_keeps hload

/-- What calls and loads end with, functions and programs pass on; what else goes wrong in them has
got the unit of their code. -/
theorem Fails.namesFaults {host : Host} {named : Diagnostic → Prop} (h : host.Fails named)
    (hplaced : ∀ d, named d → d.Placed) : host.NamesFaults named := by
  have hosts : (Blame.anywhere named hplaced).HostKeeps host :=
    ⟨fun _ _ => Blame.keeps_of_failsWith (h.call _ _ _) fun _ => Blame.anywhere_value,
      Blame.keeps_of_failsWith (h.load _) fun _ _ => trivial⟩
  constructor
  · intro f receiver args span
    exact Blame.failsWith_of_keeps fun _ _ => Blame.invoke_raised hosts f receiver args span
  · intro program scope unit
    exact Blame.failsWith_of_keeps fun _ _ => Blame.runProgram_raised hosts program scope unit

end Host

end ScriptLang
