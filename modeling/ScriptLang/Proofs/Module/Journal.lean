import ScriptLang.Module.Registry

/-!
# Journals of loads

The journal of a session tells what has happened to its loads, the latest first. It obeys the laws
of loading if each event was allowed by what the journal told before. From the laws for single
events follow those for whole sessions: a module is evaluated with success at most once, never
inside its own evaluation, and is the same one ever after.

## Main definitions

* `LoadEvent.key`, `LoadEvent.IsAnswer`: the key of an event, and whether it answers a load
* `inProgress`: the keys being evaluated, the innermost first
* `Allowed`, `Lawful`: what may happen next, and a journal in which nothing else happened

## Main results

* `Lawful.completed_unique`: no key gets two modules
* `Lawful.answer_of_completed`, `Lawful.answer_refused_iff`: what a load is answered, depending on
  the past of its key
-/

namespace ScriptLang

variable {μ : Type}

namespace LoadEvent

/-- The key that an event is about. -/
def key : LoadEvent μ → String
  | began key _ | completed key _ | aborted key | reused key _ | refused key => key

/-- The event tells how the registry answered a load. The others tell how a load ended. -/
def IsAnswer : LoadEvent μ → Prop
  | began _ _ | reused _ _ | refused _ => True
  | completed _ _ | aborted _ => False

end LoadEvent

/-- The keys of the modules being evaluated, the innermost first. -/
def inProgress : List (LoadEvent μ) → List String
  | [] => []
  | .began key _ :: past => key :: inProgress past
  | .completed key _ :: past | .aborted key :: past => (inProgress past).erase key
  | .reused _ _ :: past | .refused _ :: past => inProgress past

/-- The event may happen after those of the past. -/
def Allowed (past : List (LoadEvent μ)) : LoadEvent μ → Prop
  | .began key _ => key ∉ inProgress past ∧ ∀ m, .completed key m ∉ past
  -- Only the innermost evaluation can end.
  | .completed key _ | .aborted key => ∃ outer, inProgress past = key :: outer
  | .reused key m => .completed key m ∈ past
  | .refused key => key ∈ inProgress past

/-- Every event of the journal was allowed when it happened. -/
inductive Lawful : List (LoadEvent μ) → Prop where
  | nil : Lawful []
  | cons {past : List (LoadEvent μ)} {event : LoadEvent μ} : Lawful past → Allowed past event →
    Lawful (event :: past)

namespace Lawful

variable {journal later past : List (LoadEvent μ)} {event : LoadEvent μ} {key : String} {m m' : μ}

/-- What happened was allowed by what had happened before. -/
theorem allowed (h : Lawful (later ++ event :: past)) : Lawful past ∧ Allowed past event := by
  induction later with
  | nil =>
    cases h with
    | cons hpast hallowed => exact ⟨hpast, hallowed⟩
  | cons latest later ih =>
    cases h with
    | cons hrest _ => exact ih hrest

/-- No evaluation is inside another one of the same module. -/
theorem nodup_inProgress (h : Lawful journal) : (inProgress journal).Nodup := by
  induction h with
  | nil => exact List.nodup_nil
  | @cons past event _ hallowed ih =>
    cases event with
    | began key text => exact List.nodup_cons.2 ⟨hallowed.1, ih⟩
    | completed key m => exact ih.erase key
    | aborted key => exact ih.erase key
    | reused key m => exact ih
    | refused key => exact ih

/-- What is being evaluated has no module yet. -/
theorem not_completed (h : Lawful journal) (hkey : key ∈ inProgress journal) (m : μ) :
    .completed key m ∉ journal := by
  induction h with
  | nil => simp
  | @cons past event hpast hallowed ih =>
    intro hmem
    rcases List.mem_cons.1 hmem with rfl | hbefore
    · -- An evaluation that has just ended is not in progress any more.
      exact hpast.nodup_inProgress.not_mem_erase hkey
    · cases event with
      | began k text =>
        -- What begins now has no module, and everything else was in progress before.
        rcases List.mem_cons.1 hkey with rfl | hkey
        · exact hallowed.2 m hbefore
        · exact ih hkey hbefore
      | completed k _ => exact ih (List.mem_of_mem_erase hkey) hbefore
      | aborted k => exact ih (List.mem_of_mem_erase hkey) hbefore
      | reused k _ => exact ih hkey hbefore
      | refused k => exact ih hkey hbefore

/-- A key that gets a module had none. -/
theorem not_completed_of_allowed (h : Lawful past) (hallowed : Allowed past (.completed key m))
    (m' : μ) : .completed key m' ∉ past := by
  obtain ⟨outer, houter⟩ := hallowed
  refine h.not_completed ?_ m'
  rw [houter]
  exact List.mem_cons_self

/-- No key gets two modules. -/
theorem completed_unique (h : Lawful journal) (hm : .completed key m ∈ journal)
    (hm' : .completed key m' ∈ journal) : m = m' := by
  induction h with
  | nil => cases hm
  | @cons past event hpast hallowed ih =>
    rcases List.mem_cons.1 hm with rfl | hbefore
    · rcases List.mem_cons.1 hm' with heq | hbefore'
      · cases heq
        rfl
      · exact absurd hbefore' (hpast.not_completed_of_allowed hallowed m')
    · rcases List.mem_cons.1 hm' with rfl | hbefore'
      · exact absurd hbefore (hpast.not_completed_of_allowed hallowed m)
      · exact ih hbefore hbefore'

/-- Once a module has been loaded, every load of its key is given that module. -/
theorem answer_of_completed (h : Lawful past) (hallowed : Allowed past event)
    (hanswer : event.IsAnswer) (hm : .completed event.key m ∈ past) :
    event = .reused event.key m := by
  cases event with
  | began key text => exact absurd hm (hallowed.2 m)
  | completed key _ => cases hanswer
  | aborted key => cases hanswer
  | reused key m' => rw [h.completed_unique hallowed hm, LoadEvent.key]
  | refused key => exact absurd hm (h.not_completed hallowed m)

/-- A load is refused exactly when its key is being evaluated. -/
theorem answer_refused_iff (h : Lawful past) (hallowed : Allowed past event)
    (hanswer : event.IsAnswer) : event = .refused event.key ↔ event.key ∈ inProgress past := by
  constructor
  · intro hrefused
    rw [hrefused] at hallowed
    exact hallowed
  · intro hkey
    cases event with
    | began key text => exact absurd hkey hallowed.1
    | completed key _ => cases hanswer
    | aborted key => cases hanswer
    | reused key m => exact absurd hallowed (h.not_completed hkey m)
    | refused key => rfl

end Lawful

end ScriptLang
