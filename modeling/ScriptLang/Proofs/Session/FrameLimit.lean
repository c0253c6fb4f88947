import ScriptLang.Proofs.Session.Termination

/-!
# The limit on frames changes nothing but the fault it announces

A run that does not end because its frames are exhausted does the same under every higher limit: it
gives the same value or ends with the same fault, and leaves the same machine. And under any limit the
counter never stands beyond it while code runs in a frame.

## Main definitions

* `Eval.Exhausted`: a run ends because its frames are exhausted
* `SameUnlessExhausted`: two computations that do the same wherever the first is not exhausted
* `Host.watched`: the host with some frames left, with a watch on the counter in every frame

## Main results

* `Host.hosts_raised`: more frames change nothing for a run that is not exhausted
* `Host.hosts_watched`: the watch sees nothing
* `Session.frame_limit_transparent`: both for every request
-/

namespace ScriptLang

/-! ### Higher limits -/

/-- The computation ends because its frames are exhausted. -/
def Eval.Exhausted {α : Type} (e : Eval α) (m : Machine) : Prop :=
  ∃ d m', e m = .error d m' ∧ d.kind = .stackExhausted

instance {α : Type} (e : Eval α) (m : Machine) : Decidable (e.Exhausted m) :=
  match h : e m with
  | .ok _ _ => isFalse fun ⟨_, _, hrun, _⟩ => by
    rw [h] at hrun
    cases hrun
  | .error d m' => decidable_of_iff (d.kind = .stackExhausted)
    ⟨fun hkind => ⟨d, m', h, hkind⟩, fun ⟨_, _, hrun, hkind⟩ => by
      rw [h] at hrun
      cases hrun
      exact hkind⟩

/-- Wherever the first computation is not exhausted, the second one does the same. -/
def SameUnlessExhausted (α : Type) (e e' : Eval α) : Prop :=
  ∀ m, e.Exhausted m ∨ e' m = e m

theorem SameUnlessExhausted.refl {α : Type} (e : Eval α) : SameUnlessExhausted α e e :=
  fun _ => .inr rfl

/-- A run is exhausted or not by what its parts are: no step makes good a fault. -/
theorem SameUnlessExhausted.congruence : Congruence SameUnlessExhausted where
  pure _ := .refl _
  throw _ := .refl _
  bind {α β e e' k k'} he hk m := by
    rw [Eval.Exhausted, Eval.bind_eq, Eval.bind_eq]
    obtain ⟨d, m', hrun, hkind⟩ | hsame := he m
    · exact .inl ⟨d, m', by rw [hrun], hkind⟩
    · rw [hsame]
      cases e m with
      | ok a m' => exact hk a m'
      | error d m' => exact .inr rfl
  withSpan span he m := by
    rw [Eval.Exhausted, Eval.mapDiagnostic, Eval.mapDiagnostic]
    obtain ⟨d, m', hrun, hkind⟩ | hsame := he m
    · exact .inl ⟨d.withSpan span, m', by rw [hrun], hkind⟩
    · exact .inr (by rw [hsame])
  inUnit unit he m := by
    rw [Eval.Exhausted, Eval.inUnit, Eval.inUnit]
    obtain ⟨d, m', hrun, hkind⟩ | hsame := he { m with unit := unit }
    · exact .inl ⟨d.withUnit unit, _, by rw [hrun], hkind⟩
    · exact .inr (by rw [hsame])
  readStore _ := .refl _
  unitName := .refl _
  define _ _ _ := .refl _
  assign _ _ _ := .refl _
  newScope _ _ := .refl _
  newObject := .refl _
  print _ := .refl _

namespace SameUnlessExhausted

variable {α : Type}

theorem inFrame {e e' : Eval α} (h : SameUnlessExhausted α e e') :
    SameUnlessExhausted α (Eval.inFrame e) (Eval.inFrame e') := by
  intro m
  rw [Eval.Exhausted, Eval.inFrame, Eval.inFrame]
  obtain ⟨d, m', hrun, hkind⟩ | hsame := h { m with depth := m.depth + 1 }
  · exact .inl ⟨d, _, by rw [hrun], hkind⟩
  · exact .inr (by rw [hsame])

/-- A computation that refuses a frame is exhausted everywhere. -/
theorem of_exhausted {e : Eval α} (h : ∀ m, e.Exhausted m) (e' : Eval α) :
    SameUnlessExhausted α e e' := fun m => .inl (h m)

/-- The resolver and the registry do not depend on frames, and a module whose evaluation is exhausted
is not loaded. -/
theorem loadModule (resolve : Resolver) (name : String) {evaluate evaluate' : SourceUnit → Eval Module}
    (h : ∀ source, SameUnlessExhausted Module (evaluate source) (evaluate' source)) :
    SameUnlessExhausted ModuleRef (loadModule resolve name evaluate)
      (loadModule resolve name evaluate') := by
  intro m
  rw [Eval.Exhausted, loadModule_eq, loadModule_eq]
  cases resolve name with
  | error d => exact .inr rfl
  | ok found =>
    dsimp only
    cases m.registry.start? found.key (bareName name) with
    | error fault => exact .inr rfl
    | ok start =>
      cases start with
      | cached ref => exact .inr rfl
      | started registry =>
        rw [followStart_started, followStart_started]
        obtain ⟨d, m', hrun, hkind⟩ | hsame :=
          h ⟨found.key, found.text⟩ (m.beginLoad found registry)
        · exact .inl ⟨d, _, by rw [hrun], hkind⟩
        · exact .inr (by rw [hsame])

end SameUnlessExhausted

theorem Eval.exhausted_failAt {α : Type} (limit : Nat) (span : Span) (m : Machine) :
    (Eval.failAt (α := α) (.tooManyFrames limit) span).Exhausted m := ⟨_, m, rfl, rfl⟩

theorem Eval.exhausted_fail {α : Type} (limit : Nat) (m : Machine) :
    (Eval.fail (α := α) (.tooManyFrames limit)).Exhausted m := ⟨_, m, rfl, rfl⟩

namespace Host

/-- More frames, and a higher limit to name in the fault, change nothing for a run that is not
exhausted. The induction is on the frames of the run: where it has none left, it is exhausted. -/
theorem hosts_raised (resolve : Resolver) (limit limit' : Nat) {frames frames' : Nat}
    (hle : frames ≤ frames') :
    Congruence.Hosts SameUnlessExhausted (withFrames ⟨limit, resolve⟩ frames)
      (withFrames ⟨limit', resolve⟩ frames') := by
  have congruence := SameUnlessExhausted.congruence
  induction frames generalizing frames' with
  | zero =>
    constructor
    · intro callee args span
      exact .of_exhausted (Eval.exhausted_failAt limit span) _
    · intro name
      rw [load_withFrames_zero]
      cases frames' with
      | zero =>
        rw [load_withFrames_zero]
        exact .loadModule _ _ fun _ => .of_exhausted (Eval.exhausted_fail limit) _
      | succ frames' =>
        rw [load_withFrames_succ]
        exact .loadModule _ _ fun _ => .of_exhausted (Eval.exhausted_fail limit) _
  | succ frames ih =>
    cases frames' with
    | zero => exact absurd hle (Nat.not_succ_le_zero frames)
    | succ frames' =>
      have inside := ih (Nat.le_of_succ_le_succ hle)
      constructor
      · intro callee args span
        exact .inFrame (congruence.applyValue inside callee args span)
      · intro name
        rw [load_withFrames_succ, load_withFrames_succ]
        exact .loadModule _ _ fun source =>
          .inFrame (congruence.evalModule inside (bareName name) source)

end Host

/-! ### A watch on the counter -/

/-- Run a computation one frame further in, but an alarm in its place if the counter then stands
beyond a bound. -/
def Eval.inWatchedFrame {α : Type} (bound : Nat) (alarm body : Eval α) : Eval α :=
  inFrame fun m => if m.depth ≤ bound then body m else alarm m

/-- What agrees one frame further in agrees under a watch that this frame is within. -/
theorem inWatchedFrame_eq {α : Type} {depth bound : Nat} {e e' alarm : Eval α}
    (h : AgreeAt (depth + 1) α e e') (hdepth : depth + 1 ≤ bound) {m : Machine}
    (hm : m.depth = depth) : Eval.inWatchedFrame bound alarm e' m = Eval.inFrame e m := by
  subst hm
  have hinside := h.agree { m with depth := m.depth + 1 } rfl
  simp only [Eval.inWatchedFrame, Eval.inFrame, if_pos hdepth, hinside]

namespace Host

variable (setting : Setting)

/-- The host with a number of frames left, with a watch on the counter in every frame. -/
def watched (alarm : (α : Type) → Eval α) : Nat → Host
  | 0 => withFrames setting 0
  | frames + 1 => {
      call := fun callee args span =>
        Eval.inWatchedFrame setting.maxFrames (alarm Value)
          (applyValue (watched alarm frames) callee args span)
      load := fun name => loadModule setting.resolve name fun source =>
        Eval.inWatchedFrame setting.maxFrames (alarm Module)
          (evalModule (watched alarm frames) (bareName name) source) }

theorem load_watched_succ (alarm : (α : Type) → Eval α) (frames : Nat) (name : String) :
    (watched setting alarm (frames + 1)).load name = loadModule setting.resolve name fun source =>
      Eval.inWatchedFrame setting.maxFrames (alarm Module)
        (evalModule (watched setting alarm frames) (bareName name) source) := rfl

/-- The watch sees nothing while the frames left and those in use are no more than the limit. The
induction is on the frames left; inside a frame there is one more in use. -/
theorem hosts_watched (alarm : (α : Type) → Eval α) {depth frames : Nat}
    (hle : depth + frames ≤ setting.maxFrames) :
    Congruence.Hosts (AgreeAt depth) (withFrames setting frames)
      (watched setting alarm frames) := by
  have returns := Machine.returns_runClosed.hosts setting frames
  induction frames generalizing depth with
  | zero =>
    refine ⟨fun callee args span => ⟨fun m => (returns.call callee args span m).depth, ?_⟩,
      fun name => ⟨fun m => (returns.load name m).depth, ?_⟩⟩
    · exact fun _ _ => rfl
    · exact fun _ _ => rfl
  | succ frames ih =>
    have hinside : depth + 1 + frames ≤ setting.maxFrames := by omega
    have hosts := ih hinside (Machine.returns_runClosed.hosts setting frames)
    have inside := AgreeAt.congruence (depth + 1)
    have hdepth : depth + 1 ≤ setting.maxFrames := by omega
    refine ⟨fun callee args span => ⟨fun m => (returns.call callee args span m).depth, ?_⟩,
      fun name => ⟨fun m => (returns.load name m).depth, ?_⟩⟩
    · rintro m rfl
      exact (inWatchedFrame_eq (inside.applyValue hosts callee args span) hdepth rfl).symm
    · rintro m rfl
      rw [load_withFrames_succ, load_watched_succ]
      refine loadModule_congr _ _ fun source m' hm' => ?_
      exact (inWatchedFrame_eq (inside.evalModule hosts (bareName name) source) hdepth hm').symm

end Host

namespace Session

/-- **The limit on frames changes nothing but the fault it announces.** If a request does not end with
that fault, it does the same under every higher limit, to the value or the fault and to the whole
machine. And wherever the counter starts within the limit, a watch in every frame that sounds an alarm
if the counter is beyond it makes no difference, whatever the alarm does: it is never sounded. -/
theorem frame_limit_transparent (resolve : Resolver) {limit limit' : Nat}
    (hle : limit ≤ limit') (request : Request) (m : Machine) :
    (¬(request.perform ⟨limit, resolve⟩).Exhausted m →
      request.perform ⟨limit', resolve⟩ m = request.perform ⟨limit, resolve⟩ m) ∧
    (m.depth ≤ limit → ∀ alarm : (α : Type) → Eval α,
      request.on (Host.watched ⟨limit, resolve⟩ alarm (limit - m.depth)) m =
        request.perform ⟨limit, resolve⟩ m) := by
  rw [request.perform_eq_on, request.perform_eq_on]
  constructor
  · intro hended
    have hframes : limit - m.depth ≤ limit' - m.depth := Nat.sub_le_sub_right hle _
    have hosts := Host.hosts_raised resolve limit limit' hframes
    obtain hexhausted | hsame := SameUnlessExhausted.congruence.request hosts request m
    · rw [Eval.Exhausted, request.perform_eq_on] at hended
      exact absurd hexhausted hended
    · exact hsame
  · intro hdepth alarm
    have hframes : m.depth + (limit - m.depth) ≤ limit := by omega
    have hosts := Host.hosts_watched ⟨limit, resolve⟩ alarm hframes
    exact (((AgreeAt.congruence m.depth).request hosts request).agree m rfl).symm

/-- A module that takes two frames: one for itself, and one for a call while it is evaluated. -/
def callingModule : Resolver :=
  Library.resolve (Table.ofList [("lib", "a = (fx() \x7b return 7 \x7d)()")])

/-- Loads and calls share the frames: one is too few, with two the module is there, and a third makes no
difference. -/
theorem frame_limit_transparent_load :
    let start := Machine.start false
    let request := Request.load "lib"
    (request.perform ⟨1, callingModule⟩).Exhausted start ∧
      ¬(request.perform ⟨2, callingModule⟩).Exhausted start ∧
      request.perform ⟨3, callingModule⟩ start = request.perform ⟨2, callingModule⟩ start ∧
      ∀ alarm : (α : Type) → Eval α, request.on (Host.watched ⟨2, callingModule⟩ alarm 2) start =
        request.perform ⟨2, callingModule⟩ start := by
  intro start request
  have hended : ¬(request.perform ⟨2, callingModule⟩).Exhausted start := by decide +kernel
  obtain ⟨hsame, hwatched⟩ :=
    frame_limit_transparent callingModule (by decide : 2 ≤ 3) request start
  exact ⟨by decide +kernel, hended, hsame hended, hwatched (by decide)⟩

end Session

end ScriptLang
