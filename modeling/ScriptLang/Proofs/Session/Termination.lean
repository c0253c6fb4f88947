import ScriptLang.Proofs.Session.Rest

/-!
# Every request comes to an end

A function can call any function that it gets hold of, and a module can load any module that can be
found, so the recursion of calls and loads does not follow a tree. What bounds it is the counter of
the machine: each call and each evaluation of a module raises it by one, and none is begun when it
stands at the bound.

This is shown of the recursion as the counter alone controls it, with nothing that makes it well
founded. Unfolded once more than there are frames left, it gives the same result whatever is put in
the place of the recursion beyond.

## Main definitions

* `Host.around`: one layer of the recursion, around a host that does the calls and loads inside
* `Host.unfolded`: the recursion unfolded a number of times, with any host beyond
* `Host.counting`: the host that has the frames left that the counter leaves
* `AgreeAt`: two computations that do the same at a given state of the counter

## Main results

* `Host.around_counting`: this host solves the recursion
* `Host.hosts_unfolded`: what is beyond the frames left is never asked
* `Session.evaluation_terminates`: so every request is performed by finitely many layers
-/

namespace ScriptLang

/-- Run a computation one frame further in, if the counter stands below a bound. -/
def Eval.inFrameBelow {α : Type} (bound : Nat) (body refused : Eval α) : Eval α := fun m =>
  if m.depth < bound then inFrame body m else refused m

namespace Host

/-- One layer of the recursion of calls and loads. A host does those inside of it. -/
def around (setting : Setting) (host : Host) : Host where
  call callee args span :=
    Eval.inFrameBelow setting.maxFrames (applyValue host callee args span)
      (Eval.failAt (.tooManyFrames setting.maxFrames) span)
  load name := loadModule setting.resolve name fun source =>
    Eval.inFrameBelow setting.maxFrames (evalModule host (bareName name) source)
      (Eval.fail (.tooManyFrames setting.maxFrames))

/-- Some layers of the recursion, with a host beyond them. -/
def unfolded (setting : Setting) (beyond : Host) : Nat → Host
  | 0 => beyond
  | layers + 1 => around setting (unfolded setting beyond layers)

/-- The host that has the frames left that the counter leaves. -/
def counting (setting : Setting) : Host where
  call callee args span m :=
    (withFrames setting (setting.maxFrames - m.depth)).call callee args span m
  load name m := (withFrames setting (setting.maxFrames - m.depth)).load name m

end Host

/-- The first computation leaves the counter where it found it, and both do the same when it stands
at a given number. -/
structure AgreeAt (depth : Nat) (α : Type) (e e' : Eval α) : Prop where
  depth_eq (m : Machine) : (e.after m).depth = m.depth
  agree (m : Machine) : m.depth = depth → e m = e' m

/-- Steps that do not touch the counter keep two computations in agreement. -/
theorem AgreeAt.congruence (depth : Nat) : Congruence (AgreeAt depth) where
  pure _ := ⟨fun _ => rfl, fun _ _ => rfl⟩
  throw _ := ⟨fun _ => rfl, fun _ _ => rfl⟩
  bind {α β e e' k k'} he hk := by
    constructor
    · intro m
      have hfirst := he.depth_eq m
      rw [Eval.after_bind]
      cases hrun : e m with
      | ok a m' =>
        rw [Eval.after_of_ok hrun] at hfirst
        exact ((hk a).depth_eq m').trans hfirst
      | error d m' =>
        rw [Eval.after_of_error hrun] at hfirst
        exact hfirst
    · -- The first computation leaves the counter alone, so the second ones agree where it ends.
      intro m hm
      have hfirst := he.depth_eq m
      rw [Eval.bind_eq, Eval.bind_eq, ← he.agree m hm]
      cases hrun : e m with
      | ok a m' =>
        rw [Eval.after_of_ok hrun] at hfirst
        exact (hk a).agree m' (hfirst.trans hm)
      | error d m' => rfl
  withSpan span he := by
    constructor
    · intro m
      rw [Eval.after_mapDiagnostic]
      exact he.depth_eq m
    · intro m hm
      rw [Eval.mapDiagnostic, Eval.mapDiagnostic, he.agree m hm]
  inUnit unit he := by
    constructor
    · intro m
      rw [Eval.after_inUnit]
      exact he.depth_eq { m with unit := unit }
    · intro m hm
      have hinside := he.agree { m with unit := unit } hm
      rw [Eval.inUnit, Eval.inUnit, hinside]
  readStore _ := ⟨fun _ => rfl, fun _ _ => rfl⟩
  unitName := ⟨fun _ => rfl, fun _ _ => rfl⟩
  define _ _ _ := ⟨fun _ => rfl, fun _ _ => rfl⟩
  assign _ _ _ := ⟨fun _ => rfl, fun _ _ => rfl⟩
  newScope _ _ := ⟨fun _ => rfl, fun _ _ => rfl⟩
  newObject := ⟨fun _ => rfl, fun _ _ => rfl⟩
  print _ := ⟨fun _ => rfl, fun _ _ => rfl⟩

/-- What agrees one frame further in agrees, if the counter leaves a frame. -/
theorem inFrameBelow_eq {α : Type} {depth bound : Nat} {e e' refused : Eval α}
    (h : AgreeAt (depth + 1) α e e') (hdepth : depth < bound) {m : Machine} (hm : m.depth = depth) :
    Eval.inFrameBelow bound e' refused m = Eval.inFrame e m := by
  subst hm
  have hinside := h.agree { m with depth := m.depth + 1 } rfl
  rw [Eval.inFrameBelow, if_pos hdepth, Eval.inFrame, Eval.inFrame, hinside]

/-- Loads that evaluate modules in the same way go the same way. -/
theorem loadModule_congr (resolve : Resolver) (name : String)
    {evaluate evaluate' : SourceUnit → Eval Module} {m : Machine}
    (h : ∀ source m', m'.depth = m.depth → evaluate source m' = evaluate' source m') :
    loadModule resolve name evaluate m = loadModule resolve name evaluate' m := by
  rw [loadModule_eq, loadModule_eq]
  cases resolve name with
  | error d => rfl
  | ok found =>
    dsimp only
    cases m.registry.start? found.key (bareName name) with
    | error fault => rfl
    | ok start =>
      cases start with
      | cached ref => rfl
      | started registry =>
        rw [followStart_started, followStart_started, h _ (m.beginLoad found registry) rfl]

namespace Host

variable (setting : Setting)

theorem load_around (host : Host) (name : String) :
    (around setting host).load name = loadModule setting.resolve name fun source =>
      Eval.inFrameBelow setting.maxFrames (evalModule host (bareName name) source)
        (Eval.fail (.tooManyFrames setting.maxFrames)) := rfl

theorem load_withFrames_zero (name : String) :
    (withFrames setting 0).load name = loadModule setting.resolve name fun _ =>
      Eval.fail (.tooManyFrames setting.maxFrames) := rfl

theorem load_withFrames_succ (frames : Nat) (name : String) :
    (withFrames setting (frames + 1)).load name = loadModule setting.resolve name fun source =>
      Eval.inFrame (evalModule (withFrames setting frames) (bareName name) source) := rfl

/-- One layer around a host does what the frames left do, if inside of it, where there is one frame
less, the host does what those left do. -/
theorem hosts_around {depth : Nat} {host : Host}
    (hosts : depth < setting.maxFrames → Congruence.Hosts (AgreeAt (depth + 1))
      (withFrames setting (setting.maxFrames - (depth + 1))) host) :
    Congruence.Hosts (AgreeAt depth) (withFrames setting (setting.maxFrames - depth))
      (around setting host) := by
  have returns := Machine.returns_runClosed.hosts setting (setting.maxFrames - depth)
  have inside := AgreeAt.congruence (depth + 1)
  refine ⟨fun callee args span => ⟨fun m => (returns.call callee args span m).depth, ?_⟩,
    fun name => ⟨fun m => (returns.load name m).depth, ?_⟩⟩
  · rintro m rfl
    rcases Nat.lt_or_ge m.depth setting.maxFrames with hdepth | hdepth
    · -- The counter lets a frame in exactly when there is one left.
      have hframes : setting.maxFrames - m.depth = setting.maxFrames - (m.depth + 1) + 1 := by omega
      have happly := inside.applyValue (hosts hdepth) callee args span
      rw [hframes]
      exact (inFrameBelow_eq happly hdepth rfl).symm
    · rw [Nat.sub_eq_zero_of_le hdepth]
      exact (if_neg (Nat.not_lt.2 hdepth)).symm
  · rintro m rfl
    rcases Nat.lt_or_ge m.depth setting.maxFrames with hdepth | hdepth
    · have hframes : setting.maxFrames - m.depth = setting.maxFrames - (m.depth + 1) + 1 := by omega
      rw [hframes]
      rw [load_withFrames_succ, load_around]
      refine loadModule_congr _ _ fun source m' hm' => ?_
      have heval := inside.evalModule (hosts hdepth) (bareName name) source
      exact (inFrameBelow_eq heval hdepth hm').symm
    · rw [Nat.sub_eq_zero_of_le hdepth]
      rw [load_withFrames_zero, load_around]
      refine loadModule_congr _ _ fun source m' hm' => ?_
      rw [← hm'] at hdepth
      exact (if_neg (Nat.not_lt.2 hdepth)).symm

/-- What is beyond the frames left is never asked. -/
theorem hosts_unfolded (beyond : Host) (k depth : Nat) :
    Congruence.Hosts (AgreeAt depth) (withFrames setting (setting.maxFrames - depth))
      (unfolded setting beyond (setting.maxFrames - depth + k + 1)) := by
  generalize hframes : setting.maxFrames - depth = frames
  induction frames generalizing depth with
  | zero =>
    -- No frame is left, so nothing inside of the last layer is asked.
    rw [← hframes]
    refine hosts_around setting fun hdepth => ?_
    omega
  | succ frames ih =>
    -- Inside of a layer the counter is one further, so there is one frame less for one layer less.
    rw [← hframes]
    refine hosts_around setting fun _ => ?_
    have hless : setting.maxFrames - (depth + 1) = frames := by omega
    have hlayers : setting.maxFrames - depth + k = frames + k + 1 := by omega
    rw [hless, hlayers]
    exact ih (depth + 1) hless

/-- The host that counts has the frames left. -/
theorem hosts_counting (depth : Nat) :
    Congruence.Hosts (AgreeAt depth) (withFrames setting (setting.maxFrames - depth))
      (counting setting) := by
  have returns := Machine.returns_runClosed.hosts setting (setting.maxFrames - depth)
  refine ⟨fun callee args span => ⟨fun m => (returns.call callee args span m).depth, ?_⟩,
    fun name => ⟨fun m => (returns.load name m).depth, ?_⟩⟩
  · rintro m rfl
    rfl
  · rintro m rfl
    rfl

/-- The host that counts solves the recursion. -/
theorem around_counting : around setting (counting setting) = counting setting := by
  have hosts (depth : Nat) := hosts_around setting fun _ => hosts_counting setting (depth + 1)
  have hcall : (around setting (counting setting)).call = (counting setting).call := by
    funext callee args span m
    exact (((hosts m.depth).call callee args span).agree m rfl).symm
  have hload : (around setting (counting setting)).load = (counting setting).load := by
    funext name m
    exact (((hosts m.depth).load name).agree m rfl).symm
  exact congr (congrArg Host.mk hcall) hload

end Host

namespace Session

/-- **Every request comes to an end.** The recursion of calls and loads, bounded by nothing but the
counter of the machine, has a solution, and requests are performed with it. Their results are those
of finitely many layers of the recursion: one more than there are frames left, with any host beyond.
-/
theorem evaluation_terminates (setting : Setting) :
    ∃ host : Host, Host.around setting host = host ∧
      ∀ (request : Request) (m : Machine), request.perform setting m = request.on host m ∧
        ∀ (beyond : Host) (k : Nat),
          request.on (Host.unfolded setting beyond (setting.maxFrames - m.depth + k + 1)) m =
            request.perform setting m := by
  refine ⟨Host.counting setting, Host.around_counting setting, fun request m => ?_⟩
  have congruence := AgreeAt.congruence m.depth
  rw [request.perform_eq_on]
  refine ⟨?_, fun beyond k => ?_⟩
  · have hosts := Host.hosts_counting setting m.depth
    exact (congruence.request hosts request).agree m rfl
  · have hosts := Host.hosts_unfolded setting beyond k m.depth
    exact ((congruence.request hosts request).agree m rfl).symm

end Session

end ScriptLang
