import WindowSurvey.Proofs.Phase.Attended
/-!
# At most one worker

As long as callers wait for their commands to the end, the only worker there can be is that of the
controller's generation: tasks of passed generations are stopped, so nothing is asked of the remote for
work that was given up.

This rests on where tasks run. On one thread a task has no turn before it has reported. On several threads it may
have turns sooner: when its generation passes between its beginning and its report, nobody has it in hand yet who
could stop it, and it asks until it reports. There is no other exception, but this one does occur.

## Main definitions

* `System.CanProgress` — a task that may still have a turn
* `System.Supervised`, `System.Stray` — the worker, and the exception
* `System.Orderly`, `System.AsksSince` — the workers of a state are in order, and what they may ask
* `System.KeepsOrder` — the workers of a run are in order

## Main statements

* `System.workers_supervised` — a run is in order if and only if it leaves no stray, so it always is on one thread
* `System.interrupted_start_asks` — a run on several threads that is not
-/

namespace WindowSurvey.System

variable {σ : Type} {r : Remote σ} {settings : CyclingSettings} {s m : System σ} {f : Flow}

/-- A task may still make progress: while callers go on waiting, something can be done after which it is
live and has a turn. -/
def CanProgress (r : Remote σ) (settings : CyclingSettings) (s : System σ) (task : TaskId) : Prop :=
  task < s.tasks.length ∧ ∃ events : List Event, (∀ e ∈ events, e.isPatient = true) ∧
    ∃ t, (s.run r settings events).tasks[task]? = some t ∧ t.isLive = true ∧
      ((s.run r settings events).eager = true ∨ (s.run r settings events).hasReported task = true)

/-- A live task of the controller's generation, which is in flight once it has reported. -/
def Supervised (s : System σ) (task : TaskId) : Prop :=
  ∃ t, s.tasks[task]? = some t ∧ t.isLive = true ∧ t.generation = s.controller.generation ∧
    (s.hasReported task = true → s.controller.inFlight = some task)

/-- A live task that may run before it has reported, and whose generation passed before it could report. -/
def Stray (s : System σ) (task : TaskId) : Prop :=
  s.eager = true ∧ (∃ t, s.tasks[task]? = some t ∧ t.isLive = true) ∧
    ∃ id g j, s.Pending id g j (.spawned task) ∧ g < s.controller.generation

/-- The workers of a state are in order. Every task that may still make progress is supervised, and there is one at
most. Something is going on exactly while there is one, or a command is about to begin one, or an outcome has not been
taken notice of yet. Then there is a call that ends it when its task has ended, and the task is still to be begun, or
may make progress, or is at its end. -/
structure Orderly (r : Remote σ) (settings : CyclingSettings) (s : System σ) : Prop where
  supervised : ∀ task, s.CanProgress r settings task → s.Supervised task
  alone : ∀ task task', s.CanProgress r settings task → s.CanProgress r settings task' → task = task'
  processing_iff : s.controller.snapshot.processing = true ↔
    (∃ task, s.CanProgress r settings task) ∨
    (∃ id j, s.Pending id s.controller.generation j .accepted) ∨
    ∃ id j stage task t o, s.Pending id s.controller.generation j stage ∧
      stage.task? = some task ∧ s.tasks[task]? = some t ∧ t.end? = some o
  cleared : s.controller.snapshot.processing = true →
    ∃ id j stage, s.Pending id s.controller.generation j stage ∧
      (∀ task, stage.task? = some task → s.CanProgress r settings task ∨
        ∃ t o, s.tasks[task]? = some t ∧ t.end? = some o) ∧
      ((s.ended? id).isSome → (s.apply r settings (.deliver id)).controller.snapshot.processing = false)

/-- Whatever is asked of the remote next is asked for a call with this number or a later one. -/
def AsksSince (r : Remote σ) (settings : CyclingSettings) (s : System (Logged σ)) (first : CallId) : Prop :=
  ∀ e, (s.apply r.logged settings e).remote.requests ≠ s.remote.requests →
    ∃ id g j stage task horizon, e = .work task horizon ∧ s.Pending id g j stage ∧
      stage.task? = some task ∧ first ≤ id

/-- The workers of a run are in order in the end, and once somebody has left the flow or started it anew, nothing is
asked of the remote for calls from before that. -/
structure KeepsOrder (r : Remote σ) (settings : CyclingSettings) (start : System (Logged σ)) (events : List Event) :
    Prop where
  orderly : (start.run r.logged settings events).Orderly r.logged settings
  asks : ∀ before command after, events = before ++ .issue command :: after → command.supersedes = true →
    (start.run r.logged settings events).AsksSince r settings (start.run r.logged settings before).calls.length

namespace Attended

/-- A live task has reported and is in flight, or it has not reported yet. -/
theorem live_cases (hc : Coherent s f) (h : s.Attended) {task : TaskId} {t : Task}
    (ht : s.tasks[task]? = some t) (hl : t.isLive = true) :
    (∃ id j, s.Pending id t.generation j (.waiting task) ∧
      t.generation = s.controller.generation ∧ s.controller.inFlight = some task) ∨
    ∃ id j, s.Pending id t.generation j (.spawned task) := by
  obtain ⟨id, j, stage, hp, hs⟩ := h.tended ht hl
  cases stage with
  | accepted => cases hs
  | spawned task' =>
    cases hs
    exact .inr ⟨id, j, hp⟩
  | waiting task' =>
    cases hs
    have hg := h.current hp ht hl
    exact .inl ⟨id, j, hp, hg, (hc.tracked.waiting hp hg).1⟩

/-- A live task of the controller's generation is supervised. -/
theorem supervised_of_live (hc : Coherent s f) (h : s.Attended) {task : TaskId} {t : Task}
    (ht : s.tasks[task]? = some t) (hl : t.isLive = true)
    (hg : t.generation = s.controller.generation) : s.Supervised task := by
  refine ⟨t, ht, hl, hg, fun hr => ?_⟩
  rcases h.live_cases hc ht hl with ⟨_, _, -, -, hf⟩ | ⟨id, j, hp⟩
  · exact hf
  · rw [hasReported_eq_false.2 ⟨id, _, j, hp⟩] at hr
    cases hr

/-- A task that may still make progress is supervised, or it is a stray. -/
theorem supervised_of_canProgress (hc : Coherent s f) (h : s.Attended) {task : TaskId}
    (hp : s.CanProgress r settings task) : s.Supervised task ∨ s.Stray task := by
  obtain ⟨hlt, events, hpatient, u, hu, hul, hturn⟩ := hp
  have ht : s.tasks[task]? = some s.tasks[task] := List.getElem?_eq_getElem hlt
  have hlater : Later s (s.run r settings events) := later_run s events
  obtain ⟨u', hu', hgu, -⟩ := hlater.task ht
  cases hu.symm.trans hu'
  have hl := hlater.live ht hu hul
  by_cases hg : s.tasks[task].generation = s.controller.generation
  · exact .inl (h.supervised_of_live hc ht hl hg)
  · rcases h.live_cases hc ht hl with ⟨_, _, -, hg', -⟩ | ⟨id, j, hp⟩
    · exact absurd hg' hg
    · -- a passed generation does not come back, so the task cannot wait for its report any more
      have hpassed := Nat.lt_of_le_of_ne (hc.matched.generation_le hp) hg
      refine .inr ⟨?_, ⟨_, ht, hl⟩, id, _, j, hp, hpassed⟩
      rcases hturn with he | hr
      · exact hlater.eager.symm.trans he
      · rcases (h.run hc hpatient).live_cases (hc.run r settings events) hu hul with
          ⟨_, _, -, hg', -⟩ | ⟨id', j', hp'⟩
        · rw [hgu] at hg'
          exact absurd hlater.generation_le (Nat.not_le_of_lt (hg' ▸ hpassed))
        · rw [hasReported_eq_false.2 ⟨id', _, j', hp'⟩] at hr
          cases hr

/-- A supervised task may make progress, at the latest when it has reported. -/
theorem canProgress_of_supervised (hc : Coherent s f) (h : s.Attended) {task : TaskId} (hs : s.Supervised task) :
    s.CanProgress r settings task := by
  obtain ⟨t, ht, hl, hg, -⟩ := hs
  have hlt : task < s.tasks.length := (List.getElem?_eq_some_iff.1 ht).1
  rcases h.live_cases hc ht hl with ⟨id, j, hp, -, -⟩ | ⟨id, j, hp⟩
  · exact ⟨hlt, [], List.forall_mem_nil _, t, ht, hl, .inr (hasReported_of_waiting hc.matched hp)⟩
  · have hcall : s.calls[id]? = some (.pending t.generation j (.spawned task)) := hp
    have htrack : s.apply r settings (.track id) = (s.adopt
        { after := { s.controller with inFlight := some task } }).setCall id
          (.pending t.generation j (.waiting task)) := by
      simp only [System.apply, hcall, Controller.track_of_eq hg.symm]
    have hwaiting : (s.apply r settings (.track id)).Pending id t.generation j (.waiting task) := by
      rw [htrack]
      exact getElem?_setCall_self hcall _
    refine ⟨hlt, [.track id], by simp [Event.isPatient], t, ?_, hl,
      .inr (hasReported_of_waiting (hc.apply (.track id)).matched hwaiting)⟩
    rw [run_cons, htrack]
    exact ht

/-- Two live tasks of the controller's generation have the same call. -/
theorem supervised_unique (hc : Coherent s f) (h : s.Attended) {task task' : TaskId}
    (hs : s.Supervised task) (hs' : s.Supervised task') : task = task' := by
  obtain ⟨t, ht, hl, hg, -⟩ := hs
  obtain ⟨t', ht', hl', hg', -⟩ := hs'
  obtain ⟨id, j, stage, hp, hst⟩ := h.tended ht hl
  obtain ⟨id', j', stage', hp', hst'⟩ := h.tended ht' hl'
  rw [hg] at hp
  rw [hg'] at hp'
  cases hc.matched.alone hp hp'
  obtain ⟨-, -, rfl⟩ := hp.unique hp'
  cases hst.symm.trans hst'
  rfl

/-- The task that a call of the controller's generation has begun is at work or has ended by itself. -/
theorem task_of_pending (hc : Coherent s f) (h : s.Attended) {id : CallId} {j : Job}
    {stage : CallStage} (hp : s.Pending id s.controller.generation j stage) {task : TaskId}
    (hs : stage.task? = some task) : s.Supervised task ∨
      ∃ t o, s.tasks[task]? = some t ∧ t.end? = some o := by
  obtain ⟨t, ht, hg, -⟩ := hc.matched.begun hp hs
  have hn : t.isStopped = false := by
    cases stage with
    | accepted => cases hs
    | spawned task' =>
      cases hs
      exact (hc.tracked.spawned hp).2 t ht
    | waiting task' =>
      cases hs
      exact (hc.tracked.waiting hp rfl).2 t ht
  cases hl : t.isLive with
  | true => exact .inl (h.supervised_of_live hc ht hl hg)
  | false =>
    obtain ⟨time, o, he⟩ := Task.exists_end hl hn
    exact .inr ⟨t, _, ht, he⟩

/-- Something is going on as long as a call of the controller's generation waits: its task is still to be
begun, or at work, or at an end of which the call has not taken notice yet. -/
theorem processing_iff (hc : Coherent s f) (h : s.Attended) :
    s.controller.snapshot.processing = true ↔
      (∃ task, s.Supervised task) ∨
      (∃ id j, s.Pending id s.controller.generation j .accepted) ∨
      ∃ id j stage task t o, s.Pending id s.controller.generation j stage ∧
        stage.task? = some task ∧ s.tasks[task]? = some t ∧ t.end? = some o := by
  constructor
  · intro hb
    obtain ⟨id, j, stage, hp⟩ := h.processing hb
    cases hs : stage.task? with
    | none =>
      cases stage with
      | accepted => exact .inr (.inl ⟨id, j, hp⟩)
      | spawned task => cases hs
      | waiting task => cases hs
    | some task =>
      rcases h.task_of_pending hc hp hs with hw | ⟨t, o, ht, ho⟩
      · exact .inl ⟨task, hw⟩
      · exact .inr (.inr ⟨id, j, stage, task, t, o, hp, hs, ht, ho⟩)
  · rintro (⟨task, t, ht, hl, hg, -⟩ | ⟨id, j, hp⟩ | ⟨id, j, stage, task, t, o, hp, -⟩)
    · obtain ⟨id, j, stage, hp, -⟩ := h.tended ht hl
      exact hc.processing_of_pending (hg ▸ hp)
    · exact hc.processing_of_pending hp
    · exact hc.processing_of_pending hp

end Attended

/-- Taking notice of an outcome that is wanted ends what was going on. -/
theorem Coherent.quiet_of_deliver (h : Coherent s f) {id : CallId} {j : Job} {stage : CallStage}
    (hp : s.Pending id s.controller.generation j stage) (he : (s.ended? id).isSome) :
    (s.apply r settings (.deliver id)).controller.snapshot.processing = false := by
  obtain ⟨o, ho⟩ := Option.isSome_iff_exists.1 he
  have hx := h.applies_of_ended hp ho
  have ha : Coherent (s.apply r settings (.deliver id)) (f.after (s.stimulus (.deliver id))) :=
    h.apply _
  rw [← ha.follows.snapshot]
  exact ha.sound.idle (Flow.awaited_of_applies hx)

namespace Stray

variable {task : TaskId}

/-- A stray has a turn at once. -/
theorem canProgress (h : s.Stray task) : s.CanProgress r settings task := by
  obtain ⟨heager, ⟨t, ht, hl⟩, -⟩ := h
  exact ⟨(List.getElem?_eq_some_iff.1 ht).1, [], List.forall_mem_nil _, t, ht, hl, .inl heager⟩

theorem not_supervised (hm : s.Matched) (h : s.Stray task) : ¬ s.Supervised task := by
  rintro ⟨t, ht, -, hg, -⟩
  obtain ⟨-, -, id, g, j, hp, hlt⟩ := h
  obtain ⟨t', ht', rfl, -⟩ := hm.begun hp rfl
  cases ht.symm.trans ht'
  exact absurd hg (Nat.ne_of_lt hlt)

/-- A stray stops when it reports. -/
theorem not_live_of_track (hm : s.Matched) (h : s.Stray task) :
    ∃ id t, (s.apply r settings (.track id)).tasks[task]? = some t ∧ t.isLive = false := by
  obtain ⟨-, -, id, g, j, hp, hlt⟩ := h
  obtain ⟨t, ht, -⟩ := hm.begun hp rfl
  refine ⟨id, t.stop, ?_, t.stop_isLive⟩
  have hcall : s.calls[id]? = some (.pending g j (.spawned task)) := hp
  simp only [apply, hcall, Controller.track_of_ne (Nat.ne_of_gt hlt)]
  refine (getElem?_tasks_stop s (some task) task).trans ?_
  rw [if_pos rfl, ht, Option.map_some]

end Stray

/-- Without strays the workers are in order. -/
theorem Attended.orderly (hc : Coherent s f) (h : s.Attended) (hstray : ∀ task, ¬ s.Stray task) :
    s.Orderly r settings := by
  have hsupervised (task : TaskId) (hp : s.CanProgress r settings task) : s.Supervised task :=
    (h.supervised_of_canProgress hc hp).resolve_right (hstray task)
  have hiff (task : TaskId) : s.Supervised task ↔ s.CanProgress r settings task :=
    ⟨h.canProgress_of_supervised hc, hsupervised task⟩
  refine ⟨hsupervised, fun task task' hp hp' =>
    h.supervised_unique hc (hsupervised task hp) (hsupervised task' hp'), ?_, fun hb => ?_⟩
  · simp only [h.processing_iff hc, hiff]
  · obtain ⟨id, j, stage, hp⟩ := h.processing hb
    refine ⟨id, j, stage, hp, fun task hs => ?_, hc.quiet_of_deliver hp⟩
    exact (h.task_of_pending hc hp hs).imp_left (h.canProgress_of_supervised hc)

/-- Only a live task that has a turn asks anything of the remote. -/
theorem Step.asks {e : Event} (hs : Step r settings e s m) (hne : m.remote ≠ s.remote) :
    ∃ task horizon t, e = .work task horizon ∧ s.tasks[task]? = some t ∧ t.isLive = true ∧
      (s.eager = true ∨ s.hasReported task = true) := by
  cases hs with
  | accept ho => exact absurd (remote_accept s _ _) hne
  | perform ho => exact absurd (remote_perform s _) hne
  | refuse ho => exact absurd remote_refuse hne
  | spawn hp => exact absurd rfl hne
  | track hp => exact absurd (remote_adopt s _) hne
  | @work _ id horizon task ht hturn =>
    refine ⟨id, horizon, task, rfl, ht, ?_, hturn⟩
    cases hl : task.isLive with
    | true => rfl
    | false =>
      rw [Task.work_of_not_live r settings horizon hl s.remote] at hne
      exact absurd rfl hne
  | conclude hp ht ho => exact absurd rfl hne
  | dismiss hp => exact absurd rfl hne
  | abandon hp => exact absurd rfl hne
  | aside observers next clock held => exact absurd rfl hne

theorem remote_reap (s : System σ) : s.reap.remote = s.remote := by
  rcases reap_cases s with h | ⟨-, h⟩
  · rw [h]
  · rw [h, remote_adopt]

theorem asks_of_apply {e : Event} (hne : (s.apply r settings e).remote ≠ s.remote) :
    ∃ task horizon t, e = .work task horizon ∧ s.tasks[task]? = some t ∧ t.isLive = true ∧
      (s.eager = true ∨ s.hasReported task = true) := by
  obtain ⟨m, hs, hm | hm⟩ := apply_step r settings s e
  · rw [hm] at hne
    exact hs.asks hne
  · rw [hm, remote_reap] at hne
    exact hs.asks hne

/-- Without strays nothing is asked for calls of passed generations. -/
theorem Attended.asks_since {s : System (Logged σ)} {r : Remote σ} (hc : Coherent s f) (h : s.Attended)
    (hstray : ∀ task, ¬ s.Stray task) {first : CallId} (hstale : ∀ id < first, s.Stale id) :
    s.AsksSince r settings first := by
  intro e hne
  have hremote : (s.apply r.logged settings e).remote ≠ s.remote := fun e => hne (by rw [e])
  obtain ⟨task, horizon, t, rfl, ht, hl, hturn⟩ := asks_of_apply hremote
  have hlt : task < s.tasks.length := (List.getElem?_eq_some_iff.1 ht).1
  have hcan : s.CanProgress r.logged settings task := ⟨hlt, [], List.forall_mem_nil _, t, ht, hl, hturn⟩
  obtain ⟨t', ht', -, hg, -⟩ := (h.supervised_of_canProgress hc hcan).resolve_right (hstray task)
  cases ht.symm.trans ht'
  obtain ⟨id, j, stage, hp, hs⟩ := h.tended ht hl
  refine ⟨id, _, j, stage, task, horizon, rfl, hp, hs, Nat.le_of_not_lt fun hid => ?_⟩
  exact absurd hg (Nat.ne_of_lt ((hstale id hid).passed hp))

/-- Workers, as long as callers wait for their commands to the end. A run keeps them in order if and only if it leaves
no stray. On one thread there are no strays, so every run does. A stray stops when it reports. -/
theorem workers_supervised {σ : Type} (r : Remote σ) (settings : CyclingSettings) (remote : σ)
    (eager : Bool) (events : List Event) (he : ∀ e ∈ events, e.isPatient = true) :
    let start : System (Logged σ) := { remote := ⟨remote, []⟩, eager }
    let s := start.run r.logged settings events
    (start.KeepsOrder r settings events ↔ ∀ task, ¬ s.Stray task) ∧
    (eager = false → start.KeepsOrder r settings events) ∧
    (∀ task, s.Stray task →
      ∃ id t, (s.apply r.logged settings (.track id)).tasks[task]? = some t ∧ t.isLive = false) := by
  intro start s
  have hstart : Coherent start {} := Coherent.init _ eager
  have hc := hstart.run r.logged settings events
  have h : s.Attended := Attended.run hstart (Attended.init _ eager) he
  have hkeeps (hstray : ∀ task, ¬ s.Stray task) : start.KeepsOrder r settings events := by
    refine ⟨h.orderly hc hstray, fun before command after hevents hsup => h.asks_since hc hstray fun id hid => ?_⟩
    have hb := (hstart.run r.logged settings before).matched
    have hlast := hb.stale_of_run r.logged settings hid hsup after
    rw [← run_append, ← hevents] at hlast
    exact hlast
  refine ⟨⟨fun hk task hstray => ?_, hkeeps⟩, fun hone => hkeeps fun task hstray => ?_,
    fun task hstray => hstray.not_live_of_track hc.matched⟩
  · exact hstray.not_supervised hc.matched (hk.orderly.supervised task hstray.canProgress)
  · have heager : s.eager = eager := (later_run start events).eager
    rw [hone, hstray.1] at heager
    cases heager

/-- Partners who never answer. -/
def mute : Remote Unit := ⟨fun s => (.never, s), fun s => (.never, s), fun _ _ s => (.ok [], s)⟩

/-- A restart comes between the beginning of a detection run and its report: on one thread, nothing that may
be done afterwards lets that run ask anything. -/
theorem not_canProgress_of_interrupted_start :
    let start : System (Logged Unit) := { remote := ⟨(), []⟩ }
    let events : List Event := [.issue .start, .spawn 0, .issue .restart]
    (∀ e ∈ events, e.isPatient = true) ∧ ¬ CanProgress mute.logged {} (start.run mute.logged {} events) 0 := by
  intro start events
  have hpatient : ∀ e ∈ events, e.isPatient = true := by decide
  refine ⟨hpatient, fun hp => ?_⟩
  have hkeeps := (workers_supervised mute {} () false events hpatient).2.1 rfl
  obtain ⟨t, ht, -, hg, -⟩ := hkeeps.orderly.supervised 0 hp
  cases ht
  cases hg

/-- On several threads the run asks: somebody leaves the flow between the beginning of a detection run and its report,
and a frame is captured for that run afterwards. -/
theorem interrupted_start_asks :
    let start : System (Logged Unit) := { remote := ⟨(), []⟩, eager := true }
    let before : List Event := [.issue .start, .spawn 0]
    let s := start.run mute.logged {} (before ++ [.issue .exit])
    (∀ e ∈ before ++ [.issue .exit], e.isPatient = true) ∧
    s.controller.snapshot = {} ∧ s.CanProgress mute.logged {} 0 ∧ ¬ s.Supervised 0 ∧
    s.remote.requests = [] ∧ (s.apply mute.logged {} (.work 0 none)).remote.requests = [.capture] ∧
    ¬ s.AsksSince mute {} (start.run mute.logged {} before).calls.length ∧
    ¬ start.KeepsOrder mute {} (before ++ [.issue .exit]) := by
  intro start before s
  have hpatient : ∀ e ∈ before ++ [.issue .exit], e.isPatient = true := by decide
  have hstray : s.Stray 0 := ⟨rfl, ⟨_, rfl, rfl⟩, 0, 1, .detection, rfl, by decide⟩
  have hmatched : s.Matched := ((Coherent.init _ true).run mute.logged {} _).matched
  have hnot := hstray.not_supervised hmatched
  have hasks : ¬ s.AsksSince mute {} (start.run mute.logged {} before).calls.length := by
    intro h
    -- the only call there is was made before
    obtain ⟨id, g, j, stage, task, horizon, -, hp, -, hle⟩ := h (.work 0 none) (List.cons_ne_nil _ _)
    exact Nat.not_le_of_lt (List.getElem?_eq_some_iff.1 hp).1 hle
  exact ⟨hpatient, rfl, hstray.canProgress, hnot, rfl, rfl, hasks,
    fun hk => hnot (hk.orderly.supervised 0 hstray.canProgress)⟩

end WindowSurvey.System
