import WindowSurvey.Proofs.Phase.Attended
/-!
# Tours of the windows

A tour starts detection once, selects regions, and switches to some of them one after the other, in a
run in which no command is refused and no caller gives up. Whatever happens between the commands, the tasks
of a tour are those that its commands ask for, in their order; none is ever stopped; and when the user may
switch between windows, the detection run has come to a result.

## Main definitions

* `Command.job?` — what a command of a tour asks for
* `System.Touring` — the invariant, for the commands given so far
-/

namespace WindowSurvey

/-- What a command asks for when these regions are selected. -/
def Command.job? (regions : List Region) : Command → Option Job
  | start => some .detection
  | restart => some .detection
  | navigate index => regions[index]?.map fun region => .navigation index region.cycle
  | select _ => none
  | exit => none

/-- The command that is given. -/
def Event.command? : Event → Option Command
  | issue command => some command
  | _ => none

/-- An event may come next in a tour: if it is a command, it is a start at the very beginning, the selection,
or a switch to a window. -/
def Event.Tours (regions : List Region) (commands : List Command) (e : Event) : Prop :=
  ∀ command, e = .issue command →
    (command = .start ∧ commands = []) ∨ command = .select regions ∨ ∃ index, command = .navigate index

/-- Nobody leaves a tour or starts it anew. -/
theorem Event.Tours.supersedes {regions : List Region} {commands : List Command} {e : Event}
    (h : e.Tours regions commands) : e.supersedes = false := by
  cases e with
  | issue command =>
    rcases h command rfl with ⟨rfl, -⟩ | rfl | ⟨_, rfl⟩ <;> rfl
  | _ => rfl

namespace System

variable {σ : Type} {r : Remote σ} {settings : CyclingSettings} {s m : System σ} {f : Flow}
  {regions : List Region} {commands : List Command}

/-- No command was refused, and no caller gave up waiting. -/
def Smooth (s : System σ) : Prop := ∀ c ∈ s.calls, c ≠ .refused ∧ c ≠ .abandoned

/-- The first task has come to a result of a detection run. -/
def Found (s : System σ) : Prop :=
  ∃ t time regions, s.tasks[0]? = some t ∧ t.end? = some (time, .detected (.ok regions))

/-- The jobs of the tasks are those planned, the last of which may still be about to begin. -/
def Planned (plan : List Job) (s : System σ) : Prop :=
  (s.tasks.map Task.job = plan ∧ ∀ id g j, ¬ s.Pending id g j .accepted) ∨
  ∃ id g j, s.Pending id g j .accepted ∧ s.tasks.map Task.job ++ [j] = plan

/-- The state of a tour. Every call that waits has the controller's generation, every task is waited for or
has ended by itself, and the tasks are those that the commands ask for; only the first is a detection run.
The user switches between the regions of the tour, after a detection run with a result. -/
structure Touring (regions : List Region) (commands : List Command) (s : System σ) : Prop where
  current : ∀ {id : CallId} {g : Nat} {j : Job} {stage : CallStage}, s.Pending id g j stage →
    g = s.controller.generation
  settled : ∀ {task : TaskId} {t : Task}, s.tasks[task]? = some t →
    (∃ id g j stage, s.Pending id g j stage ∧ stage.task? = some task) ∨
      ∃ time o, t.end? = some (time, o)
  planned : s.Planned (commands.filterMap (Command.job? regions))
  first : ∀ {k : Nat}, (commands.filterMap (Command.job? regions))[k]? = some .detection → k = 0
  shown : s.controller.snapshot.phase = .navigating → s.controller.snapshot.selected = regions
  found : s.controller.snapshot.phase = .selecting ∨ s.controller.snapshot.phase = .navigating →
    s.Found
  reached : ∀ {index : Nat}, .navigate index ∈ commands → s.Found ∧ index < regions.length

/-! ## What one step keeps -/

/-- Nothing is going on when a command is accepted that gives up no work. -/
theorem quiet_of_begins (hc : Coherent s f) {command : Command} {t : Transition} {j : Job}
    (ho : s.controller.obey? command = some (t, some j)) (hr : command.supersedes = false) :
    s.controller.snapshot.processing = false := by
  rcases Controller.obey?_begins ho with ⟨-, -, ⟨rfl, hp⟩ | rfl⟩ | ⟨_, _, -, -, hq, -⟩
  · rw [← hc.follows.snapshot] at hp ⊢
    exact hc.sound.snapshot.not_processing_of_normal hp
  · cases hr
  · exact hq

/-- Refusals and callers that gave up are not forgotten. -/
theorem Smooth.of_later (h : m.Smooth) (hm : Later s m) : s.Smooth := by
  intro c hc
  obtain ⟨id, hid⟩ := List.getElem?_of_mem hc
  constructor
  · rintro rfl
    exact (h _ (List.mem_of_getElem? (hm.settled hid rfl))).1 rfl
  · rintro rfl
    exact (h _ (List.mem_of_getElem? (hm.settled hid rfl))).2 rfl

/-- A result that was found stays. -/
theorem Found.of_later (h : s.Found) (hm : Later s m) : m.Found := by
  obtain ⟨t, time, found, ht, he⟩ := h
  obtain ⟨t', ht', -, -, hrest⟩ := hm.task ht
  cases hrest (Task.isLive_of_end he)
  exact ⟨t, time, found, ht', he⟩

theorem Planned.of_same {plan : List Job} (h : s.Planned plan)
    (hjobs : m.tasks.map Task.job = s.tasks.map Task.job)
    (hp : ∀ id g j, m.Pending id g j .accepted ↔ s.Pending id g j .accepted) : m.Planned plan := by
  rcases h with ⟨rfl, hn⟩ | ⟨id, g, j, hid, rfl⟩
  · exact .inl ⟨hjobs, fun id g j h => hn id g j ((hp id g j).1 h)⟩
  · exact .inr ⟨id, g, j, (hp id g j).2 hid, by rw [hjobs]⟩

/-- Calls that have begun their tasks do not matter for those that have not. -/
theorem accepted_setCall {k : CallId} {g : Nat} {j : Job} {task : TaskId} {stage : CallStage}
    (hk : s.Pending k g j stage) (hs : stage.task? = some task) {c : Call}
    (hc : ∀ g' j', c ≠ .pending g' j' .accepted) {id : CallId} {g' : Nat} {j' : Job} :
    (s.setCall k c).Pending id g' j' .accepted ↔ s.Pending id g' j' .accepted := by
  rw [pending_setCall hk]
  constructor
  · rintro (⟨-, h⟩ | ⟨-, h⟩)
    · exact h
    · exact absurd h (hc g' j')
  · intro h
    refine .inl ⟨?_, h⟩
    rintro rfl
    obtain ⟨-, -, rfl⟩ := hk.unique h
    cases hs

namespace Touring

theorem init (regions : List Region) (remote : σ) (eager : Bool) :
    Touring regions [] { remote, eager } where
  current h := by cases h
  settled h := by cases h
  planned := .inl ⟨rfl, fun _ _ _ h => by cases h⟩
  first h := by cases h
  shown h := by cases h
  found h := by rcases h with h | h <;> cases h
  reached h := by cases h

theorem not_pending (hc : Coherent s f) (h : Touring regions commands s)
    (hq : s.controller.snapshot.processing = false) {id : CallId} {g : Nat} {j : Job}
    {stage : CallStage} (hp : s.Pending id g j stage) : False := by
  cases h.current hp
  rw [hc.processing_of_pending hp] at hq
  cases hq

/-- While no call waits, all tasks have ended. -/
theorem rest_of_not_pending (h : Touring regions commands s)
    (hn : ∀ {id : CallId} {g : Nat} {j : Job} {stage : CallStage}, ¬ s.Pending id g j stage)
    {task : TaskId} {t : Task} (ht : s.tasks[task]? = some t) : t.isLive = false := by
  rcases h.settled ht with ⟨_, _, _, _, hp, -⟩ | ⟨time, o, he⟩
  · exact absurd hp hn
  · exact Task.isLive_of_end he

theorem current_step (hc : Coherent s f) (h : Touring regions commands s) {e : Event}
    (he : e.supersedes = false) (hs : Step r settings e s m) {id : CallId} {g : Nat} {j : Job}
    {stage : CallStage} (hp : m.Pending id g j stage) : g = m.controller.generation := by
  cases hs with
  | @accept _ command t j' ho =>
    rw [controller_accept]
    rcases pending_accept.1 hp with hq | ⟨-, hg, -⟩
    · exact (h.not_pending hc (quiet_of_begins hc ho he) hq).elim
    · exact hg
  | perform ho =>
    rw [controller_perform]
    rcases Controller.obey?_ends ho with ⟨rfl, -⟩ | ⟨_, -, -, rfl⟩
    · cases he
    · exact h.current (pending_perform.1 hp)
  | refuse ho =>
    rw [controller_refuse]
    exact h.current (pending_refuse.1 hp)
  | spawn hk =>
    rcases (pending_setCall hk).1 hp with ⟨-, hq⟩ | ⟨-, e⟩
    · exact h.current hq
    · cases e
      exact h.current hk
  | track hk =>
    rw [controller_setCall, controller_adopt, Controller.generation_track]
    rcases (pending_setCall (pending_adopt.2 hk)).1 hp with ⟨-, hq⟩ | ⟨-, e⟩
    · exact h.current (pending_adopt.1 hq)
    · cases e
      exact h.current hk
  | work ht => exact h.current hp
  | conclude hk =>
    exact h.current (pending_perform.1 (pending_of_settled (pending_perform.2 hk) rfl hp).2)
  | dismiss hk => exact h.current (pending_of_settled hk rfl hp).2
  | abandon hk => exact h.current (pending_of_settled hk rfl hp).2
  | aside observers next clock held => exact h.current hp

theorem settled_step (hc : Coherent s f) (h : Touring regions commands s) {e : Event}
    (hs : Step r settings e s m) (hm : m.Smooth) {task : TaskId} {t : Task}
    (ht : m.tasks[task]? = some t) :
    (∃ id g j stage, m.Pending id g j stage ∧ stage.task? = some task) ∨
      ∃ time o, t.end? = some (time, o) := by
  by_cases hlt : task < s.tasks.length
  · have hold : s.tasks[task]? = some s.tasks[task] := List.getElem?_eq_getElem hlt
    obtain ⟨t', ht', -, -, hrest⟩ := hs.later.task hold
    cases ht.symm.trans ht'
    rcases h.settled hold with ⟨id, g, j, stage, hp, hst⟩ | ⟨time, o, he⟩
    · rcases hs.call hp with ⟨stage', hq, hk⟩ | ⟨-, -, task', u, rfl, hu, hul⟩ | ⟨-, hab⟩
      · exact .inl ⟨id, g, j, stage', hq, hk task hst⟩
      · cases hst
        cases hu.symm.trans hold
        cases h.current hp
        rw [hrest hul]
        exact .inr (hc.exists_end hp hold hul)
      · exact absurd rfl (hm _ (List.mem_of_getElem? hab)).2
    · rw [hrest (Task.isLive_of_end he)]
      exact .inr ⟨time, o, he⟩
  · obtain ⟨id, j, hp⟩ := hs.task_new ht (Nat.le_of_not_lt hlt)
    exact .inl ⟨id, _, j, _, hp, rfl⟩

/-- A command that is accepted asks for the job that is then begun. -/
theorem job_eq_of_begins (h : Touring regions commands s) {command : Command} {t : Transition} {j : Job}
    (ho : s.controller.obey? command = some (t, some j)) : command.job? regions = some j := by
  rcases Controller.obey?_begins ho with ⟨-, rfl, ⟨rfl, -⟩ | rfl⟩ |
    ⟨index, region, rfl, hphase, -, hregion, rfl, -⟩
  · rfl
  · rfl
  · rw [h.shown hphase] at hregion
    rw [Command.job?, hregion, Option.map_some]

theorem planned_accept (hc : Coherent s f) (h : Touring regions commands s) {command : Command}
    {t : Transition} {j : Job} (ho : s.controller.obey? command = some (t, some j))
    (he : command.supersedes = false) :
    (s.accept t j).Planned ((commands ++ [command]).filterMap (Command.job? regions)) := by
  rcases h.planned with ⟨hplan, -⟩ | ⟨_, _, _, hp, -⟩
  · refine .inr ⟨s.calls.length, t.after.generation, j, pending_accept.2 (.inr ⟨rfl, rfl, rfl, rfl⟩), ?_⟩
    rw [tasks_accept, map_job_stop, hplan, List.filterMap_append]
    simp [h.job_eq_of_begins ho]
  · exact (h.not_pending hc (quiet_of_begins hc ho he) hp).elim

/-- The task that is begun is the one that was planned. -/
theorem planned_spawn (hc : Coherent s f) (h : Touring regions commands s) {k : CallId} {g : Nat}
    {j : Job} (hk : s.Pending k g j .accepted) :
    Planned (commands.filterMap (Command.job? regions))
      { s.setCall k (.pending g j (.spawned s.tasks.length)) with
        tasks := s.tasks ++ [.begin settings s.clock g j] } := by
  rcases h.planned with ⟨-, hn⟩ | ⟨id, g', j', hp, hplan⟩
  · exact absurd hk (hn k g j)
  · -- there is one call of the controller's generation only, so it is this one that was planned
    cases h.current hk
    cases h.current hp
    cases hc.matched.alone hk hp
    obtain ⟨-, rfl, -⟩ := hk.unique hp
    refine .inl ⟨?_, fun id g' j' hq => ?_⟩
    · rw [← hplan]
      exact List.map_append
    · rcases (pending_setCall hk).1 hq with ⟨hne, hq'⟩ | ⟨-, e⟩
      · cases h.current hq'
        exact hne (hc.matched.alone hq' hk)
      · cases e

theorem planned_step (hc : Coherent s f) (h : Touring regions commands s) {e : Event}
    (he : e.Tours regions commands) (hs : Step r settings e s m) (hm : m.Smooth) :
    m.Planned ((commands ++ e.command?.toList).filterMap (Command.job? regions)) := by
  have same (hj : (e.command?.toList).filterMap (Command.job? regions) = [])
      (hjobs : m.tasks.map Task.job = s.tasks.map Task.job)
      (hp : ∀ id g j, m.Pending id g j .accepted ↔ s.Pending id g j .accepted) :
      m.Planned ((commands ++ e.command?.toList).filterMap (Command.job? regions)) := by
    rw [List.filterMap_append, hj, List.append_nil]
    exact h.planned.of_same hjobs hp
  cases hs with
  | accept ho => exact h.planned_accept hc ho he.supersedes
  | @perform _ command t ho =>
    rcases Controller.obey?_ends ho with ⟨rfl, -⟩ | ⟨picked, rfl, -, rfl⟩
    · cases he.supersedes
    · refine same rfl ?_ fun _ _ _ => pending_perform
      rw [tasks_perform, map_job_stop]
  | @refuse _ command ho =>
    by_cases hcall : command.isCall = true
    · rw [if_pos hcall] at hm
      exact absurd rfl (hm .refused (List.mem_append_right _ List.mem_cons_self)).1
    · refine same ?_ (by rw [tasks_refuse]) fun _ _ _ => pending_refuse
      cases command with
      | select picked => rfl
      | exit => rfl
      | _ => exact absurd rfl hcall
  | spawn hk =>
    simp only [Event.command?, Option.toList_none, List.append_nil]
    exact h.planned_spawn hc hk
  | @track _ k g j task hk =>
    refine same rfl ?_ fun _ _ _ => ?_
    · rw [tasks_setCall, tasks_adopt, map_job_stop]
    · exact (accepted_setCall (pending_adopt.2 hk) rfl (fun _ _ e => by cases e)).trans pending_adopt
  | @work _ id horizon task ht hturn =>
    refine same rfl (map_set_of_eq ht (Task.work_job ..)) fun _ _ _ => Iff.rfl
  | conclude hk =>
    refine same rfl rfl fun _ _ _ => ?_
    exact (accepted_setCall (pending_perform.2 hk) rfl (fun _ _ e => by cases e)).trans pending_perform
  | dismiss hk =>
    exact same rfl rfl fun _ _ _ => accepted_setCall hk rfl (fun _ _ e => by cases e)
  | abandon hk =>
    exact same rfl rfl fun _ _ _ => accepted_setCall hk rfl (fun _ _ e => by cases e)
  | @aside _ e observers next clock held hi =>
    refine same ?_ rfl fun _ _ _ => Iff.rfl
    cases e with
    | issue command => exact absurd rfl (hi command)
    | _ => rfl

/-- Only a detection run that is the first task leads to the selection, and only the selection to switching
between the windows of the tour. -/
theorem shown_step (h : Touring regions commands s) {e : Event} (he : e.Tours regions commands)
    (hs : Step r settings e s m) (hp : m.controller.snapshot.phase = .navigating) :
    m.controller.snapshot.selected = regions := by
  rcases hs.snapshot with hsame | ⟨command, t, j, rfl, ho, hsnap⟩ | ⟨_, _, _, _, _, o, -, -, -, hsnap⟩
  · rw [hsame] at hp ⊢
    exact h.shown hp
  · rw [hsnap] at hp ⊢
    cases j with
    | some j =>
      rcases Controller.obey?_begins ho with ⟨rfl, -, -⟩ | ⟨_, _, -, hphase, -, -, -, rfl⟩
      · cases hp
      · exact h.shown hphase
    | none =>
      rcases Controller.obey?_ends ho with ⟨-, rfl⟩ | ⟨picked, rfl, -, rfl⟩
      · cases hp
      · have hpicked : picked = regions := by
          rcases he _ rfl with ⟨e, -⟩ | e | ⟨_, e⟩
          · cases e
          · cases e
            rfl
          · cases e
        simp only [Controller.pickedSnapshot] at hp ⊢
        split at hp
        · cases hp
        · rename_i hne
          rw [if_neg hne]
          exact hpicked
  · rw [hsnap] at hp ⊢
    cases o with
    | detected result => rcases result with failure | ⟨_ | _⟩ <;> cases hp
    | switched index result =>
      cases result with
      | ok _ => exact h.shown hp
      | error failure => exact h.shown hp

theorem found_step (hc : Coherent s f) (h : Touring regions commands s) {e : Event}
    (hs : Step r settings e s m) (hp : m.controller.snapshot.phase = .selecting ∨
      m.controller.snapshot.phase = .navigating) : m.Found := by
  refine Found.of_later ?_ hs.later
  rcases hs.snapshot with hsame | ⟨command, t, j, rfl, ho, hsnap⟩ |
    ⟨id, j, task, t, time, o, hk, ht, hend, hsnap⟩
  · rw [hsame] at hp
    exact h.found hp
  · rw [hsnap] at hp
    cases j with
    | some j =>
      rcases Controller.obey?_begins ho with ⟨rfl, -, -⟩ | ⟨_, _, -, hphase, -⟩
      · rcases hp with hp | hp <;> cases hp
      · exact h.found (.inr hphase)
    | none =>
      rcases Controller.obey?_ends ho with ⟨-, rfl⟩ | ⟨_, -, hphase, -⟩
      · rcases hp with hp | hp <;> cases hp
      · exact h.found (.inl hphase)
  · rw [hsnap] at hp
    cases o with
    | detected result =>
      cases result with
      | error failure => rcases hp with hp | hp <;> cases hp
      | ok found =>
        -- a detection run is the first task
        have hjob : t.job = .detection := ((hc.matched.fits ht).end hend).eq_detection
        have hmap : (s.tasks.map Task.job)[task]? = some .detection := by
          rw [List.getElem?_map, ht, Option.map_some, hjob]
        have hzero : task = 0 := by
          rcases h.planned with ⟨hplan, -⟩ | ⟨_, _, j', -, hplan⟩
          · exact h.first (hplan ▸ hmap)
          · refine h.first ?_
            rw [← hplan, List.getElem?_append_left (List.getElem?_eq_some_iff.1 hmap).1]
            exact hmap
        subst hzero
        exact ⟨t, time, found, ht, hend⟩
    | switched index result =>
      cases result with
      | ok _ => exact h.found hp
      | error failure => exact h.found hp

theorem first_step (h : Touring regions commands s) {e : Event} (he : e.Tours regions commands)
    {k : Nat} (hk : ((commands ++ e.command?.toList).filterMap (Command.job? regions))[k]? =
      some .detection) : k = 0 := by
  cases e with
  | issue command =>
    rcases he command rfl with ⟨rfl, rfl⟩ | rfl | ⟨index, rfl⟩
    · exact Nat.lt_one_iff.1 (List.getElem?_eq_some_iff.1 hk).1
    · rw [List.filterMap_append] at hk
      rw [Event.command?, Option.toList_some, List.filterMap_cons_none rfl, List.filterMap_nil,
        List.append_nil] at hk
      exact h.first hk
    · rw [List.filterMap_append] at hk
      by_cases hlt : k < (commands.filterMap (Command.job? regions)).length
      · rw [List.getElem?_append_left hlt] at hk
        exact h.first hk
      · rw [List.getElem?_append_right (Nat.le_of_not_lt hlt)] at hk
        obtain ⟨command, hmem, hj⟩ := List.mem_filterMap.1 (List.mem_of_getElem? hk)
        cases List.mem_singleton.1 hmem
        obtain ⟨_, -, hj⟩ := Option.map_eq_some_iff.1 hj
        cases hj
  | _ =>
    simp only [Event.command?, Option.toList_none, List.append_nil] at hk
    exact h.first hk

theorem reached_step (h : Touring regions commands s) {e : Event}
    (hs : Step r settings e s m) (hm : m.Smooth) {index : Nat}
    (hi : .navigate index ∈ commands ++ e.command?.toList) : m.Found ∧ index < regions.length := by
  rcases List.mem_append.1 hi with hi | hi
  · obtain ⟨hfound, hlt⟩ := h.reached hi
    exact ⟨hfound.of_later hs.later, hlt⟩
  · have hlater := hs.later
    obtain rfl : e = .issue (.navigate index) := by
      cases e with
      | issue command =>
        rw [List.mem_singleton.1 hi]
      | _ => cases hi
    cases hs with
    | accept ho =>
      rcases Controller.obey?_begins ho with ⟨-, -, ⟨e, -⟩ | e⟩ | ⟨_, region, e, hp, -, hr, -⟩
      · cases e
      · cases e
      · cases e
        rw [h.shown hp] at hr
        exact ⟨(h.found (.inr hp)).of_later hlater, (List.getElem?_eq_some_iff.1 hr).1⟩
    | perform ho =>
      rcases Controller.obey?_ends ho with ⟨e, -⟩ | ⟨_, e, -⟩
      · cases e
      · cases e
    | refuse ho =>
      exact absurd rfl (hm .refused (List.mem_append_right _ List.mem_cons_self)).1
    | aside observers next clock held hissue => exact absurd rfl (hissue _)

theorem step (hc : Coherent s f) (h : Touring regions commands s) {e : Event}
    (he : e.Tours regions commands) (hs : Step r settings e s m) (hm : m.Smooth) :
    Touring regions (commands ++ e.command?.toList) m where
  current := h.current_step hc he.supersedes hs
  settled := h.settled_step hc hs hm
  planned := h.planned_step hc he hs hm
  first := h.first_step he
  shown := h.shown_step he hs
  found := h.found_step hc hs
  reached := h.reached_step hs hm

/-- Nobody holds the controller only when all tasks of the tour have ended. -/
theorem reap (h : Touring regions commands s) : Touring regions commands s.reap := by
  rcases reap_cases s with e | ⟨hn, e⟩
  · rw [e]
    exact h
  · have htasks : (s.adopt s.controller.letGo).tasks = s.tasks := by
      rw [tasks_adopt]
      exact tasks_stop_of_rest (h.rest_of_not_pending (hn _ _ _ _)) _
    rw [e]
    exact {
      current := fun hp => absurd (pending_adopt.1 hp) (hn _ _ _ _)
      settled := fun ht => by
        rw [htasks] at ht
        exact (h.settled ht).imp_left fun ⟨_, _, _, _, hp, _⟩ => absurd hp (hn _ _ _ _)
      planned := h.planned.of_same (by rw [htasks]) fun _ _ _ => pending_adopt
      first := h.first
      shown := by
        rw [controller_adopt]
        exact h.shown
      found := by
        rw [controller_adopt]
        exact fun hp => (h.found hp).of_later (Later.adopt s (Nat.le_refl _))
      reached := fun hi => ⟨(h.reached hi).1.of_later (Later.adopt s (Nat.le_refl _)),
        (h.reached hi).2⟩ }

theorem apply (hc : Coherent s f) (h : Touring regions commands s) {e : Event}
    (he : e.Tours regions commands) (hm : (s.apply r settings e).Smooth) :
    Touring regions (commands ++ e.command?.toList) (s.apply r settings e) := by
  refine apply_of_step (P := fun m => m.Smooth → Touring regions (commands ++ e.command?.toList) m)
    (h.step hc he) (fun {m} hm hr => ?_) hm
  rw [Smooth, calls_reap] at hr
  exact (hm hr).reap

/-- What is true after a tour, whose commands may come in any state. -/
theorem run (hc : Coherent s f) (h : Touring regions commands s) (events : List Event)
    (he : ∀ e ∈ events, ∀ commands, e.Tours regions commands)
    (hm : (s.run r settings events).Smooth) :
    Touring regions (commands ++ events.filterMap Event.command?) (s.run r settings events) := by
  induction events generalizing s f commands with
  | nil =>
    rw [List.filterMap_nil, List.append_nil]
    exact h
  | cons e events ih =>
    have hfirst : (s.apply r settings e).Smooth := hm.of_later (later_run _ events)
    have hnext := ih (hc.apply e) (h.apply hc (he e List.mem_cons_self commands) hfirst)
      (fun e' hmem => he e' (List.mem_cons_of_mem _ hmem)) hm
    have hcommands : commands ++ (e :: events).filterMap Event.command? =
        commands ++ e.command?.toList ++ events.filterMap Event.command? := by
      rw [List.append_assoc]
      cases hcommand : e.command? with
      | none => rw [List.filterMap_cons_none hcommand]; rfl
      | some command => rw [List.filterMap_cons_some hcommand]; rfl
    rw [hcommands]
    exact hnext

/-- A run whose commands are one start, then selections of the regions and switches to windows. -/
theorem of_commands (r : Remote σ) (settings : CyclingSettings) (remote : σ) (eager : Bool)
    {events : List Event} {rest : List Command}
    (hcommands : events.filterMap Event.command? = .start :: rest)
    (hrest : ∀ command ∈ rest, command = .select regions ∨ ∃ index, command = .navigate index)
    (hm : (System.run r settings { remote, eager } events).Smooth) :
    Touring regions (.start :: rest) (System.run r settings { remote, eager } events) := by
  obtain ⟨before, e, after, rfl, hbefore, he, hafter⟩ := List.filterMap_eq_cons_iff.1 hcommands
  obtain rfl : e = .issue .start := by
    cases e with
    | issue command =>
      cases he
      rfl
    | _ => cases he
  let start : System σ := { remote, eager }
  have hc : Coherent start {} := Coherent.init remote eager
  rw [run_append] at hm ⊢
  have hstarted : ((start.run r settings before).apply r settings (.issue .start)).Smooth :=
    hm.of_later (later_run _ after)
  have hfirst : Touring regions [] (start.run r settings before) := by
    have hrun := (init regions remote eager).run hc before ?_
      (hstarted.of_later (later_apply _ _))
    · rw [List.filterMap_eq_nil_iff.2 hbefore] at hrun
      exact hrun
    · rintro e hmem commands command rfl
      cases hbefore _ hmem
  have hnext := hfirst.apply (hc.run r settings before) (e := .issue .start)
    (fun command e => by cases e; exact .inl ⟨rfl, rfl⟩) hstarted
  have hlast := hnext.run ((hc.run r settings before).apply _) after ?_ hm
  · rw [hafter] at hlast
    exact hlast
  · rintro e hmem commands command rfl
    refine .inr (hrest command ?_)
    rw [← hafter]
    exact List.mem_filterMap.2 ⟨_, hmem, rfl⟩

end Touring

end System

end WindowSurvey
