import WindowSurvey.Proofs.Phase.Outcomes
/-!
# Tasks and the calls that wait for them

When callers wait for their commands to the end, every task that may still ask something of the remote has
a call that waits for it. A waiting call whose generation has passed has a task at rest, since giving up
work stops the task in flight and a task that reports too late stops at once. And while something is going
on there is a call of the controller's generation that will end it.

## Main definitions

* `Event.isPatient` — no caller gives up waiting
* `System.Attended` — the invariant
-/

namespace WindowSurvey

/-- Whether every caller goes on waiting. -/
def Event.isPatient : Event → Bool
  | abandon _ => false
  | _ => true

namespace System

variable {σ : Type} {r : Remote σ} {settings : CyclingSettings} {s m : System σ} {f : Flow}

/-! ## The invariant -/

/-- Live tasks and calls that wait for them. A live task has the call that has begun it; once that call
waits, its generation is the controller's. The task in flight is one that a call of the controller's
generation waits for, and there is such a call while something is going on. -/
structure Attended (s : System σ) : Prop where
  tended : ∀ {task : TaskId} {t : Task}, s.tasks[task]? = some t → t.isLive = true →
    ∃ id j stage, s.Pending id t.generation j stage ∧ stage.task? = some task
  current : ∀ {id : CallId} {g : Nat} {j : Job} {task : TaskId} {t : Task},
    s.Pending id g j (.waiting task) → s.tasks[task]? = some t → t.isLive = true →
    g = s.controller.generation
  flying : ∀ {task : TaskId}, s.controller.inFlight = some task →
    ∃ id j, s.Pending id s.controller.generation j (.waiting task)
  processing : s.controller.snapshot.processing = true →
    ∃ id j stage, s.Pending id s.controller.generation j stage

/-- Something is going on while there is a call of the controller's generation. -/
theorem Coherent.processing_of_pending (h : Coherent s f) {id : CallId} {j : Job} {stage : CallStage}
    (hp : s.Pending id s.controller.generation j stage) : s.controller.snapshot.processing = true := by
  rw [← h.follows.snapshot]
  exact h.sound.processing_iff.2 ⟨id, j.work, (h.follows.awaited hp j.work).2 ⟨rfl, rfl⟩⟩

/-- The task of a call that waits in the controller's generation does not rest without an outcome. -/
theorem Coherent.exists_end (h : Coherent s f) {id : CallId} {j : Job} {task : TaskId} {t : Task}
    (hp : s.Pending id s.controller.generation j (.waiting task)) (ht : s.tasks[task]? = some t)
    (hl : t.isLive = false) : ∃ time o, t.end? = some (time, o) :=
  Task.exists_end hl ((h.tracked.waiting hp rfl).2 t ht)

/-- Only beginning a task for a call makes more tasks. -/
theorem Step.task_new {e : Event} (hs : Step r settings e s m) {task : TaskId} {t : Task}
    (ht : m.tasks[task]? = some t) (hlt : s.tasks.length ≤ task) :
    ∃ id j, m.Pending id t.generation j (.spawned task) := by
  have old {n : System σ} {b : Prop} (hn : n.tasks[task]? = some t)
      (hl : n.tasks.length = s.tasks.length) : b :=
    absurd (List.getElem?_eq_some_iff.1 hn).1 (Nat.not_lt_of_le (hl ▸ hlt))
  cases hs with
  | accept ho => exact old ht (by rw [tasks_accept, length_tasks_stop])
  | perform ho => exact old ht (by rw [tasks_perform, length_tasks_stop])
  | refuse ho => exact old ht (by rw [tasks_refuse])
  | @spawn _ id g j hp =>
    rcases getElem?_concat_eq_some.1 ht with ht | ⟨rfl, rfl⟩
    · exact old ht rfl
    · exact ⟨id, j, (pending_setCall hp).2 (.inr ⟨rfl, rfl⟩)⟩
  | track hp => exact old ht (by rw [tasks_setCall, tasks_adopt, length_tasks_stop])
  | work ht' => exact old ht (List.length_set ..)
  | conclude hp ht' he => exact old ht rfl
  | dismiss hp => exact old ht rfl
  | abandon hp => exact old ht rfl
  | aside observers next clock held => exact old ht rfl

namespace Attended

theorem init (remote : σ) (eager : Bool) : Attended { remote, eager } where
  tended h := by cases h
  current h := by cases h
  flying h := by cases h
  processing h := by cases h

/-- A live task keeps its call: a call returns only when its task is at rest. -/
theorem tended_step (h : s.Attended) {e : Event} (he : e.isPatient = true)
    (hs : Step r settings e s m) {task : TaskId} {t : Task} (ht : m.tasks[task]? = some t)
    (hl : t.isLive = true) : ∃ id j stage, m.Pending id t.generation j stage ∧
      stage.task? = some task := by
  by_cases hlt : task < s.tasks.length
  · obtain ⟨t', ht', hg, -⟩ := hs.later.task (List.getElem?_eq_getElem hlt)
    cases ht.symm.trans ht'
    have hlive := hs.later.live (List.getElem?_eq_getElem hlt) ht hl
    obtain ⟨id, j, stage, hp, hstage⟩ := h.tended (List.getElem?_eq_getElem hlt) hlive
    rw [hg]
    rcases hs.call hp with ⟨stage', hq, hk⟩ | ⟨-, -, task', u, rfl, hu, hul⟩ | ⟨rfl, -⟩
    · exact ⟨id, j, stage', hq, hk task hstage⟩
    · cases hstage
      cases hu.symm.trans (List.getElem?_eq_getElem hlt)
      rw [hlive] at hul
      cases hul
    · cases he
  · obtain ⟨id, j, hp⟩ := hs.task_new ht (Nat.le_of_not_lt hlt)
    exact ⟨id, j, _, hp, rfl⟩

/-- No live task is waited for after the task in flight was stopped. -/
theorem not_live_of_stop (hc : Coherent s f) (h : s.Attended) {id : CallId} {g : Nat} {j : Job}
    {task : TaskId} {t : Task} (hp : s.Pending id g j (.waiting task))
    (ht : (s.stop s.controller.inFlight).tasks[task]? = some t) : t.isLive = false := by
  rw [Bool.eq_false_iff]
  intro hl
  obtain ⟨hne, ht'⟩ := of_live_stop ht hl
  cases h.current hp ht' hl
  exact hne (hc.tracked.waiting hp rfl).1

/-- While nothing is going on, no live task is waited for. -/
theorem not_live_of_quiet (hc : Coherent s f) (h : s.Attended)
    (hq : s.controller.snapshot.processing = false) {id : CallId} {g : Nat} {j : Job} {task : TaskId}
    {t : Task} (hp : s.Pending id g j (.waiting task)) (ht : s.tasks[task]? = some t) :
    t.isLive = false := by
  rw [Bool.eq_false_iff]
  intro hl
  cases h.current hp ht hl
  rw [hc.processing_of_pending hp] at hq
  cases hq

theorem current_step (hc : Coherent s f) (h : s.Attended) {e : Event} (hs : Step r settings e s m)
    {id : CallId} {g : Nat} {j : Job} {task : TaskId} {t : Task} (hp : m.Pending id g j (.waiting task))
    (ht : m.tasks[task]? = some t) (hl : t.isLive = true) : g = m.controller.generation := by
  cases hs with
  | @accept _ command t' j' ho =>
    rcases pending_accept.1 hp with hq | ⟨-, -, -, e⟩
    · rw [tasks_accept] at ht
      rcases Controller.obey?_begins ho with ⟨rfl, -, -⟩ | ⟨_, _, -, -, hn, -, -, rfl⟩
      · rw [h.not_live_of_stop hc hq ht] at hl
        cases hl
      · rw [h.not_live_of_quiet hc hn hq ht] at hl
        cases hl
    · cases e
  | @perform _ command t' ho =>
    have hq : s.Pending id g j (.waiting task) := pending_perform.1 hp
    rw [tasks_perform] at ht
    rw [controller_perform]
    rcases Controller.obey?_ends ho with ⟨-, rfl⟩ | ⟨_, -, -, rfl⟩
    · rw [h.not_live_of_stop hc hq ht] at hl
      cases hl
    · exact h.current hq ht hl
  | refuse ho =>
    rw [tasks_refuse] at ht
    rw [controller_refuse]
    exact h.current (pending_refuse.1 hp) ht hl
  | @spawn _ k g' j' hk =>
    rcases (pending_setCall hk).1 hp with ⟨-, hq⟩ | ⟨-, e⟩
    · obtain ⟨u, hu, -⟩ := hc.matched.begun hq rfl
      have hlt := (List.getElem?_eq_some_iff.1 hu).1
      exact h.current hq ((List.getElem?_append_left hlt).symm.trans ht) hl
    · cases e
  | @track _ k g' j' task' hk =>
    rw [tasks_setCall, tasks_adopt] at ht
    rw [controller_setCall, controller_adopt, Controller.generation_track]
    have hkept := of_live_stop ht hl
    rcases (pending_setCall (pending_adopt.2 hk)).1 hp with ⟨-, hq⟩ | ⟨-, e⟩
    · exact h.current (pending_adopt.1 hq) hkept.2 hl
    · cases e
      by_cases hg : s.controller.generation = g
      · exact hg.symm
      · rw [Controller.track_of_ne hg] at hkept
        exact absurd rfl hkept.1
  | @work _ k horizon u hu _ =>
    by_cases hk : k = task
    · subst hk
      cases ht.symm.trans (List.getElem?_set_self (List.getElem?_eq_some_iff.1 hu).1)
      exact h.current hp hu (Task.isLive_of_work hl)
    · exact h.current hp ((List.getElem?_set_ne hk).symm.trans ht) hl
  | conclude hk =>
    obtain ⟨-, hq⟩ := pending_of_settled (pending_perform.2 hk) rfl hp
    exact h.current (pending_perform.1 hq) ht hl
  | dismiss hk => exact h.current (pending_of_settled hk rfl hp).2 ht hl
  | abandon hk => exact h.current (pending_of_settled hk rfl hp).2 ht hl
  | aside observers next clock held => exact h.current hp ht hl

/-- A call that is dismissed is not of the controller's generation. -/
theorem generation_ne_of_dismiss (hc : Coherent s f) {id : CallId} {g : Nat} {j : Job} {task : TaskId}
    {t : Task} (hp : s.Pending id g j (.waiting task)) (ht : s.tasks[task]? = some t)
    (hl : t.isLive = false) (hg : g = s.controller.generation → t.end? = none) :
    g ≠ s.controller.generation := by
  rintro rfl
  obtain ⟨time, o, he⟩ := hc.exists_end hp ht hl
  rw [hg rfl] at he
  cases he

theorem flying_step (hc : Coherent s f) (h : s.Attended) {e : Event} (he : e.isPatient = true)
    (hs : Step r settings e s m) {task : TaskId} (hf : m.controller.inFlight = some task) :
    ∃ id j, m.Pending id m.controller.generation j (.waiting task) := by
  cases hs with
  | @accept _ command t j ho =>
    rw [controller_accept] at hf
    rcases Controller.obey?_begins ho with ⟨rfl, -, -⟩ | ⟨_, _, -, -, hn, -, -, rfl⟩
    · cases hf
    · obtain ⟨id, j', hp⟩ := h.flying hf
      rw [hc.processing_of_pending hp] at hn
      cases hn
  | @perform _ command t ho =>
    rw [controller_perform] at hf ⊢
    rcases Controller.obey?_ends ho with ⟨-, rfl⟩ | ⟨_, -, -, rfl⟩
    · cases hf
    · obtain ⟨id, j, hp⟩ := h.flying hf
      exact ⟨id, j, pending_perform.2 hp⟩
  | refuse ho =>
    rw [controller_refuse] at hf ⊢
    obtain ⟨id, j, hp⟩ := h.flying hf
    exact ⟨id, j, pending_refuse.2 hp⟩
  | @spawn _ k g j' hk =>
    obtain ⟨id, j, hp⟩ := h.flying hf
    refine ⟨id, j, (pending_setCall hk).2 (.inl ⟨?_, hp⟩)⟩
    rintro rfl
    cases (hp.unique hk).2.2
  | @track _ k g j' task' hk =>
    by_cases hg : s.controller.generation = g
    · rw [Controller.track_of_eq hg] at hf ⊢
      cases hf
      exact ⟨k, j', (pending_setCall (pending_adopt.2 hk)).2 (.inr ⟨rfl, by rw [← hg]; rfl⟩)⟩
    · rw [Controller.track_of_ne hg] at hf ⊢
      obtain ⟨id, j, hp⟩ := h.flying hf
      refine ⟨id, j, (pending_setCall (pending_adopt.2 hk)).2 (.inl ⟨?_, pending_adopt.2 hp⟩)⟩
      rintro rfl
      cases (hp.unique hk).2.2
  | work ht => exact h.flying hf
  | conclude hk => cases hf
  | @dismiss _ k g j' task' t hk ht hl hg =>
    obtain ⟨id, j, hp⟩ := h.flying hf
    refine ⟨id, j, (pending_setCall hk).2 (.inl ⟨?_, hp⟩)⟩
    rintro rfl
    exact generation_ne_of_dismiss hc hk ht hl hg (hk.unique hp).1
  | abandon hk => cases he
  | aside observers next clock held => exact h.flying hf

theorem processing_step (hc : Coherent s f) (h : s.Attended) {e : Event} (he : e.isPatient = true)
    (hs : Step r settings e s m) (hb : m.controller.snapshot.processing = true) :
    ∃ id j stage, m.Pending id m.controller.generation j stage := by
  have onward (hsame : m.controller.snapshot.processing = s.controller.snapshot.processing)
      (hgen : m.controller.generation = s.controller.generation)
      (hne : ∀ id, e = .deliver id → ∀ j stage, ¬ s.Pending id s.controller.generation j stage) :
      ∃ id j stage, m.Pending id m.controller.generation j stage := by
    obtain ⟨id, j, stage, hp⟩ := h.processing (hsame ▸ hb)
    rcases hs.call hp with ⟨stage', hq, -⟩ | ⟨rfl, -⟩ | ⟨rfl, -⟩
    · exact ⟨id, j, stage', hgen ▸ hq⟩
    · exact absurd hp (hne id rfl j stage)
    · cases he
  cases hs with
  | @accept _ command t j ho =>
    rw [controller_accept]
    exact ⟨s.calls.length, j, .accepted, pending_accept.2 (.inr ⟨rfl, rfl, rfl, rfl⟩)⟩
  | @perform _ command t ho =>
    rw [controller_perform] at hb
    rcases Controller.obey?_ends ho with ⟨-, rfl⟩ | ⟨regions, -, hp, rfl⟩
    · cases hb
    · have hq : s.controller.snapshot.processing = false := by
        rw [← hc.follows.snapshot] at hp ⊢
        exact (hc.sound.snapshot.of_selecting hp).1
      cases (Controller.pickedSnapshot_processing hq regions).symm.trans hb
  | refuse ho =>
    rw [controller_refuse] at hb ⊢
    obtain ⟨id, j, stage, hp⟩ := h.processing hb
    exact ⟨id, j, stage, pending_refuse.2 hp⟩
  | spawn hk => exact onward rfl rfl fun _ e => by cases e
  | track hk =>
    refine onward ?_ ?_ fun _ e => by cases e
    · rw [controller_setCall, controller_adopt, Controller.snapshot_track]
    · rw [controller_setCall, controller_adopt, Controller.generation_track]
  | work ht => exact onward rfl rfl fun _ e => by cases e
  | @conclude _ id j task t time o hk ht ho =>
    have hq := Controller.finishedSnapshot_processing s.controller.snapshot o
    cases hq.symm.trans hb
  | @dismiss _ k g j' task' t hk ht hl hg =>
    refine onward rfl rfl fun id e j stage hp => ?_
    cases e
    exact generation_ne_of_dismiss hc hk ht hl hg (hk.unique hp).1
  | abandon hk => cases he
  | aside observers next clock held hi hd => exact h.processing hb

/-- Every patient step keeps the workers attended. -/
theorem step (hc : Coherent s f) (h : s.Attended) {e : Event} (he : e.isPatient = true)
    (hs : Step r settings e s m) : m.Attended where
  tended := h.tended_step he hs
  current := h.current_step hc hs
  flying := h.flying_step hc he hs
  processing := h.processing_step hc he hs

/-- Nobody holds the controller only when there is no worker either. -/
theorem reap (h : s.Attended) : s.reap.Attended := by
  rcases reap_cases s with e | ⟨hn, e⟩
  · rw [e]
    exact h
  · have hf : s.controller.inFlight = none := by
      cases hf : s.controller.inFlight with
      | none => rfl
      | some task =>
        obtain ⟨id, j, hp⟩ := h.flying hf
        exact absurd hp (hn _ _ _ _)
    have hlet : s.controller.letGo = { after := s.controller } := by rw [Controller.letGo, hf, ← hf]
    rw [e, hlet]
    exact h

theorem apply (hc : Coherent s f) (h : s.Attended) {e : Event} (he : e.isPatient = true) :
    (s.apply r settings e).Attended :=
  apply_of_step (h.step hc he) Attended.reap

theorem run (hc : Coherent s f) (h : s.Attended) {events : List Event}
    (he : ∀ e ∈ events, e.isPatient = true) : (s.run r settings events).Attended := by
  induction events generalizing s f with
  | nil => exact h
  | cons e events ih =>
    have hfirst : e.isPatient = true := he e List.mem_cons_self
    exact ih (hc.apply e) (h.apply hc hfirst) fun e' hmem => he e' (List.mem_cons_of_mem _ hmem)

end Attended

end System

end WindowSurvey
