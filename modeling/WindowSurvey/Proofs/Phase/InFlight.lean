import WindowSurvey.Proofs.Phase.Calls
/-!
# The task in flight

Between the moment a task is begun and the moment it reports, it is in nobody's hands: it cannot be stopped
then. Once it has reported, it is the task in flight for as long as its generation is the controller's,
and stopping concerns the task in flight only, or one that reports too late. So the task of a call that
waits in the controller's generation was not stopped.

## Main definitions

* `System.Tracked` — which task is in flight, and which tasks were not stopped
-/

namespace WindowSurvey.System

variable {σ : Type} {r : Remote σ} {settings : CyclingSettings}

/-- A task that was begun is not in flight, and not stopped, before it reports; from then on it is in
flight and not stopped as long as its generation is the controller's. -/
structure Tracked (s : System σ) : Prop where
  inFlight_lt : ∀ {task : TaskId}, s.controller.inFlight = some task → task < s.tasks.length
  spawned : ∀ {id : CallId} {g : Nat} {j : Job} {task : TaskId}, s.Pending id g j (.spawned task) →
    s.controller.inFlight ≠ some task ∧ ∀ t, s.tasks[task]? = some t → t.isStopped = false
  waiting : ∀ {id : CallId} {g : Nat} {j : Job} {task : TaskId}, s.Pending id g j (.waiting task) →
    g = s.controller.generation →
    s.controller.inFlight = some task ∧ ∀ t, s.tasks[task]? = some t → t.isStopped = false

namespace Tracked

theorem init (remote : σ) (eager : Bool) : Tracked { remote, eager } where
  inFlight_lt h := by cases h
  spawned h := by cases h
  waiting h := by cases h

variable {s m : System σ}

/-- A new generation: the task in flight is left alone, or it is stopped and in flight no more. -/
theorem perform (hm : s.Matched) (h : s.Tracked) {t : Transition}
    (hg : t.after.generation = s.controller.generation + 1)
    (ht : t.after.inFlight = s.controller.inFlight ∧ t.stops = none ∨
      t.after.inFlight = none ∧ t.stops = s.controller.inFlight) : (s.perform t).Tracked where
  inFlight_lt {task} hf := by
    rw [controller_perform] at hf
    rw [tasks_perform, length_tasks_stop]
    rcases ht with ⟨e, -⟩ | ⟨e, -⟩
    · exact h.inFlight_lt (e ▸ hf)
    · rw [e] at hf
      cases hf
  spawned {id g j task} hp := by
    obtain ⟨hf, hs⟩ := h.spawned (pending_perform.1 hp)
    rw [controller_perform, tasks_perform, getElem?_tasks_stop]
    rcases ht with ⟨e, e'⟩ | ⟨e, e'⟩
    · rw [e, e', if_neg (by simp)]
      exact ⟨hf, hs⟩
    · rw [e, e', if_neg hf]
      exact ⟨by simp, hs⟩
  waiting {id g j task} hp e := by
    -- no call has the new generation yet
    have hle := hm.generation_le (pending_perform.1 hp)
    rw [e, controller_perform, hg] at hle
    exact absurd hle (Nat.not_succ_le_self _)

/-- The call of a task goes on or returns, and nothing else changes. -/
theorem settle (h : s.Tracked) {k : CallId} {g : Nat} {j : Job} {stage : CallStage}
    (hk : s.Pending k g j stage) {c : Call} (hc : c.isPending = false) : (s.setCall k c).Tracked where
  inFlight_lt hf := h.inFlight_lt hf
  spawned hp := h.spawned (pending_of_settled hk hc hp).2
  waiting hp hg := h.waiting (pending_of_settled hk hc hp).2 hg

theorem addCall (h : s.Tracked) {c : Call}
    (hc : ∀ {g : Nat} {j : Job} {stage : CallStage}, c = .pending g j stage → stage = .accepted) :
    (s.addCall c).Tracked where
  inFlight_lt hf := h.inFlight_lt hf
  spawned hp := by
    rcases pending_addCall.1 hp with hp | ⟨-, e⟩
    · exact h.spawned hp
    · cases hc e
  waiting hp hg := by
    rcases pending_addCall.1 hp with hp | ⟨-, e⟩
    · exact h.waiting hp hg
    · cases hc e

/-- Tasks that were not stopped go on or are joined by others, and nothing else changes. -/
theorem retask (h : s.Tracked) {tasks : List Task} (hlen : s.tasks.length ≤ tasks.length)
    (hkeep : ∀ {k : TaskId}, (∀ t, s.tasks[k]? = some t → t.isStopped = false) →
      ∀ t, tasks[k]? = some t → t.isStopped = false) : Tracked { s with tasks } where
  inFlight_lt hf := Nat.lt_of_lt_of_le (h.inFlight_lt hf) hlen
  spawned hp := ⟨(h.spawned hp).1, hkeep (h.spawned hp).2⟩
  waiting hp hg := ⟨(h.waiting hp hg).1, hkeep (h.waiting hp hg).2⟩

/-- A task that is begun is in nobody's hands. -/
theorem spawn (h : s.Tracked) {id : CallId} {g : Nat} {j : Job} (hk : s.Pending id g j .accepted) :
    Tracked { s.setCall id (.pending g j (.spawned s.tasks.length)) with
      tasks := s.tasks ++ [.begin settings s.clock g j] } := by
  have hkeep {k : TaskId} (hk : ∀ t, s.tasks[k]? = some t → t.isStopped = false) (t : Task)
      (ht : (s.tasks ++ [Task.begin settings s.clock g j])[k]? = some t) : t.isStopped = false := by
    rcases getElem?_concat_eq_some.1 ht with ht | ⟨-, rfl⟩
    · exact hk t ht
    · rfl
  have hb : Tracked { s with tasks := s.tasks ++ [.begin settings s.clock g j] } :=
    h.retask (by simp) hkeep
  refine ⟨hb.inFlight_lt, fun hp => ?_, fun hp hg => ?_⟩
  · rcases (pending_setCall hk).1 hp with ⟨-, hp⟩ | ⟨-, e⟩
    · exact hb.spawned hp
    · cases e
      refine ⟨fun hf => Nat.lt_irrefl _ (h.inFlight_lt hf), hkeep fun t ht => ?_⟩
      exact absurd (List.getElem?_eq_some_iff.1 ht).1 (Nat.lt_irrefl _)
  · rcases (pending_setCall hk).1 hp with ⟨-, hp⟩ | ⟨-, e⟩
    · exact hb.waiting hp hg
    · cases e

theorem work (h : s.Tracked) {id : TaskId} {task : Task} (ht : s.tasks[id]? = some task)
    (horizon : Option Nat) : Tracked { s with
      tasks := s.tasks.set id (task.work r settings horizon s.remote).1
      remote := (task.work r settings horizon s.remote).2 } := by
  have hkeep {k : TaskId} (hk : ∀ t, s.tasks[k]? = some t → t.isStopped = false) (t : Task)
      (ht' : (s.tasks.set id (task.work r settings horizon s.remote).1)[k]? = some t) :
      t.isStopped = false := by
    by_cases hik : id = k
    · subst hik
      rw [List.getElem?_set_self (List.getElem?_eq_some_iff.1 ht).1] at ht'
      cases ht'
      rw [Task.work_isStopped]
      exact hk task ht
    · rw [List.getElem?_set_ne hik] at ht'
      exact hk t ht'
  have hb := h.retask (Nat.le_of_eq (List.length_set ..).symm) hkeep
  exact ⟨hb.inFlight_lt, hb.spawned, hb.waiting⟩

/-- After its outcome was taken notice of, no task is in flight. -/
theorem conclude (hm : s.Matched) (h : s.Tracked) {id : CallId} {j : Job} {task : TaskId}
    (hk : s.Pending id s.controller.generation j (.waiting task)) (snapshot : Snapshot) :
    ((s.perform { after := { s.controller with inFlight := none, snapshot } }).setCall id
      .returned).Tracked := by
  refine ⟨fun hf => ?_, fun hp => ?_, fun hp hg => ?_⟩
  · cases hf
  · obtain ⟨-, hp⟩ := pending_of_settled (pending_perform.2 hk) rfl hp
    refine ⟨fun hf => ?_, (h.spawned (pending_perform.1 hp)).2⟩
    cases hf
  · -- the call that returns is the only one of the controller's generation
    obtain ⟨hne, hp⟩ := pending_of_settled (pending_perform.2 hk) rfl hp
    cases hg
    exact absurd (hm.alone (pending_perform.1 hp) hk) hne

/-- A task reports: the one of the controller's generation is in flight then, and any other stops. -/
theorem track (hm : s.Matched) (h : s.Tracked) {k : CallId} {g : Nat} {j : Job} {task : TaskId}
    (hk : s.Pending k g j (.spawned task)) :
    ((s.adopt (s.controller.track g task)).setCall k (.pending g j (.waiting task))).Tracked := by
  obtain ⟨t, ht, -, -⟩ := hm.begun hk rfl
  have hlt : task < s.tasks.length := (List.getElem?_eq_some_iff.1 ht).1
  by_cases hg : s.controller.generation = g
  · -- the calls of other tasks have passed generations
    rw [Controller.track_of_eq hg]
    refine ⟨?_, ?_, ?_⟩
    · intro task' hf
      cases hf
      exact hlt
    · intro id g' j' task' hp
      rcases (pending_setCall (pending_adopt.2 hk)).1 hp with ⟨hne, hp⟩ | ⟨-, e⟩
      · have hq := pending_adopt.1 hp
        refine ⟨fun e => ?_, (h.spawned hq).2⟩
        cases e
        exact hne (hm.same_call hq rfl hk rfl)
      · cases e
    · intro id g' j' task' hp hg'
      rcases (pending_setCall (pending_adopt.2 hk)).1 hp with ⟨hne, hq⟩ | ⟨-, e⟩
      · have he : g' = g := hg'.trans hg
        subst he
        exact absurd (hm.alone (pending_adopt.1 hq) hk) hne
      · cases e
        exact ⟨rfl, (h.spawned hk).2⟩
  · rw [Controller.track_of_ne hg]
    have others {id : CallId} {g' : Nat} {j' : Job} {stage : CallStage} {task' : TaskId}
        (hp : s.Pending id g' j' stage) (hs : stage.task? = some task') (hne : id ≠ k) :
        (s.stop (some task)).tasks[task']? = s.tasks[task']? := by
      rw [getElem?_tasks_stop, if_neg]
      rintro e
      cases e
      exact hne (hm.same_call hp hs hk rfl)
    refine ⟨?_, ?_, ?_⟩
    · intro task' hf
      exact Nat.lt_of_lt_of_eq (h.inFlight_lt hf) (length_tasks_stop s (some task)).symm
    · intro id g' j' task' hp
      rcases (pending_setCall (pending_adopt.2 hk)).1 hp with ⟨hne, hp⟩ | ⟨-, e⟩
      · have hq := pending_adopt.1 hp
        refine ⟨(h.spawned hq).1, fun t' ht' => (h.spawned hq).2 t' ?_⟩
        exact (others hq rfl hne).symm.trans ht'
      · cases e
    · intro id g' j' task' hp hg'
      rcases (pending_setCall (pending_adopt.2 hk)).1 hp with ⟨hne, hp⟩ | ⟨-, e⟩
      · have hq := pending_adopt.1 hp
        refine ⟨(h.waiting hq hg').1, fun t' ht' => (h.waiting hq hg').2 t' ?_⟩
        exact (others hq rfl hne).symm.trans ht'
      · cases e
        exact absurd hg'.symm hg

theorem step (hm : s.Matched) (h : s.Tracked) {e : Event} (hs : Step r settings e s m) :
    m.Tracked := by
  cases hs with
  | @accept _ command t j ho =>
    refine (h.perform hm (generation_le_of_begins ho) ?_).addCall fun e => ?_
    · rcases Controller.obey?_begins ho with ⟨rfl, -, -⟩ | ⟨_, _, -, -, -, -, -, rfl⟩
      · exact .inr ⟨rfl, rfl⟩
      · exact .inl ⟨rfl, rfl⟩
    · cases e
      rfl
  | perform ho =>
    rcases Controller.obey?_ends ho with ⟨-, rfl⟩ | ⟨regions, -, -, rfl⟩
    · exact h.perform hm rfl (.inr ⟨rfl, rfl⟩)
    · exact ⟨h.inFlight_lt, h.spawned, h.waiting⟩
  | refuse ho =>
    split
    · refine h.addCall fun e => ?_
      cases e
    · exact h
  | spawn hk => exact h.spawn hk
  | track hk => exact h.track hm hk
  | work ht hturn => exact h.work ht _
  | conclude hk ht he => exact h.conclude hm hk _
  | dismiss hk => exact h.settle hk rfl
  | abandon hk => exact h.settle hk rfl
  | aside observers next clock held =>
    exact ⟨h.inFlight_lt, h.spawned, h.waiting⟩

theorem reap (h : s.Tracked) : s.reap.Tracked := by
  rcases reap_cases s with e | ⟨hn, e⟩
  · rw [e]
    exact h
  · rw [e]
    refine ⟨?_, ?_, ?_⟩
    · intro task hf
      rw [controller_adopt] at hf
      cases hf
    · intro id g j task hp
      exact absurd (pending_adopt.1 hp) (hn id g j _)
    · intro id g j task hp
      exact absurd (pending_adopt.1 hp) (hn id g j _)

theorem apply (hm : s.Matched) (h : s.Tracked) (e : Event) : (s.apply r settings e).Tracked :=
  apply_of_step (h.step hm) Tracked.reap

end Tracked

end WindowSurvey.System
