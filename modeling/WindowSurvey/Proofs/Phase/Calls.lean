import WindowSurvey.Proofs.Phase.Steps
/-!
# Calls and tasks in the course of time

What is true of every run whatever is done in it: calls and tasks keep what they were begun for, a call
that was answered stays answered, a task at rest stays at rest, and calls and tasks match each other.

## Main definitions

* `System.Later` — one state comes after another in a run
* `System.Matched` — calls and tasks match
-/

namespace WindowSurvey.System

variable {σ : Type}

/-! ## One state after another -/

/-- What a state has in common with an earlier one. -/
structure Later (s m : System σ) : Prop where
  eager : m.eager = s.eager
  generation_le : s.controller.generation ≤ m.controller.generation
  length_le : s.calls.length ≤ m.calls.length
  settled : ∀ {id : CallId} {c : Call}, s.calls[id]? = some c → c.isPending = false →
    m.calls[id]? = some c
  pending : ∀ {id : CallId} {g : Nat} {j : Job} {stage : CallStage}, m.Pending id g j stage →
    id < s.calls.length → ∃ before, s.Pending id g j before
  task : ∀ {id : TaskId} {t : Task}, s.tasks[id]? = some t → ∃ t', m.tasks[id]? = some t' ∧
    t'.generation = t.generation ∧ t'.job = t.job ∧ (t.isLive = false → t' = t)

namespace Later

theorem refl (s : System σ) : Later s s where
  eager := rfl
  generation_le := Nat.le_refl _
  length_le := Nat.le_refl _
  settled h _ := h
  pending h _ := ⟨_, h⟩
  task h := ⟨_, h, rfl, rfl, fun _ => rfl⟩

theorem trans {s m u : System σ} (h : Later s m) (h' : Later m u) : Later s u where
  eager := h'.eager.trans h.eager
  generation_le := Nat.le_trans h.generation_le h'.generation_le
  length_le := Nat.le_trans h.length_le h'.length_le
  settled hc hp := h'.settled (h.settled hc hp) hp
  pending hp hlt := by
    obtain ⟨between, hm⟩ := h'.pending hp (Nat.lt_of_lt_of_le hlt h.length_le)
    exact h.pending hm hlt
  task ht := by
    obtain ⟨t', ht', hg', hj', hrest'⟩ := h.task ht
    obtain ⟨t'', ht'', hg'', hj'', hrest''⟩ := h'.task ht'
    refine ⟨t'', ht'', hg''.trans hg', hj''.trans hj', fun hl => ?_⟩
    cases hrest' hl
    exact hrest'' hl

/-- Taking over a transition that does not turn back the generation. -/
theorem adopt (s : System σ) {t : Transition} (h : s.controller.generation ≤ t.after.generation) :
    Later s (s.adopt t) where
  eager := eager_adopt s t
  generation_le := by rwa [controller_adopt]
  length_le := Nat.le_of_eq (by rw [calls_adopt])
  settled hc _ := by rwa [calls_adopt]
  pending hp _ := ⟨_, pending_adopt.1 hp⟩
  task {id t'} ht := by
    rw [tasks_adopt, getElem?_tasks_stop, ht]
    by_cases ho : t.stops = some id
    · rw [if_pos ho]
      exact ⟨t'.stop, rfl, t'.stop_generation, t'.stop_job, Task.stop_of_not_live⟩
    · rw [if_neg ho]
      exact ⟨t', rfl, rfl, rfl, fun _ => rfl⟩

theorem perform (s : System σ) {t : Transition} (h : s.controller.generation ≤ t.after.generation) :
    Later s (s.perform t) :=
  have ha := adopt s h
  { eager := ha.eager, generation_le := ha.generation_le, length_le := ha.length_le,
    settled := ha.settled, pending := ha.pending, task := ha.task }

theorem addCall (s : System σ) (c : Call) : Later s (s.addCall c) where
  eager := rfl
  generation_le := Nat.le_refl _
  length_le := by
    rw [calls_addCall, List.length_append]
    exact Nat.le_add_right _ _
  settled hc _ := getElem?_concat_eq_some.2 (.inl hc)
  pending hp hlt := by
    rcases pending_addCall.1 hp with h | ⟨rfl, -⟩
    · exact ⟨_, h⟩
    · exact absurd hlt (Nat.lt_irrefl _)
  task ht := ⟨_, ht, rfl, rfl, fun _ => rfl⟩

/-- A pending call that stays what it was begun for, or does not wait any longer. -/
theorem setCall {s : System σ} {k : CallId} {g : Nat} {j : Job} {stage : CallStage}
    (hk : s.Pending k g j stage) {c : Call}
    (hc : ∀ {g' : Nat} {j' : Job} {stage' : CallStage}, c = .pending g' j' stage' → g' = g ∧ j' = j) :
    Later s (s.setCall k c) where
  eager := rfl
  generation_le := Nat.le_refl _
  length_le := Nat.le_of_eq (List.length_set ..).symm
  settled {id c'} h hp := by
    have hne : k ≠ id := by
      rintro rfl
      rw [hk] at h
      cases h
      cases hp
    rw [calls_setCall, List.getElem?_set_ne hne]
    exact h
  pending hp _ := by
    rcases (pending_setCall hk).1 hp with ⟨-, h⟩ | ⟨rfl, h⟩
    · exact ⟨_, h⟩
    · obtain ⟨rfl, rfl⟩ := hc h
      exact ⟨_, hk⟩
  task ht := ⟨_, ht, rfl, rfl, fun _ => rfl⟩

/-- A call that does not wait any longer. -/
theorem settle {s : System σ} {k : CallId} {g : Nat} {j : Job} {stage : CallStage}
    (hk : s.Pending k g j stage) {c : Call} (hc : c.isPending = false) : Later s (s.setCall k c) := by
  refine setCall hk ?_
  rintro g' j' stage' rfl
  cases hc

end Later

/-- A task that is live was live before. -/
theorem Later.live {s m : System σ} (h : Later s m) {id : TaskId} {t t' : Task}
    (ht : s.tasks[id]? = some t) (ht' : m.tasks[id]? = some t') (hl : t'.isLive = true) :
    t.isLive = true := by
  obtain ⟨u, hu, -, -, hrest⟩ := h.task ht
  cases ht'.symm.trans hu
  cases hlive : t.isLive with
  | true => rfl
  | false =>
    rw [hrest hlive, hlive] at hl
    cases hl

variable {r : Remote σ} {settings : CyclingSettings}

/-- A later state of the controller never has an earlier generation. -/
theorem generation_le_of_begins {c : Controller} {command : Command} {t : Transition} {j : Job}
    (h : c.obey? command = some (t, some j)) : t.after.generation = c.generation + 1 := by
  rcases Controller.obey?_begins h with ⟨rfl, -, -⟩ | ⟨_, _, -, -, -, -, -, rfl⟩
  · rfl
  · rfl

theorem generation_le_of_ends {c : Controller} {command : Command} {t : Transition}
    (h : c.obey? command = some (t, none)) : c.generation ≤ t.after.generation := by
  rcases Controller.obey?_ends h with ⟨-, rfl⟩ | ⟨_, -, -, rfl⟩
  · exact Nat.le_succ _
  · exact Nat.le_refl _

theorem Step.later {e : Event} {s m : System σ} (h : Step r settings e s m) : Later s m := by
  cases h with
  | accept h =>
    have hg := generation_le_of_begins h
    exact (Later.perform s (by omega)).trans (Later.addCall _ _)
  | perform h => exact Later.perform s (generation_le_of_ends h)
  | refuse h =>
    split
    · exact Later.addCall s _
    · exact Later.refl s
  | @spawn _ id g j h =>
    refine (Later.setCall h (c := .pending g j (.spawned s.tasks.length)) ?_).trans ?_
    · intro g' j' stage' hc
      cases hc
      exact ⟨rfl, rfl⟩
    · exact ⟨rfl, Nat.le_refl _, Nat.le_refl _, fun h _ => h, fun h _ => ⟨_, h⟩,
        fun ht => ⟨_, getElem?_concat_eq_some.2 (.inl ht), rfl, rfl, fun _ => rfl⟩⟩
  | @track _ id g j task h =>
    refine (Later.adopt s (Nat.le_of_eq (Controller.generation_track _ g task).symm)).trans
      (Later.setCall (pending_adopt.2 h) ?_)
    intro g' j' stage' hc
    cases hc
    exact ⟨rfl, rfl⟩
  | @work _ id horizon task h _ =>
    refine ⟨rfl, Nat.le_refl _, Nat.le_refl _, fun h _ => h, fun h _ => ⟨_, h⟩, fun {k t} ht => ?_⟩
    by_cases hk : id = k
    · subst hk
      cases h.symm.trans ht
      refine ⟨_, List.getElem?_set_self (List.getElem?_eq_some_iff.1 h).1,
        Task.work_generation .., Task.work_job .., fun hl => ?_⟩
      rw [Task.work_of_not_live r settings horizon hl s.remote]
    · exact ⟨t, (List.getElem?_set_ne hk).trans ht, rfl, rfl, fun _ => rfl⟩
  | conclude h ht he =>
    exact (Later.perform s (Nat.le_refl _)).trans (Later.settle (pending_perform.2 h) rfl)
  | dismiss h => exact Later.settle h rfl
  | abandon h => exact Later.settle h rfl
  | aside observers next clock held =>
    exact ⟨rfl, Nat.le_refl _, Nat.le_refl _, fun h _ => h, fun h _ => ⟨_, h⟩,
      fun ht => ⟨_, ht, rfl, rfl, fun _ => rfl⟩⟩

theorem later_reap (s : System σ) : Later s s.reap := by
  rcases reap_cases s with h | ⟨-, h⟩
  · rw [h]
    exact Later.refl s
  · rw [h]
    exact Later.adopt s (Nat.le_refl _)

theorem later_apply (s : System σ) (e : Event) : Later s (s.apply r settings e) :=
  apply_of_step Step.later fun h => h.trans (later_reap _)

theorem later_run (s : System σ) (events : List Event) : Later s (s.run r settings events) := by
  induction events generalizing s with
  | nil => exact Later.refl s
  | cons e events ih => exact (later_apply s e).trans (ih _)

/-! ## How far a call comes -/

/-- How far a pending call may come in one step: on, with the task it has begun, or to its end, for which
there is a reason. -/
theorem Step.call {e : Event} {s m : System σ} (h : Step r settings e s m) {id : CallId}
    {g : Nat} {j : Job} {stage : CallStage} (hp : s.Pending id g j stage) :
    (∃ stage', m.Pending id g j stage' ∧
      ∀ task, stage.task? = some task → stage'.task? = some task) ∨
    (e = .deliver id ∧ m.calls[id]? = some .returned ∧ ∃ task t, stage = .waiting task ∧
      s.tasks[task]? = some t ∧ t.isLive = false) ∨
    (e = .abandon id ∧ m.calls[id]? = some .abandoned) := by
  have on {n : System σ} {k : CallId} {b c : Call} (hk : n.calls[k]? = some b) (hne : id ≠ k)
      (hn : n.Pending id g j stage) : ∃ stage', (n.setCall k c).Pending id g j stage' ∧
        ∀ task, stage.task? = some task → stage'.task? = some task :=
    ⟨stage, (pending_setCall hk).2 (.inl ⟨hne, hn⟩), fun _ hs => hs⟩
  cases h with
  | accept ho => exact .inl ⟨stage, pending_accept.2 (.inl hp), fun _ hs => hs⟩
  | perform ho => exact .inl ⟨stage, pending_perform.2 hp, fun _ hs => hs⟩
  | refuse ho => exact .inl ⟨stage, pending_refuse.2 hp, fun _ hs => hs⟩
  | @spawn _ k g' j' hk =>
    by_cases hne : id = k
    · subst hne
      obtain ⟨rfl, rfl, rfl⟩ := hp.unique hk
      refine .inl ⟨_, (pending_setCall hk).2 (.inr ⟨rfl, rfl⟩), fun task hs => ?_⟩
      cases hs
    · exact .inl (on hk hne hp)
  | @track _ k g' j' task hk =>
    by_cases hne : id = k
    · subst hne
      obtain ⟨rfl, rfl, rfl⟩ := hp.unique hk
      exact .inl ⟨_, (pending_setCall (pending_adopt.2 hk)).2 (.inr ⟨rfl, rfl⟩), fun _ hs => hs⟩
    · exact .inl (on (pending_adopt.2 hk) hne (pending_adopt.2 hp))
  | work ht => exact .inl ⟨stage, hp, fun _ hs => hs⟩
  | @conclude _ k j' task t time o hk ht he =>
    by_cases hne : id = k
    · subst hne
      obtain ⟨rfl, rfl, rfl⟩ := hp.unique hk
      refine .inr (.inl ⟨rfl, getElem?_setCall_self (pending_perform.2 hk) _, task, t, rfl, ht, ?_⟩)
      exact Task.isLive_of_end he
    · exact .inl (on (pending_perform.2 hk) hne (pending_perform.2 hp))
  | @dismiss _ k g' j' task t hk ht hl hg =>
    by_cases hne : id = k
    · subst hne
      obtain ⟨rfl, rfl, rfl⟩ := hp.unique hk
      exact .inr (.inl ⟨rfl, getElem?_setCall_self hk _, task, t, rfl, ht, hl⟩)
    · exact .inl (on hk hne hp)
  | @abandon _ k g' j' task hk =>
    by_cases hne : id = k
    · subst hne
      exact .inr (.inr ⟨rfl, getElem?_setCall_self hk _⟩)
    · exact .inl (on hk hne hp)
  | aside observers next clock held => exact .inl ⟨stage, hp, fun _ hs => hs⟩

theorem call_apply {s : System σ} {id : CallId} {g : Nat} {j : Job} {stage : CallStage}
    (hp : s.Pending id g j stage) (e : Event) : (∃ stage', (s.apply r settings e).Pending id g j stage' ∧
      ∀ task, stage.task? = some task → stage'.task? = some task) ∨
    (e = .deliver id ∧ (s.apply r settings e).calls[id]? = some .returned ∧ ∃ task t,
      stage = .waiting task ∧ s.tasks[task]? = some t ∧ t.isLive = false) ∨
    (e = .abandon id ∧ (s.apply r settings e).calls[id]? = some .abandoned) :=
  apply_of_step (fun hs => hs.call hp) fun {m} hm => by
    simp only [Pending, calls_reap] at hm ⊢
    exact hm

/-! ## Calls and tasks match -/

/-- Every pending call has a generation of its own, which is not ahead of the controller's; the task that
it has begun works for that generation, on the job of the call. -/
structure Matched (s : System σ) : Prop where
  generation_le : ∀ {id : CallId} {g : Nat} {j : Job} {stage : CallStage}, s.Pending id g j stage →
    g ≤ s.controller.generation
  alone : ∀ {id id' : CallId} {g : Nat} {j j' : Job} {stage stage' : CallStage},
    s.Pending id g j stage → s.Pending id' g j' stage' → id = id'
  begun : ∀ {id : CallId} {g : Nat} {j : Job} {stage : CallStage} {task : TaskId},
    s.Pending id g j stage → stage.task? = some task →
    ∃ t, s.tasks[task]? = some t ∧ t.generation = g ∧ t.job = j
  fits : ∀ {id : TaskId} {t : Task}, s.tasks[id]? = some t → t.Fits

namespace Matched

theorem init (remote : σ) (eager : Bool) : Matched { remote, eager } where
  generation_le h := by cases h
  alone h := by cases h
  begun h := by cases h
  fits h := by cases h

variable {s : System σ}

theorem adopt (h : s.Matched) {t : Transition} (hg : s.controller.generation ≤ t.after.generation) :
    (s.adopt t).Matched where
  generation_le hp := by
    rw [controller_adopt]
    exact Nat.le_trans (h.generation_le (pending_adopt.1 hp)) hg
  alone hp hp' := h.alone (pending_adopt.1 hp) (pending_adopt.1 hp')
  begun {id g j stage task} hp hs := by
    obtain ⟨t', ht', hg', hj'⟩ := h.begun (pending_adopt.1 hp) hs
    obtain ⟨u, hu, hgu, hju, -⟩ := (Later.adopt s hg).task ht'
    exact ⟨u, hu, hgu.trans hg', hju.trans hj'⟩
  fits {id u} hu := by
    rw [tasks_adopt, getElem?_tasks_stop] at hu
    split at hu
    · obtain ⟨t', ht', rfl⟩ := Option.map_eq_some_iff.1 hu
      exact Task.stop_fits (h.fits ht')
    · exact h.fits hu

theorem perform (h : s.Matched) {t : Transition} (hg : s.controller.generation ≤ t.after.generation) :
    (s.perform t).Matched :=
  have ha := h.adopt hg
  { generation_le := ha.generation_le, alone := ha.alone, begun := ha.begun, fits := ha.fits }

/-- A new call that begins no task yet is matched if its generation is new. -/
theorem addCall (h : s.Matched) {c : Call}
    (hc : ∀ {g : Nat} {j : Job} {stage : CallStage}, c = .pending g j stage →
      g = s.controller.generation ∧ stage = .accepted ∧
        ∀ id j' stage', ¬ s.Pending id g j' stage') : (s.addCall c).Matched where
  generation_le hp := by
    rcases pending_addCall.1 hp with hp | ⟨-, e⟩
    · exact h.generation_le hp
    · exact Nat.le_of_eq (hc e).1
  alone hp hp' := by
    rcases pending_addCall.1 hp with hp | ⟨rfl, e⟩
    · rcases pending_addCall.1 hp' with hp' | ⟨rfl, e'⟩
      · exact h.alone hp hp'
      · exact absurd hp ((hc e').2.2 _ _ _)
    · rcases pending_addCall.1 hp' with hp' | ⟨rfl, e'⟩
      · exact absurd hp' ((hc e).2.2 _ _ _)
      · rfl
  begun hp hs := by
    rcases pending_addCall.1 hp with hp | ⟨-, e⟩
    · exact h.begun hp hs
    · rw [(hc e).2.1] at hs
      cases hs
  fits hu := h.fits hu

/-- A pending call goes on, with a task that matches it, or does not wait any longer. -/
theorem setCall (h : s.Matched) {k : CallId} {g : Nat} {j : Job} {stage : CallStage}
    (hk : s.Pending k g j stage) {c : Call}
    (hc : ∀ {g' : Nat} {j' : Job} {stage' : CallStage}, c = .pending g' j' stage' →
      g' = g ∧ j' = j ∧ ∀ task, stage'.task? = some task →
        ∃ t, s.tasks[task]? = some t ∧ t.generation = g ∧ t.job = j) : (s.setCall k c).Matched where
  generation_le hp := by
    rcases (pending_setCall hk).1 hp with ⟨-, hp⟩ | ⟨-, e⟩
    · exact h.generation_le hp
    · rw [(hc e).1]
      exact h.generation_le hk
  alone hp hp' := by
    rcases (pending_setCall hk).1 hp with ⟨-, hq⟩ | ⟨rfl, e⟩
    · rcases (pending_setCall hk).1 hp' with ⟨-, hq'⟩ | ⟨rfl, e'⟩
      · exact h.alone hq hq'
      · rw [(hc e').1] at hq
        exact h.alone hq hk
    · rcases (pending_setCall hk).1 hp' with ⟨-, hq'⟩ | ⟨rfl, e'⟩
      · rw [(hc e).1] at hq'
        exact h.alone hk hq'
      · rfl
  begun hp hs := by
    rcases (pending_setCall hk).1 hp with ⟨-, hp⟩ | ⟨rfl, e⟩
    · exact h.begun hp hs
    · obtain ⟨rfl, rfl, ht⟩ := hc e
      exact ht _ hs
  fits hu := h.fits hu

/-- A call does not wait any longer. -/
theorem settle (h : s.Matched) {k : CallId} {g : Nat} {j : Job} {stage : CallStage}
    (hk : s.Pending k g j stage) {c : Call} (hc : c.isPending = false) : (s.setCall k c).Matched := by
  refine h.setCall hk ?_
  rintro g' j' stage' rfl
  cases hc

/-- A task is begun for a call. -/
theorem spawn (h : s.Matched) {id : CallId} {g : Nat} {j : Job} (hp : s.Pending id g j .accepted) :
    Matched { s.setCall id (.pending g j (.spawned s.tasks.length)) with
      tasks := s.tasks ++ [.begin settings s.clock g j] } := by
  -- the call may name its task only when the task is there, so the task comes first
  have hb : Matched { s with tasks := s.tasks ++ [.begin settings s.clock g j] } := {
    generation_le := h.generation_le
    alone := h.alone
    begun := fun hq hs => by
      obtain ⟨t, ht, hgj⟩ := h.begun hq hs
      exact ⟨t, getElem?_concat_eq_some.2 (.inl ht), hgj⟩
    fits := fun ht => by
      rcases getElem?_concat_eq_some.1 ht with ht | ⟨-, rfl⟩
      · exact h.fits ht
      · exact Task.begin_fits settings s.clock g j }
  refine hb.setCall hp ?_
  intro g' j' stage' e
  cases e
  refine ⟨rfl, rfl, ?_⟩
  intro task hs
  cases hs
  exact ⟨.begin settings s.clock g j, List.getElem?_concat_length .., rfl, rfl⟩

/-- The task of a call reports. -/
theorem track (h : s.Matched) {id : CallId} {g : Nat} {j : Job} {task : TaskId}
    (hp : s.Pending id g j (.spawned task)) :
    ((s.adopt (s.controller.track g task)).setCall id (.pending g j (.waiting task))).Matched := by
  have ha := h.adopt (Nat.le_of_eq (Controller.generation_track s.controller g task).symm)
  refine ha.setCall (pending_adopt.2 hp) ?_
  intro g' j' stage' e
  cases e
  refine ⟨rfl, rfl, ?_⟩
  intro task' hs
  cases hs
  exact ha.begun (pending_adopt.2 hp) rfl

/-- Two stages of one task are two stages of one call. -/
theorem same_call (h : s.Matched) {id id' : CallId} {g g' : Nat} {j j' : Job}
    {stage stage' : CallStage} {task : TaskId} (hp : s.Pending id g j stage)
    (hs : stage.task? = some task) (hp' : s.Pending id' g' j' stage')
    (hs' : stage'.task? = some task) : id = id' := by
  obtain ⟨t, ht, rfl, -⟩ := h.begun hp hs
  obtain ⟨t', ht', rfl, -⟩ := h.begun hp' hs'
  cases ht.symm.trans ht'
  exact h.alone hp hp'

theorem step (h : s.Matched) {e : Event} {m : System σ} (hm : Step r settings e s m) :
    m.Matched := by
  cases hm with
  | @accept _ command t j ho =>
    have hg := generation_le_of_begins ho
    refine (h.perform (by omega)).addCall ?_
    intro g j' stage e
    cases e
    refine ⟨by rw [controller_perform], rfl, ?_⟩
    intro id j'' stage'' hp
    have hle := h.generation_le (pending_perform.1 hp)
    omega
  | perform ho => exact h.perform (generation_le_of_ends ho)
  | refuse ho =>
    split
    · refine h.addCall ?_
      intro g j stage e
      cases e
    · exact h
  | spawn hp => exact h.spawn hp
  | track hp => exact h.track hp
  | @work _ id horizon task ht hturn =>
    have hs : Step r settings (.work id horizon) s _ := .work ht hturn
    refine ⟨h.generation_le, h.alone, ?_, ?_⟩
    · intro k g j stage task' hp hst
      obtain ⟨t, ht', hg, hj⟩ := h.begun hp hst
      obtain ⟨u, hu, hgu, hju, -⟩ := hs.later.task ht'
      exact ⟨u, hu, hgu.trans hg, hju.trans hj⟩
    · intro k t hk
      rcases List.mem_or_eq_of_mem_set (List.mem_of_getElem? hk) with hmem | rfl
      · obtain ⟨k', hk'⟩ := List.getElem?_of_mem hmem
        exact h.fits hk'
      · exact Task.work_fits r settings horizon (h.fits ht) s.remote
  | conclude hp ht he => exact (h.perform (Nat.le_refl _)).settle (pending_perform.2 hp) rfl
  | dismiss hp => exact h.settle hp rfl
  | abandon hp => exact h.settle hp rfl
  | aside observers next clock held =>
    exact ⟨h.generation_le, h.alone, h.begun, h.fits⟩

theorem reap (h : s.Matched) : s.reap.Matched := by
  rcases reap_cases s with e | ⟨-, e⟩
  · rw [e]
    exact h
  · rw [e]
    exact h.adopt (Nat.le_refl _)

theorem apply (h : s.Matched) (e : Event) : (s.apply r settings e).Matched :=
  apply_of_step h.step Matched.reap

end Matched

/-! ## Reports -/

variable {s : System σ}

/-- A task has not reported while its call is between beginning it and its report. -/
theorem hasReported_eq_false {task : TaskId} :
    s.hasReported task = false ↔ ∃ id g j, s.Pending id g j (.spawned task) := by
  rw [hasReported, List.all_eq_false]
  constructor
  · rintro ⟨c, hc, hn⟩
    obtain ⟨id, hid⟩ := List.getElem?_of_mem hc
    split at hn
    · rename_i g j task'
      have he : task' = task := by simpa using hn
      exact ⟨id, g, j, he ▸ hid⟩
    · exact absurd rfl hn
  · rintro ⟨id, g, j, hp⟩
    exact ⟨_, List.mem_of_getElem? hp, by simp⟩

/-- A task has reported when its call waits for it. -/
theorem hasReported_of_waiting (hm : s.Matched) {id : CallId} {g : Nat} {j : Job} {task : TaskId}
    (hp : s.Pending id g j (.waiting task)) : s.hasReported task = true := by
  rw [← Bool.not_eq_false, hasReported_eq_false]
  rintro ⟨id', g', j', hp'⟩
  cases hm.same_call hp rfl hp' rfl
  cases (hp.unique hp').2.2

end WindowSurvey.System
