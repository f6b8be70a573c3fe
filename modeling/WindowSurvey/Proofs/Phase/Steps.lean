import WindowSurvey.Proofs.Phase.Table
import WindowSurvey.Proofs.Phase.Tasks
/-!
# What one step can do

The steps of a system, each said once with everything it may change and the condition under which it is
taken. Every invariant is then proved by looking at these cases, and no such proof unfolds a step again.

## Main definitions

* `Controller.obey?` — what a command does, for all commands alike
* `System.Pending`, `System.ended?` — a call whose caller still waits, and the end it may take notice of
* `System.Step` — the cases of a step
* `System.apply_step` — every event is one of these cases, perhaps with a last look at who holds the
  controller
-/

namespace WindowSurvey

/-! ## Commands and outcomes -/

namespace Controller

/-- What a command does: the transition, and the job for which a task is then begun. Nothing when the
command is ignored. -/
def obey? (c : Controller) : Command → Option (Transition × Option Job)
  | .start => c.start?.map (·, some .detection)
  | .restart => some (c.restart, some .detection)
  | .select regions => (c.select? regions).map (·, none)
  | .navigate index =>
    (c.navigate? index).map fun (t, cycles) => (t, some (.navigation index cycles))
  | .exit => some (c.exit, none)

/-- The snapshot after the user has confirmed a selection. -/
def pickedSnapshot (s : Snapshot) (regions : List Region) : Snapshot :=
  if regions.isEmpty then { errorMessage := Failure.emptySelection.message }
  else { s with phase := .navigating, selected := regions, currentIndex := 0 }

/-- The snapshot after an outcome that is still wanted. -/
def finishedSnapshot (s : Snapshot) : Outcome → Snapshot
  | .detected result => detectedSnapshot result
  | .switched index result => navigatedSnapshot s index result

theorem select?_eq_some {c : Controller} {regions : List Region} {t : Transition} :
    c.select? regions = some t ↔ c.snapshot.phase = .selecting ∧
      t = { after := { c with snapshot := pickedSnapshot c.snapshot regions } } := by
  rw [select?, pickedSnapshot]
  split
  · rename_i h
    simp only [Option.some.injEq, h, true_and]
    exact eq_comm
  · rename_i h
    simp only [reduceCtorEq, h, false_and]

theorem navigate?_eq_some {c : Controller} {index cycles : Nat} {t : Transition} :
    c.navigate? index = some (t, cycles) ↔
      c.snapshot.phase = .navigating ∧ c.snapshot.processing = false ∧
      (∃ region, c.snapshot.selected[index]? = some region ∧ cycles = region.cycle) ∧
      t = { after := { c with
        snapshot := { c.snapshot with processing := true, errorMessage := "" }
        generation := c.generation + 1 } } := by
  by_cases h : c.snapshot.phase = .navigating ∧ c.snapshot.processing = false
  · cases hr : c.snapshot.selected[index]? with
    | none => simp [navigate?, h, Navigation.cycles, hr]
    | some region => simp [navigate?, h, Navigation.cycles, hr, eq_comm, and_comm]
  · simp only [navigate?, if_neg h]
    constructor
    · intro e
      cases e
    · intro e
      exact absurd ⟨e.1, e.2.1⟩ h

/-- A command after which a task is begun is a detection run that gives up all other work, or a switch
of windows that begins while nothing is going on. -/
theorem obey?_begins {c : Controller} {command : Command} {t : Transition} {j : Job}
    (h : c.obey? command = some (t, some j)) :
    (t = c.beginDetection ∧ j = .detection ∧
      (command = .start ∧ c.snapshot.phase = .normal ∨ command = .restart)) ∨
    ∃ index region, command = .navigate index ∧ c.snapshot.phase = .navigating ∧
      c.snapshot.processing = false ∧ c.snapshot.selected[index]? = some region ∧
      j = .navigation index region.cycle ∧
      t = { after := { c with
        snapshot := { c.snapshot with processing := true, errorMessage := "" }
        generation := c.generation + 1 } } := by
  cases command with
  | start =>
    by_cases hp : c.snapshot.phase = .normal
    · simp only [obey?, start?, if_pos hp, Option.map_some, Option.some.injEq, Prod.mk.injEq] at h
      exact .inl ⟨h.1.symm, h.2.symm, .inl ⟨rfl, hp⟩⟩
    · simp [obey?, start?, hp] at h
  | restart =>
    simp only [obey?, Option.some.injEq, Prod.mk.injEq] at h
    exact .inl ⟨h.1.symm, h.2.symm, .inr rfl⟩
  | navigate index =>
    simp only [obey?, Option.map_eq_some_iff, Prod.exists, Prod.mk.injEq, Option.some.injEq] at h
    obtain ⟨t, cycles, hn, rfl, rfl⟩ := h
    obtain ⟨hp, hb, ⟨region, hr, rfl⟩, ht⟩ := navigate?_eq_some.1 hn
    exact .inr ⟨index, region, rfl, hp, hb, hr, rfl, ht⟩
  | select regions => simp [obey?] at h
  | exit => simp [obey?] at h

/-- A command that begins no task leaves the flow, or confirms a selection. -/
theorem obey?_ends {c : Controller} {command : Command} {t : Transition}
    (h : c.obey? command = some (t, none)) :
    (command = .exit ∧ t = c.exit) ∨
    ∃ regions, command = .select regions ∧ c.snapshot.phase = .selecting ∧
      t = { after := { c with snapshot := pickedSnapshot c.snapshot regions } } := by
  cases command with
  | exit =>
    simp only [obey?, Option.some.injEq, Prod.mk.injEq, and_true] at h
    exact .inl ⟨rfl, h.symm⟩
  | select regions =>
    simp only [obey?, Option.map_eq_some_iff, Prod.mk.injEq, and_true, exists_eq_right] at h
    exact .inr ⟨regions, rfl, select?_eq_some.1 h⟩
  | start => simp [obey?] at h
  | restart => simp [obey?] at h
  | navigate index => simp [obey?] at h

/-- An outcome is taken notice of exactly when its generation has not passed. -/
theorem finish?_eq_some {c : Controller} {generation : Nat} {o : Outcome} {t : Transition} :
    c.finish? generation o = some t ↔ c.generation = generation ∧
      t = { after := { c with inFlight := none, snapshot := finishedSnapshot c.snapshot o } } := by
  by_cases h : c.generation = generation
  · cases o <;> simp [finish?, finishDetection?, finishNavigation?, h, finishedSnapshot, eq_comm]
  · cases o <;> simp [finish?, finishDetection?, finishNavigation?, h]

/-- A report in time puts the task in flight. -/
theorem track_of_eq {c : Controller} {g : Nat} (h : c.generation = g) (task : TaskId) :
    c.track g task = { after := { c with inFlight := some task } } := if_pos h

/-- A task that reports too late is stopped. -/
theorem track_of_ne {c : Controller} {g : Nat} (h : c.generation ≠ g) (task : TaskId) :
    c.track g task = { after := c, stops := some task } := if_neg h

/-- A report concerns the task in flight only. -/
theorem snapshot_track (c : Controller) (g : Nat) (task : TaskId) :
    (c.track g task).after.snapshot = c.snapshot := by
  by_cases h : c.generation = g
  · rw [track_of_eq h]
  · rw [track_of_ne h]

theorem generation_track (c : Controller) (g : Nat) (task : TaskId) :
    (c.track g task).after.generation = c.generation := by
  by_cases h : c.generation = g
  · rw [track_of_eq h]
  · rw [track_of_ne h]

/-- Nobody holds the controller any more: the task in flight stops. -/
def letGo (c : Controller) : Transition where
  after := { c with inFlight := none }
  stops := c.inFlight

theorem pickedSnapshot_processing {s : Snapshot} (h : s.processing = false) (regions : List Region) :
    (pickedSnapshot s regions).processing = false := by
  rw [pickedSnapshot]
  split
  · rfl
  · exact h

theorem finishedSnapshot_processing (s : Snapshot) (o : Outcome) :
    (finishedSnapshot s o).processing = false := by
  cases o with
  | detected result => rcases result with failure | ⟨_ | _⟩ <;> rfl
  | switched index result => cases result <;> rfl

end Controller

/-! ## Parts of a step -/

/-- The task of a call that has begun it. -/
def CallStage.task? : CallStage → Option TaskId
  | accepted => none
  | spawned task => some task
  | waiting task => some task

/-- An entry of a list with one more at its end. -/
theorem getElem?_concat_eq_some {α : Type} {l : List α} {a b : α} {i : Nat} :
    (l ++ [a])[i]? = some b ↔ l[i]? = some b ∨ (i = l.length ∧ a = b) := by
  rcases Nat.lt_trichotomy i l.length with h | h | h
  · simp [List.getElem?_append_left h, Nat.ne_of_lt h]
  · simp [h]
  · have hl : l.length ≤ i := Nat.le_of_lt h
    simp [List.getElem?_append_right hl, List.getElem?_eq_none hl, Nat.ne_of_gt h,
      Nat.sub_ne_zero_of_lt h]

/-- Replacing an entry is not noticed by a map that does not tell the two apart. -/
theorem map_set_of_eq {α β : Type} {f : α → β} {l : List α} {i : Nat} {a b : α} (h : l[i]? = some a)
    (hf : f b = f a) : (l.set i b).map f = l.map f := by
  refine List.ext_getElem? fun n => ?_
  rw [List.getElem?_map, List.getElem?_map]
  by_cases hn : i = n
  · subst hn
    rw [List.getElem?_set_self (List.getElem?_eq_some_iff.1 h).1, h, Option.map_some, Option.map_some, hf]
  · rw [List.getElem?_set_ne hn]

namespace System

variable {σ : Type}

/-- A call whose caller still waits: the command was accepted as the given generation, its job is `j`, and
it is as far as the stage says. -/
def Pending (s : System σ) (id : CallId) (generation : Nat) (j : Job) (stage : CallStage) : Prop :=
  s.calls[id]? = some (.pending generation j stage)

/-- The outcome that a waiting call may take notice of. -/
def ended? (s : System σ) (id : CallId) : Option Outcome :=
  match s.calls[id]? with
  | some (.pending _ _ (.waiting task)) => (s.tasks[task]?.bind Task.end?).map (·.2)
  | _ => none

theorem ended?_eq {s : System σ} {id : CallId} {g : Nat} {j : Job} {task : TaskId}
    (h : s.Pending id g j (.waiting task)) :
    s.ended? id = (s.tasks[task]?.bind Task.end?).map (·.2) := by
  have hc : s.calls[id]? = some (.pending g j (.waiting task)) := h
  simp only [ended?, hc]

theorem ended?_eq_some {s : System σ} {id : CallId} {g : Nat} {j : Job} {task : TaskId} {t : Task}
    {time : Nat} {o : Outcome} (h : s.Pending id g j (.waiting task))
    (ht : s.tasks[task]? = some t) (he : t.end? = some (time, o)) : s.ended? id = some o := by
  rw [ended?_eq h, ht, Option.bind_some, he, Option.map_some]

@[simp] theorem controller_stop (s : System σ) (o : Option TaskId) :
    (s.stop o).controller = s.controller := by cases o <;> rfl

@[simp] theorem calls_stop (s : System σ) (o : Option TaskId) : (s.stop o).calls = s.calls := by
  cases o <;> rfl

@[simp] theorem notes_stop (s : System σ) (o : Option TaskId) : (s.stop o).notes = s.notes := by
  cases o <;> rfl

@[simp] theorem remote_stop (s : System σ) (o : Option TaskId) : (s.stop o).remote = s.remote := by
  cases o <;> rfl

@[simp] theorem eager_stop (s : System σ) (o : Option TaskId) : (s.stop o).eager = s.eager := by
  cases o <;> rfl

@[simp] theorem length_tasks_stop (s : System σ) (o : Option TaskId) :
    (s.stop o).tasks.length = s.tasks.length := by
  cases o with
  | none => rfl
  | some task => exact List.length_modify ..

/-- Stopping concerns one task only. -/
theorem getElem?_tasks_stop (s : System σ) (o : Option TaskId) (task : TaskId) :
    (s.stop o).tasks[task]? =
      if o = some task then s.tasks[task]?.map Task.stop else s.tasks[task]? := by
  cases o with
  | none => rfl
  | some stopped =>
    by_cases h : stopped = task
    · simp [stop, h]
    · simp [stop, h]

theorem map_job_stop (s : System σ) (o : Option TaskId) :
    (s.stop o).tasks.map Task.job = s.tasks.map Task.job := by
  refine List.ext_getElem? fun i => ?_
  rw [List.getElem?_map, List.getElem?_map, getElem?_tasks_stop]
  split
  · rw [Option.map_map]
    exact congrArg (Option.map · _) (funext Task.stop_job)
  · rfl

/-- A task that is live after something was stopped is another one, and is as it was. -/
theorem of_live_stop {s : System σ} {o : Option TaskId} {task : TaskId} {t : Task}
    (ht : (s.stop o).tasks[task]? = some t) (hl : t.isLive = true) :
    o ≠ some task ∧ s.tasks[task]? = some t := by
  rw [getElem?_tasks_stop] at ht
  by_cases ho : o = some task
  · rw [if_pos ho] at ht
    obtain ⟨t', -, rfl⟩ := Option.map_eq_some_iff.1 ht
    rw [Task.stop_isLive] at hl
    cases hl
  · rw [if_neg ho] at ht
    exact ⟨ho, ht⟩

/-- Stopping changes nothing when all tasks are at rest. -/
theorem tasks_stop_of_rest {s : System σ}
    (h : ∀ {task : TaskId} {t : Task}, s.tasks[task]? = some t → t.isLive = false)
    (o : Option TaskId) : (s.stop o).tasks = s.tasks := by
  refine List.ext_getElem? fun i => ?_
  rw [getElem?_tasks_stop]
  split
  · cases ht : s.tasks[i]? with
    | none => rfl
    | some t => rw [Option.map_some, Task.stop_of_not_live (h ht)]
  · rfl

@[simp] theorem controller_adopt (s : System σ) (t : Transition) :
    (s.adopt t).controller = t.after := controller_stop _ _

@[simp] theorem calls_adopt (s : System σ) (t : Transition) : (s.adopt t).calls = s.calls :=
  calls_stop _ _

@[simp] theorem notes_adopt (s : System σ) (t : Transition) : (s.adopt t).notes = s.notes :=
  notes_stop _ _

@[simp] theorem remote_adopt (s : System σ) (t : Transition) : (s.adopt t).remote = s.remote :=
  remote_stop _ _

@[simp] theorem eager_adopt (s : System σ) (t : Transition) : (s.adopt t).eager = s.eager :=
  eager_stop _ _

@[simp] theorem tasks_adopt (s : System σ) (t : Transition) :
    (s.adopt t).tasks = (s.stop t.stops).tasks := by
  rw [adopt]
  cases t.stops <;> rfl

@[simp] theorem controller_perform (s : System σ) (t : Transition) :
    (s.perform t).controller = t.after := controller_adopt s t

@[simp] theorem calls_perform (s : System σ) (t : Transition) : (s.perform t).calls = s.calls :=
  calls_adopt s t

@[simp] theorem tasks_perform (s : System σ) (t : Transition) :
    (s.perform t).tasks = (s.stop t.stops).tasks := tasks_adopt s t

@[simp] theorem remote_perform (s : System σ) (t : Transition) : (s.perform t).remote = s.remote :=
  remote_adopt s t

@[simp] theorem notes_perform (s : System σ) (t : Transition) :
    (s.perform t).notes = s.notes ++ t.after.notes := by
  simp [perform]

@[simp] theorem calls_addCall (s : System σ) (c : Call) : (s.addCall c).calls = s.calls ++ [c] := rfl

@[simp] theorem calls_setCall (s : System σ) (k : CallId) (c : Call) :
    (s.setCall k c).calls = s.calls.set k c := rfl

@[simp] theorem controller_setCall (s : System σ) (k : CallId) (c : Call) :
    (s.setCall k c).controller = s.controller := rfl

@[simp] theorem tasks_setCall (s : System σ) (k : CallId) (c : Call) :
    (s.setCall k c).tasks = s.tasks := rfl

@[simp] theorem notes_setCall (s : System σ) (k : CallId) (c : Call) :
    (s.setCall k c).notes = s.notes := rfl

@[simp] theorem controller_accept (s : System σ) (t : Transition) (j : Job) :
    (s.accept t j).controller = t.after := controller_perform s t

@[simp] theorem calls_accept (s : System σ) (t : Transition) (j : Job) :
    (s.accept t j).calls = s.calls ++ [.pending t.after.generation j .accepted] := by
  rw [accept, calls_addCall, calls_perform]

@[simp] theorem tasks_accept (s : System σ) (t : Transition) (j : Job) :
    (s.accept t j).tasks = (s.stop t.stops).tasks := tasks_perform s t

@[simp] theorem remote_accept (s : System σ) (t : Transition) (j : Job) :
    (s.accept t j).remote = s.remote := remote_perform s t

@[simp] theorem notes_accept (s : System σ) (t : Transition) (j : Job) :
    (s.accept t j).notes = s.notes ++ t.after.notes := notes_perform s t

@[simp] theorem pending_adopt {s : System σ} {t : Transition} {id : CallId} {g : Nat} {j : Job}
    {stage : CallStage} : (s.adopt t).Pending id g j stage ↔ s.Pending id g j stage := by
  rw [Pending, Pending, calls_adopt]

@[simp] theorem pending_perform {s : System σ} {t : Transition} {id : CallId} {g : Nat} {j : Job}
    {stage : CallStage} : (s.perform t).Pending id g j stage ↔ s.Pending id g j stage :=
  pending_adopt

theorem pending_addCall {s : System σ} {c : Call} {id : CallId} {g : Nat} {j : Job}
    {stage : CallStage} : (s.addCall c).Pending id g j stage ↔
      s.Pending id g j stage ∨ (id = s.calls.length ∧ c = .pending g j stage) :=
  getElem?_concat_eq_some

/-- The call of an accepted command is pending from then on. -/
theorem pending_accept {s : System σ} {t : Transition} {j j' : Job} {id : CallId} {g : Nat}
    {stage : CallStage} : (s.accept t j).Pending id g j' stage ↔ s.Pending id g j' stage ∨
      (id = s.calls.length ∧ g = t.after.generation ∧ j' = j ∧ stage = .accepted) := by
  rw [accept, pending_addCall, pending_perform, calls_perform, Call.pending.injEq,
    @eq_comm _ t.after.generation, @eq_comm _ j, @eq_comm _ CallStage.accepted]

theorem pending_setCall {s : System σ} {k : CallId} {b c : Call} (hk : s.calls[k]? = some b)
    {id : CallId} {g : Nat} {j : Job} {stage : CallStage} :
    (s.setCall k c).Pending id g j stage ↔
      (id ≠ k ∧ s.Pending id g j stage) ∨ (id = k ∧ c = .pending g j stage) := by
  have hlt : k < s.calls.length := (List.getElem?_eq_some_iff.1 hk).1
  rw [Pending, Pending, calls_setCall]
  by_cases h : id = k
  · subst h
    simp [hlt]
  · simp [List.getElem?_set_ne (Ne.symm h), h]

/-- When a call does not wait any longer, the others go on as they are. -/
theorem pending_of_settled {s : System σ} {k : CallId} {b c : Call} (hk : s.calls[k]? = some b)
    (hc : c.isPending = false) {id : CallId} {g : Nat} {j : Job} {stage : CallStage}
    (hp : (s.setCall k c).Pending id g j stage) : id ≠ k ∧ s.Pending id g j stage := by
  rcases (pending_setCall hk).1 hp with h | ⟨-, rfl⟩
  · exact h
  · cases hc

/-! A command that is ignored changes nothing but the calls. -/

section Refuse

variable {s : System σ} {command : Command}

@[simp] theorem controller_refuse :
    (if command.isCall then s.addCall .refused else s).controller = s.controller := by
  split <;> rfl

@[simp] theorem tasks_refuse :
    (if command.isCall then s.addCall .refused else s).tasks = s.tasks := by
  split <;> rfl

@[simp] theorem remote_refuse :
    (if command.isCall then s.addCall .refused else s).remote = s.remote := by
  split <;> rfl

@[simp] theorem notes_refuse :
    (if command.isCall then s.addCall .refused else s).notes = s.notes := by
  split <;> rfl

@[simp] theorem pending_refuse {id : CallId} {g : Nat} {j : Job} {stage : CallStage} :
    (if command.isCall then s.addCall .refused else s).Pending id g j stage ↔
      s.Pending id g j stage := by
  split
  · simp [pending_addCall]
  · rfl

end Refuse

theorem getElem?_setCall_self {s : System σ} {k : CallId} {b : Call} (hk : s.calls[k]? = some b)
    (c : Call) : (s.setCall k c).calls[k]? = some c :=
  List.getElem?_set_self (List.getElem?_eq_some_iff.1 hk).1

theorem Pending.lt {s : System σ} {id : CallId} {g : Nat} {j : Job} {stage : CallStage}
    (h : s.Pending id g j stage) : id < s.calls.length := (List.getElem?_eq_some_iff.1 h).1

/-- A call is at one point only. -/
theorem Pending.unique {s : System σ} {id : CallId} {g g' : Nat} {j j' : Job}
    {stage stage' : CallStage} (h : s.Pending id g j stage) (h' : s.Pending id g' j' stage') :
    g = g' ∧ j = j' ∧ stage = stage' := by
  have e := h.symm.trans h'
  simpa only [Option.some.injEq, Call.pending.injEq] using e

theorem any_isPending {s : System σ} :
    s.calls.any Call.isPending = false ↔ ∀ id g j stage, ¬ s.Pending id g j stage := by
  rw [List.any_eq_false]
  constructor
  · intro h id g j stage hp
    exact h _ (List.mem_of_getElem? hp) rfl
  · intro h c hc hp
    obtain ⟨id, hid⟩ := List.getElem?_of_mem hc
    cases c with
    | pending g j stage => exact h id g j stage hid
    | refused => cases hp
    | returned => cases hp
    | abandoned => cases hp

/-! ## The cases of a step -/

/-- One case of a step: an event, the state in which it comes, and the state after it. -/
inductive Step (r : Remote σ) (settings : CyclingSettings) : Event → System σ → System σ → Prop where
  /-- A command is accepted, and a task is to be begun for it. -/
  | accept {s : System σ} {command : Command} {t : Transition} {j : Job}
      (h : s.controller.obey? command = some (t, some j)) :
      Step r settings (.issue command) s (s.accept t j)
  /-- A command is accepted that needs no task. -/
  | perform {s : System σ} {command : Command} {t : Transition}
      (h : s.controller.obey? command = some (t, none)) :
      Step r settings (.issue command) s (s.perform t)
  /-- A command is ignored; its caller, if it has one, is told so. -/
  | refuse {s : System σ} {command : Command} (h : s.controller.obey? command = none) :
      Step r settings (.issue command) s (if command.isCall then s.addCall .refused else s)
  /-- The task of an accepted command is begun. -/
  | spawn {s : System σ} {id : CallId} {g : Nat} {j : Job} (h : s.Pending id g j .accepted) :
      Step r settings (.spawn id) s
        { s.setCall id (.pending g j (.spawned s.tasks.length)) with
          tasks := s.tasks ++ [.begin settings s.clock g j] }
  /-- A task that was begun reports to the controller. -/
  | track {s : System σ} {id : CallId} {g : Nat} {j : Job} {task : TaskId}
      (h : s.Pending id g j (.spawned task)) :
      Step r settings (.track id) s
        ((s.adopt (s.controller.track g task)).setCall id (.pending g j (.waiting task)))
  /-- A task has a turn. -/
  | work {s : System σ} {id : TaskId} {horizon : Option Nat} {task : Task}
      (h : s.tasks[id]? = some task) (ht : s.eager = true ∨ s.hasReported id = true) :
      Step r settings (.work id horizon) s
        { s with
          tasks := s.tasks.set id (task.work r settings horizon s.remote).1
          remote := (task.work r settings horizon s.remote).2 }
  /-- A call takes notice of an outcome that is still wanted. -/
  | conclude {s : System σ} {id : CallId} {j : Job} {task : TaskId} {t : Task} {time : Nat}
      {o : Outcome} (h : s.Pending id s.controller.generation j (.waiting task))
      (ht : s.tasks[task]? = some t) (he : t.end? = some (time, o)) :
      Step r settings (.deliver id) s
        ((s.perform { after := { s.controller with
          inFlight := none
          snapshot := Controller.finishedSnapshot s.controller.snapshot o } }).setCall id .returned)
  /-- A call returns without a change: its task was stopped, or the outcome is out of date. -/
  | dismiss {s : System σ} {id : CallId} {g : Nat} {j : Job} {task : TaskId} {t : Task}
      (h : s.Pending id g j (.waiting task)) (ht : s.tasks[task]? = some t)
      (hl : t.isLive = false) (hg : g = s.controller.generation → t.end? = none) :
      Step r settings (.deliver id) s (s.setCall id .returned)
  /-- A caller gives up waiting. -/
  | abandon {s : System σ} {id : CallId} {g : Nat} {j : Job} {task : TaskId}
      (h : s.Pending id g j (.waiting task)) :
      Step r settings (.abandon id) s (s.setCall id .abandoned)
  /-- Nothing happens that concerns commands, calls or tasks. -/
  | aside {s : System σ} {e : Event} (observers : List ObserverId) (next : ObserverId) (clock : Nat)
      (held : Bool) (hi : ∀ command, e ≠ .issue command)
      (hd : ∀ id, e = .deliver id → s.ended? id = none) :
      Step r settings e s
        { s with
          controller := { s.controller with observers := observers, nextObserver := next }
          clock := clock
          held := held }

/-- A snapshot changes when a command is obeyed, and when a call takes notice of an outcome. -/
theorem Step.snapshot {r : Remote σ} {settings : CyclingSettings} {e : Event} {s m : System σ}
    (h : Step r settings e s m) : m.controller.snapshot = s.controller.snapshot ∨
    (∃ command t j, e = .issue command ∧ s.controller.obey? command = some (t, j) ∧
      m.controller.snapshot = t.after.snapshot) ∨
    ∃ id j task t time o, s.Pending id s.controller.generation j (.waiting task) ∧
      s.tasks[task]? = some t ∧ t.end? = some (time, o) ∧
      m.controller.snapshot = Controller.finishedSnapshot s.controller.snapshot o := by
  cases h with
  | accept h => exact .inr (.inl ⟨_, _, _, rfl, h, by rw [controller_accept]⟩)
  | perform h => exact .inr (.inl ⟨_, _, _, rfl, h, by rw [controller_perform]⟩)
  | refuse h => exact .inl (by rw [controller_refuse])
  | spawn h => exact .inl rfl
  | track h => exact .inl (by rw [controller_setCall, controller_adopt, Controller.snapshot_track])
  | work h ht => exact .inl rfl
  | conclude h ht he => exact .inr (.inr ⟨_, _, _, _, _, _, h, ht, he, rfl⟩)
  | dismiss h => exact .inl rfl
  | abandon h => exact .inl rfl
  | aside observers next clock held => exact .inl rfl

/-- All commands are given alike. -/
theorem issue_eq (s : System σ) (command : Command) :
    s.issue command = match s.controller.obey? command with
      | some (t, some j) => s.accept t j
      | some (t, none) => s.perform t
      | none => if command.isCall then s.addCall .refused else s := by
  cases command with
  | start => cases h : s.controller.start? <;> simp [issue, Controller.obey?, Command.isCall, h]
  | restart => rfl
  | select regions =>
    cases h : s.controller.select? regions <;> simp [issue, Controller.obey?, Command.isCall, h]
  | navigate index =>
    cases h : s.controller.navigate? index <;> simp [issue, Controller.obey?, Command.isCall, h]
  | exit => rfl

variable (r : Remote σ) (settings : CyclingSettings)

theorem Step.idle {s : System σ} {e : Event} (hi : ∀ command, e ≠ .issue command)
    (hd : ∀ id, e = .deliver id → s.ended? id = none) : Step r settings e s s :=
  .aside s.controller.observers s.controller.nextObserver s.clock s.held hi hd

theorem issue_step (s : System σ) (command : Command) :
    Step r settings (.issue command) s (s.issue command) := by
  rw [issue_eq]
  split
  next t j h => exact .accept h
  next t h => exact .perform h
  next h => exact .refuse h

theorem deliver_step (s : System σ) (id : CallId) :
    Step r settings (.deliver id) s (s.deliver id) := by
  have idle (h : s.ended? id = none) : Step r settings (.deliver id) s s :=
    .idle r settings (fun _ e => by cases e) (fun _ e => by cases e; exact h)
  rw [deliver]
  split
  · rename_i g j task hc
    split
    · rename_i t ht
      split
      · rename_i time o he
        split
        · rename_i tr hf
          obtain ⟨rfl, rfl⟩ := Controller.finish?_eq_some.1 hf
          exact .conclude hc ht he
        · rename_i hf
          refine .dismiss hc ht (by simp [Task.isLive, he]) fun hg => ?_
          have hw := (Controller.finish?_eq_some (o := o)).2 ⟨hg.symm, rfl⟩
          rw [hf] at hw
          cases hw
      · rename_i he
        split
        · rename_i hs
          exact .dismiss hc ht (by simp [Task.isLive, hs]) fun _ => he
        · exact idle (by rw [ended?_eq hc, ht, Option.bind_some, he]; rfl)
    · rename_i ht
      exact idle (by rw [ended?_eq hc, ht]; rfl)
  · rename_i hc
    refine idle ?_
    rw [ended?]
    split
    · rename_i g j task h
      exact absurd h (hc g j task)
    · rfl

/-- Every event is one of the cases; after some of them the controller is given back when nobody holds
it any more. -/
theorem apply_step (s : System σ) (e : Event) : ∃ m, Step r settings e s m ∧
    (s.apply r settings e = m ∨ s.apply r settings e = m.reap) := by
  cases e with
  | issue command => exact ⟨_, issue_step r settings s command, .inl rfl⟩
  | spawn id =>
    simp only [apply]
    split
    · rename_i g j h
      exact ⟨_, .spawn h, .inl rfl⟩
    · exact ⟨s, .idle r settings (fun _ e => by cases e) (fun _ e => by cases e), .inl rfl⟩
  | track id =>
    simp only [apply]
    split
    · rename_i g j task h
      exact ⟨_, .track h, .inl rfl⟩
    · exact ⟨s, .idle r settings (fun _ e => by cases e) (fun _ e => by cases e), .inl rfl⟩
  | work id horizon =>
    have idle : Step r settings (.work id horizon) s s :=
      .idle r settings (fun _ e => by cases e) (fun _ e => by cases e)
    simp only [apply]
    split
    · rename_i task h
      split
      · rename_i hr
        exact ⟨_, .work h (by simpa using hr), .inl rfl⟩
      · exact ⟨s, idle, .inl rfl⟩
    · exact ⟨s, idle, .inl rfl⟩
  | deliver id => exact ⟨_, deliver_step r settings s id, .inr rfl⟩
  | abandon id =>
    simp only [apply]
    split
    · rename_i g j task h
      exact ⟨_, .abandon h, .inr rfl⟩
    · exact ⟨s, .idle r settings (fun _ e => by cases e) (fun _ e => by cases e), .inl rfl⟩
  | subscribe =>
    exact ⟨_, .aside _ _ s.clock s.held (fun _ e => by cases e) (fun _ e => by cases e), .inl rfl⟩
  | unsubscribe observer =>
    exact ⟨_, .aside _ _ s.clock s.held (fun _ e => by cases e) (fun _ e => by cases e), .inl rfl⟩
  | pass milliseconds =>
    exact ⟨_, .aside _ _ _ s.held (fun _ e => by cases e) (fun _ e => by cases e), .inl rfl⟩
  | release =>
    exact ⟨_, .aside _ _ s.clock false (fun _ e => by cases e) (fun _ e => by cases e), .inr rfl⟩

/-- What all cases of an event lead to is true after it, if it does not matter who holds the controller. -/
theorem apply_of_step {r : Remote σ} {settings : CyclingSettings} {P : System σ → Prop} {s : System σ}
    {e : Event} (hs : ∀ {m : System σ}, Step r settings e s m → P m)
    (hr : ∀ {m : System σ}, P m → P m.reap) : P (s.apply r settings e) := by
  obtain ⟨m, hm, he | he⟩ := apply_step r settings s e
  · rw [he]
    exact hs hm
  · rw [he]
    exact hr (hs hm)

/-- Giving the controller back changes something only when no caller waits: then no task is in flight
any more. -/
theorem reap_cases (s : System σ) : s.reap = s ∨
    ((∀ id g j stage, ¬ s.Pending id g j stage) ∧ s.reap = s.adopt s.controller.letGo) := by
  rw [reap]
  split
  · exact .inl rfl
  · rename_i h
    simp only [Bool.or_eq_true, not_or, Bool.not_eq_true] at h
    exact .inr ⟨any_isPending.1 h.2, rfl⟩

@[simp] theorem calls_reap (s : System σ) : s.reap.calls = s.calls := by
  rcases reap_cases s with h | ⟨-, h⟩
  · rw [h]
  · rw [h, calls_adopt]

theorem snapshot_reap (s : System σ) : s.reap.controller.snapshot = s.controller.snapshot := by
  rcases reap_cases s with h | ⟨-, h⟩
  · rw [h]
  · rw [h, controller_adopt]
    rfl

/-! ## Runs -/

theorem run_append (s : System σ) (first second : List Event) :
    s.run r settings (first ++ second) = (s.run r settings first).run r settings second :=
  List.foldl_append

theorem run_cons (s : System σ) (e : Event) (events : List Event) :
    s.run r settings (e :: events) = (s.apply r settings e).run r settings events := rfl

end System

end WindowSurvey
