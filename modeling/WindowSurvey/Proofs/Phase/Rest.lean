import WindowSurvey.Phase.Schedule
import WindowSurvey.Proofs.Phase.Steps
/-!
# Commands given one after the other

A system is at rest when no caller waits and no task works. Nothing happens in it before the next command. A
caller who gives a command to a system at rest and waits for its end finds it at rest again, and what was done
meanwhile is what the command does and what its task brings.

## Main definitions

* `System.AtRest` — no caller waits, and no task works
* `System.attend` — give a command, and wait for its end

## Main statements

* `System.attend_of_begins` — a command whose task comes to an end
* `System.attend_of_ends`, `System.attend_of_refused` — a command that needs no task, or is ignored
-/

namespace WindowSurvey

/-- The controller after a command and the outcome of its task. -/
def Transition.concluded (t : Transition) (o : Outcome) : Controller :=
  { t.after with inFlight := none, snapshot := Controller.finishedSnapshot t.after.snapshot o }

namespace System

variable {σ : Type} {r : Remote σ} {settings : CyclingSettings} {s : System σ}

/-- Nobody waits for a task, and no task works. -/
structure AtRest (s : System σ) : Prop where
  held : s.held = true
  calls : ∀ c ∈ s.calls, c.isPending = false
  tasks : ∀ t ∈ s.tasks, t.isLive = false

/-- Give a command, and let time pass until its caller knows the outcome. -/
def attend (r : Remote σ) (settings : CyclingSettings) (s : System σ) (command : Command) : System σ :=
  let call := s.calls.length
  let s := s.command r settings command
  (s.await? r settings call).getD s

/-! ## Events without effect -/

theorem run_eq_self {events : List Event} (h : ∀ e ∈ events, s.apply r settings e = s) :
    s.run r settings events = s := by
  induction events with
  | nil => rfl
  | cons e events ih =>
    rw [run_cons, h e List.mem_cons_self]
    exact ih fun e he => h e (List.mem_cons_of_mem _ he)

theorem reap_of_held (h : s.held = true) : s.reap = s := by
  rw [reap, h]
  rfl

theorem stop_of_rest (h : ∀ t ∈ s.tasks, t.isLive = false) (o : Option TaskId) : s.stop o = s := by
  cases o with
  | none => rfl
  | some task =>
    have htasks : s.tasks.modify task Task.stop = s.tasks :=
      tasks_stop_of_rest (fun ht => h _ (List.mem_of_getElem? ht)) (some task)
    rw [stop, htasks]

/-- A call takes notice of nothing while the task that it waits for works. -/
theorem apply_deliver_of_live (hheld : s.held = true) {id : CallId}
    (h : ∀ g j task, s.Pending id g j (.waiting task) →
      ∀ t, s.tasks[task]? = some t → t.isLive = true) :
    s.apply r settings (.deliver id) = s := by
  have hsame : s.deliver id = s := by
    rw [deliver]
    split
    next g j task hp =>
      split
      next t ht =>
        have hlive := h g j task hp t ht
        simp only [Task.isLive, Bool.and_eq_true, Bool.not_eq_true', Option.isNone_iff_eq_none] at hlive
        simp only [hlive.2, hlive.1]
        rfl
      next => rfl
    next => rfl
  rw [apply, hsame, reap_of_held hheld]

/-- A task at rest does nothing. -/
theorem apply_work_of_rest {id : TaskId} (h : ∀ t, s.tasks[id]? = some t → t.isLive = false)
    (horizon : Option Nat) : s.apply r settings (.work id horizon) = s := by
  rw [apply]
  split
  next task ht =>
    have hset : s.tasks.set id task = s.tasks := by
      obtain ⟨hlt, rfl⟩ := List.getElem?_eq_some_iff.1 ht
      exact List.set_getElem_self hlt
    rw [Task.work_of_not_live r settings horizon (h task ht)]
    simp only [hset]
    split <;> rfl
  next => rfl

namespace AtRest

theorem not_pending (h : s.AtRest) {id : CallId} {g : Nat} {j : Job} {stage : CallStage} :
    ¬ s.Pending id g j stage := fun hp => by
  cases h.calls _ (List.mem_of_getElem? hp)

theorem init (remote : σ) : AtRest { remote } where
  held := rfl
  calls _ h := by cases h
  tasks _ h := by cases h

theorem apply_deliver (h : s.AtRest) (id : CallId) : s.apply r settings (.deliver id) = s :=
  apply_deliver_of_live h.held fun _ _ _ hp => (h.not_pending hp).elim

theorem apply_spawn (h : s.AtRest) (id : CallId) : s.apply r settings (.spawn id) = s := by
  rw [apply]
  split
  next hp => exact (h.not_pending hp).elim
  next => rfl

theorem apply_track (h : s.AtRest) (id : CallId) : s.apply r settings (.track id) = s := by
  rw [apply]
  split
  next hp => exact (h.not_pending hp).elim
  next => rfl

theorem taskOf?_eq_none (h : s.AtRest) (id : CallId) : s.taskOf? id = none := by
  rw [taskOf?]
  split
  next hp => exact (h.not_pending hp).elim
  next => rfl

theorem run_deliveries (h : s.AtRest) : s.run r settings s.deliveries = s := by
  refine run_eq_self fun e he => ?_
  obtain ⟨id, -, rfl⟩ := List.mem_map.1 he
  exact h.apply_deliver id

end AtRest

/-! ## Commands that begin a task -/

/-- A system in which a command was accepted and its task has reported, but has not worked yet. -/
def begun (settings : CyclingSettings) (s : System σ) (t : Transition) (j : Job) : System σ :=
  { s with
    controller := { t.after with inFlight := some s.tasks.length }
    tasks := s.tasks ++ [.begin settings s.clock t.after.generation j]
    calls := s.calls ++ [.pending t.after.generation j (.waiting s.tasks.length)]
    notes := s.notes ++ t.after.notes }

theorem perform_of_rest (h : s.AtRest) (t : Transition) :
    s.perform t = { s with controller := t.after, notes := s.notes ++ t.after.notes } := by
  have hadopt : s.adopt t = { s with controller := t.after } :=
    stop_of_rest (s := { s with controller := t.after }) h.tasks t.stops
  rw [perform, hadopt]

theorem run_of_begins (h : s.AtRest) {command : Command} {t : Transition} {j : Job}
    (ho : s.controller.obey? command = some (t, some j)) :
    s.run r settings (s.commandEvents command) = s.begun settings t j := by
  have hissue : s.apply r settings (.issue command) = { s with
      controller := t.after
      notes := s.notes ++ t.after.notes
      calls := s.calls ++ [.pending t.after.generation j .accepted] } := by
    simp only [apply, issue_eq, ho]
    rw [accept, perform_of_rest h]
    rfl
  rw [commandEvents, run_cons, hissue, run_cons, run_cons]
  simp [apply, setCall, run, begun, adopt, stop, Controller.track_of_eq]

/-- Its caller is the only one who waits. -/
theorem pending_begun (h : s.AtRest) {t : Transition} {j j' : Job} {id : CallId} {g : Nat}
    {stage : CallStage} (hp : (s.begun settings t j).Pending id g j' stage) :
    id = s.calls.length ∧ stage = .waiting s.tasks.length := by
  rcases getElem?_concat_eq_some.1 hp with hold | ⟨rfl, he⟩
  · exact (h.not_pending hold).elim
  · cases he
    exact ⟨rfl, rfl⟩

theorem command_of_begins (h : s.AtRest) {command : Command} {t : Transition} {j : Job}
    (ho : s.controller.obey? command = some (t, some j)) :
    s.command r settings command = s.begun settings t j := by
  rw [System.command, run_of_begins h ho]
  refine run_eq_self fun e he => ?_
  obtain ⟨id, -, rfl⟩ := List.mem_map.1 he
  refine apply_deliver_of_live (s := s.begun settings t j) h.held fun g j' task hp u hu => ?_
  obtain ⟨-, hstage⟩ := pending_begun h hp
  cases hstage
  have hbegin : u = .begin settings s.clock t.after.generation j := by
    simpa [begun, eq_comm] using hu
  rw [hbegin]
  rfl

/-- A system in which the task of an accepted command has ended, but its caller does not know yet. -/
def worked (settings : CyclingSettings) (s : System σ) (t : Transition) (j : Job) (task : Task)
    (remote : σ) (clock : Nat) : System σ :=
  { s.begun settings t j with tasks := s.tasks ++ [task], remote, clock }

theorem apply_work_of_begun (h : s.AtRest) {t : Transition} {j : Job} {task : Task} {remote : σ}
    (hwork : (Task.begin settings s.clock t.after.generation j).work r settings none s.remote =
      (task, remote)) :
    (s.begun settings t j).apply r settings (.work s.tasks.length none) =
      s.worked settings t j task remote s.clock := by
  have hreported : (s.begun settings t j).hasReported s.tasks.length = true := by
    rw [hasReported, List.all_eq_true]
    intro c hc
    obtain ⟨id, hid⟩ := List.getElem?_of_mem hc
    cases c with
    | pending g j' stage =>
      obtain ⟨-, rfl⟩ := pending_begun h hid
      rfl
    | _ => rfl
  have htask : (s.begun settings t j).tasks[s.tasks.length]? =
      some (.begin settings s.clock t.after.generation j) := List.getElem?_concat_length
  have hset : (s.begun settings t j).tasks.set s.tasks.length task = s.tasks ++ [task] := by
    simp [begun]
  have hremote : (s.begun settings t j).remote = s.remote := rfl
  simp only [apply, htask, hreported, Bool.or_true, if_true, hremote, hwork, hset]
  rfl

/-- A system in which the caller of an accepted command knows the outcome. -/
def concluded (s : System σ) (t : Transition) (task : Task) (o : Outcome) (remote : σ) (clock : Nat) :
    System σ :=
  { s with
    controller := t.concluded o
    remote := remote
    clock := clock
    tasks := s.tasks ++ [task]
    calls := s.calls ++ [.returned]
    notes := s.notes ++ t.after.notes ++ (t.concluded o).notes }

section Ended

variable {t : Transition} {j : Job} {task : Task} {time : Nat} {o : Outcome}

/-- A caller who knows the outcome leaves the system at rest. -/
theorem AtRest.concluded (h : s.AtRest) (hend : task.end? = some (time, o)) (remote : σ) (clock : Nat) :
    (s.concluded t task o remote clock).AtRest where
  held := h.held
  calls := List.forall_mem_append.2 ⟨h.calls, List.forall_mem_singleton.2 rfl⟩
  tasks := List.forall_mem_append.2 ⟨h.tasks, List.forall_mem_singleton.2 (Task.isLive_of_end hend)⟩

/-- The caller of an ended task takes notice of its outcome. -/
theorem apply_deliver_of_worked (h : s.AtRest) (hend : task.end? = some (time, o)) (remote : σ)
    (clock : Nat) : (s.worked settings t j task remote clock).apply r settings
      (.deliver s.calls.length) = s.concluded t task o remote clock := by
  have hfinish : Controller.finish? { t.after with inFlight := some s.tasks.length }
      t.after.generation o = some { after := t.concluded o } := Controller.finish?_eq_some.2 ⟨rfl, rfl⟩
  have hdeliver : (s.worked settings t j task remote clock).deliver s.calls.length =
      s.concluded t task o remote clock := by
    simp [deliver, worked, begun, hend, hfinish, System.perform, adopt, stop, setCall, System.concluded]
  rw [apply, hdeliver]
  exact reap_of_held h.held

/-- Nobody else takes notice of anything. -/
theorem run_deliver_of_worked (h : s.AtRest) (remote : σ) (clock : Nat) :
    (s.worked settings t j task remote clock).run r settings
      ((List.range s.calls.length).map .deliver) = s.worked settings t j task remote clock := by
  refine run_eq_self fun e he => ?_
  obtain ⟨id, hid, rfl⟩ := List.mem_map.1 he
  refine apply_deliver_of_live (s := s.worked settings t j task remote clock) h.held ?_
  intro g j' task' hp
  have hbegun : (s.begun settings t j).Pending id g j' (.waiting task') := hp
  exact absurd (pending_begun h hbegun).1 (Nat.ne_of_lt (List.mem_range.1 hid))

/-- Time passes until the task of a command has ended, and its caller takes notice. -/
theorem passUntil_of_worked (h : s.AtRest) (hend : task.end? = some (time, o)) (remote : σ)
    (clock : Nat) : (s.worked settings t j task remote s.clock).passUntil r settings clock =
      s.concluded t task o remote (s.clock + (clock - s.clock)) := by
  have hwork : (s.worked settings t j task remote s.clock).run r settings
      ((s.worked settings t j task remote s.clock).workEvents (some clock)) =
        s.worked settings t j task remote s.clock := by
    refine run_eq_self fun e he => ?_
    obtain ⟨id, -, rfl⟩ := List.mem_map.1 he
    refine apply_work_of_rest (s := s.worked settings t j task remote s.clock) ?_ (some clock)
    intro u hu
    rcases getElem?_concat_eq_some.1 hu with hold | ⟨-, rfl⟩
    · exact h.tasks u (List.mem_of_getElem? hold)
    · exact Task.isLive_of_end hend
  have hpass : (s.worked settings t j task remote s.clock).run r settings
      [.pass (clock - (s.worked settings t j task remote s.clock).clock)] =
        s.worked settings t j task remote (s.clock + (clock - s.clock)) := rfl
  have hdeliveries : (s.worked settings t j task remote s.clock).deliveries =
      (List.range s.calls.length).map .deliver ++ [.deliver s.calls.length] := by
    simp [deliveries, worked, begun, List.range_succ]
  rw [passUntil, run_append, run_append, hwork, hpass, hdeliveries, run_append,
    run_deliver_of_worked h, run_cons, apply_deliver_of_worked h hend]
  rfl

/-- A caller who waits until the task of an accepted command has ended. -/
theorem attend_of_begins (h : s.AtRest) {command : Command}
    (ho : s.controller.obey? command = some (t, some j)) {remote : σ}
    (hwork : (Task.begin settings s.clock t.after.generation j).work r settings none s.remote =
      (task, remote)) (hend : task.end? = some (time, o)) :
    s.attend r settings command =
      s.concluded t task o remote (s.clock + (time - s.clock)) := by
  have hwaits : (s.begun settings t j).taskOf? s.calls.length = some s.tasks.length := by
    simp [taskOf?, begun]
  have hended : (s.worked settings t j task remote s.clock).tasks[s.tasks.length]?.bind Task.end? =
      some (time, o) := by
    simp [worked, hend]
  have hrun : (s.begun settings t j).run r settings [.work s.tasks.length none] =
      s.worked settings t j task remote s.clock := apply_work_of_begun h hwork
  rw [attend, command_of_begins h ho, await?, hwaits]
  simp only [hrun, hended, Option.getD_some]
  exact passUntil_of_worked h hend remote time

end Ended

/-! ## Commands that begin no task -/

/-- There is nothing to wait for if the command leaves the system at rest. -/
theorem attend_of_rest {command : Command} (h : (s.issue command).AtRest) :
    s.attend r settings command = s.issue command := by
  have hrun : s.run r settings (s.commandEvents command) = s.issue command := by
    rw [commandEvents, run_cons]
    refine run_eq_self fun e he => ?_
    simp only [List.mem_cons, List.not_mem_nil, or_false] at he
    rcases he with rfl | rfl
    · exact h.apply_spawn s.calls.length
    · exact h.apply_track s.calls.length
  rw [attend, System.command, hrun, h.run_deliveries, await?, h.taskOf?_eq_none]
  rfl

theorem attend_of_ends (r : Remote σ) (settings : CyclingSettings) (h : s.AtRest) {command : Command}
    {t : Transition} (ho : s.controller.obey? command = some (t, none)) :
    s.attend r settings command = s.perform t ∧ (s.perform t).AtRest := by
  have hrest : (s.perform t).AtRest := by
    rw [perform_of_rest h]
    exact ⟨h.held, h.calls, h.tasks⟩
  have hissue : s.issue command = s.perform t := by rw [issue_eq, ho]
  rw [← hissue] at hrest ⊢
  exact ⟨attend_of_rest hrest, hrest⟩

theorem attend_of_refused (r : Remote σ) (settings : CyclingSettings) (h : s.AtRest)
    {command : Command} (ho : s.controller.obey? command = none) :
    let m := if command.isCall then s.addCall .refused else s
    s.attend r settings command = m ∧ m.AtRest := by
  intro m
  have hrest : m.AtRest := by
    simp only [m]
    split
    · exact ⟨h.held, List.forall_mem_append.2 ⟨h.calls, List.forall_mem_singleton.2 rfl⟩, h.tasks⟩
    · exact h
  have hissue : s.issue command = m := by rw [issue_eq, ho]
  rw [← hissue] at hrest ⊢
  exact ⟨attend_of_rest hrest, hrest⟩

end System

end WindowSurvey
