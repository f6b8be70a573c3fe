import WindowSurvey.Proofs.Phase.Steps
import WindowSurvey.Proofs.Remote.Deeds
/-!
# What the tasks of a run have done

Tasks have turns in any order, and each turn goes on with the plan of a job where the last one stopped. The
deeds of a run are those of all turns, with the number of the task that had the turn. What one task has done is
what its plan does, whatever else was done between its turns.

## Main definitions

* `Task.deeds`, `System.doing` — what a turn does, and what an event does
* `System.deeds`, `deedsOf` — what is done in a run, and what one task has done of it
* `Task.HasDone`, `System.Recorded` — deeds are what the plans of the tasks do

## Main statements

* `Task.HasDone.of_end` — what a task that ended has done
* `System.Recorded.run` — in every run the tasks have done what their plans do
-/

namespace WindowSurvey

variable {σ : Type}

/-! ## Turns -/

namespace Task

/-- What a task does in a turn. -/
def deeds (r : Remote σ) (horizon : Option Nat) (t : Task) (s : σ) : List Deed :=
  match t.state with
  | .stopped => []
  | .working p => p.deeds r (earlier horizon t.deadline) s

/-- A task that works has gone through deeds with the plan of its job, unless its time was over. -/
def HasDone (settings : CyclingSettings) (t : Task) (ds : List Deed) : Prop :=
  ∀ p, t.state = .working p → (t.job.script settings).Does ds p.rest? ∨
    t.deadline.isSome ∧ ∃ limit,
      p = .finished limit (.detected (.error (.detectionTimeout settings.timeoutSeconds)))

variable {settings : CyclingSettings} {t : Task} {ds : List Deed}

theorem begin_hasDone (settings : CyclingSettings) (now generation : Nat) (j : Job) :
    (begin settings now generation j).HasDone settings [] := by
  intro p hp
  cases hp
  exact .inl .rest

theorem stop_hasDone (h : t.HasDone settings ds) : t.stop.HasDone settings ds := by
  rw [stop]
  split
  · intro p hp
    cases hp
  · exact h

/-- A turn goes on with the plan. -/
theorem work_hasDone (r : Remote σ) (horizon : Option Nat) (h : t.HasDone settings ds) (s : σ) :
    (t.work r settings horizon s).1.HasDone settings (ds ++ t.deeds r horizon s) := by
  cases hstate : t.state with
  | stopped =>
    intro p hp
    simp only [work, hstate] at hp
    cases hp
  | working p =>
    simp only [HasDone, work, deeds, hstate]
    rintro q hq
    cases hq
    rcases h p hstate with hdoes | ⟨hdeadline, limit, rfl⟩
    · have hnext := Progress.resume_does r (earlier horizon t.deadline) hdoes s
      rcases expire_cases settings t.deadline horizon
        (p.resume r (earlier horizon t.deadline) s).1 with he | he
      · rw [he]
        exact .inl hnext
      · exact .inr he
    · exact .inr ⟨hdeadline, limit, rfl⟩

/-- A task that ended has gone through its plan to the end, or ran out of time, or broke down in a call that was not
answered. -/
theorem HasDone.of_end (h : t.HasDone settings ds) {time : Nat} {o : Outcome}
    (he : t.end? = some (time, o)) :
    (t.job.script settings).Does ds (some (.done o)) ∨
    t.deadline.isSome ∧ o = .detected (.error (.detectionTimeout settings.timeoutSeconds)) ∨
    (t.job.script settings).Does ds none ∧ ∃ complaint, o = t.job.crashed complaint := by
  rw [end?] at he
  split at he
  next t' o' hstate =>
    cases he
    rcases h _ hstate with hdoes | ⟨hdeadline, limit, hlimit⟩
    · exact .inl hdoes
    · cases hlimit
      exact .inr (.inl ⟨hdeadline, rfl⟩)
  next t' complaint hstate =>
    cases he
    rcases h _ hstate with hdoes | ⟨-, limit, hlimit⟩
    · exact .inr (.inr ⟨hdoes, complaint, rfl⟩)
    · cases hlimit
  next => cases he

end Task

/-! ## Deeds by task -/

/-- What one task has done. -/
def deedsOf (task : TaskId) (log : List (TaskId × Deed)) : List Deed :=
  log.filterMap fun (k, d) => if k = task then some d else none

theorem deedsOf_append (task : TaskId) (first second : List (TaskId × Deed)) :
    deedsOf task (first ++ second) = deedsOf task first ++ deedsOf task second :=
  List.filterMap_append

theorem deedsOf_map_self (task : TaskId) (ds : List Deed) : deedsOf task (ds.map (task, ·)) = ds := by
  induction ds with
  | nil => rfl
  | cons d ds ih =>
    simp only [deedsOf, List.map_cons, List.filterMap_cons, if_true]
    exact congrArg (d :: ·) ih

theorem deedsOf_map_ne {task other : TaskId} (h : other ≠ task) (ds : List Deed) :
    deedsOf task (ds.map (other, ·)) = [] := by
  simp [deedsOf, h]

/-- A task that is not begun yet has done nothing. -/
theorem deedsOf_eq_nil {task : TaskId} {log : List (TaskId × Deed)} (h : ∀ entry ∈ log, entry.1 < task) :
    deedsOf task log = [] := by
  rw [deedsOf, List.filterMap_eq_nil_iff]
  intro entry hentry
  exact if_neg (Nat.ne_of_lt (h entry hentry))

theorem mem_deedsOf {task : TaskId} {log : List (TaskId × Deed)} {d : Deed} :
    d ∈ deedsOf task log ↔ (task, d) ∈ log := by
  simp [deedsOf]

namespace System

/-! ## Events -/

variable (r : Remote σ) (settings : CyclingSettings)

/-- What an event has a task do. -/
def doing (s : System σ) : Event → List (TaskId × Deed)
  | .work id horizon =>
    match s.tasks[id]? with
    | some task =>
      if s.eager || s.hasReported id then (task.deeds r horizon s.remote).map (id, ·) else []
    | none => []
  | _ => []

/-- What is done in a run. -/
def deeds (s : System σ) : List Event → List (TaskId × Deed)
  | [] => []
  | e :: events => s.doing r e ++ (s.apply r settings e).deeds events

theorem deeds_append (s : System σ) (first second : List Event) :
    s.deeds r settings (first ++ second) =
      s.deeds r settings first ++ (s.run r settings first).deeds r settings second := by
  induction first generalizing s with
  | nil => rfl
  | cons e first ih =>
    rw [List.cons_append, deeds, deeds, ih, List.append_assoc]
    rfl

/-- A task has its turn, or nothing happens. -/
theorem apply_work_cases (s : System σ) (id : TaskId) (horizon : Option Nat) :
    (∃ task, s.tasks[id]? = some task ∧
      s.apply r settings (.work id horizon) = { s with
        tasks := s.tasks.set id (task.work r settings horizon s.remote).1
        remote := (task.work r settings horizon s.remote).2 } ∧
      s.doing r (.work id horizon) = (task.deeds r horizon s.remote).map (id, ·)) ∨
    s.apply r settings (.work id horizon) = s ∧ s.doing r (.work id horizon) = [] := by
  simp only [apply, doing]
  cases s.tasks[id]? with
  | none => exact .inr ⟨rfl, rfl⟩
  | some task =>
    by_cases hturn : (s.eager || s.hasReported id) = true
    · exact .inl ⟨task, rfl, if_pos hturn, if_pos hturn⟩
    · exact .inr ⟨if_neg hturn, if_neg hturn⟩

/-! ## Every task follows its plan -/

/-- The deeds of each task are what its plan does, and nothing was done for tasks that are not begun yet. -/
structure Recorded (tasks : List Task) (log : List (TaskId × Deed)) : Prop where
  hasDone : ∀ {task : TaskId} {t : Task}, tasks[task]? = some t → t.HasDone settings (deedsOf task log)
  lt : ∀ entry ∈ log, entry.1 < tasks.length

variable {r settings} {s m : System σ} {log : List (TaskId × Deed)}

namespace Recorded

theorem stop (h : Recorded settings s.tasks log) (o : Option TaskId) :
    Recorded settings (s.stop o).tasks log where
  hasDone {task t} ht := by
    rw [getElem?_tasks_stop] at ht
    split at ht
    · obtain ⟨t', ht', rfl⟩ := Option.map_eq_some_iff.1 ht
      exact Task.stop_hasDone (h.hasDone ht')
    · exact h.hasDone ht
  lt entry hentry := by
    rw [length_tasks_stop]
    exact h.lt entry hentry

/-- A task that begins has done nothing yet. -/
theorem begin {tasks : List Task} (h : Recorded settings tasks log) (now generation : Nat) (j : Job) :
    Recorded settings (tasks ++ [.begin settings now generation j]) log where
  hasDone {task t} ht := by
    rcases getElem?_concat_eq_some.1 ht with ht | ⟨rfl, rfl⟩
    · exact h.hasDone ht
    · rw [deedsOf_eq_nil h.lt]
      exact Task.begin_hasDone settings now generation j
  lt entry hentry := by
    rw [List.length_append]
    exact Nat.lt_add_right _ (h.lt entry hentry)

/-- A turn adds to the deeds of the task that has it. -/
theorem work {tasks : List Task} (h : Recorded settings tasks log) {id : TaskId} {task : Task}
    (ht : tasks[id]? = some task) (horizon : Option Nat) (remote : σ) :
    Recorded settings (tasks.set id (task.work r settings horizon remote).1)
      (log ++ (task.deeds r horizon remote).map (id, ·)) where
  hasDone {k t} hk := by
    rw [deedsOf_append]
    by_cases hne : id = k
    · subst hne
      rw [List.getElem?_set_self (List.getElem?_eq_some_iff.1 ht).1] at hk
      cases hk
      rw [deedsOf_map_self]
      exact Task.work_hasDone r horizon (h.hasDone ht) remote
    · rw [List.getElem?_set_ne hne] at hk
      rw [deedsOf_map_ne hne, List.append_nil]
      exact h.hasDone hk
  lt := by
    rw [List.length_set]
    refine List.forall_mem_append.2 ⟨h.lt, fun entry hentry => ?_⟩
    obtain ⟨d, -, rfl⟩ := List.mem_map.1 hentry
    exact (List.getElem?_eq_some_iff.1 ht).1

/-- Nothing is done in a step that is not a turn. -/
theorem step (h : Recorded settings s.tasks log) {e : Event} (hs : Step r settings e s m)
    (he : ∀ id horizon, e ≠ .work id horizon) : Recorded settings m.tasks log := by
  cases hs with
  | accept ho =>
    rw [tasks_accept]
    exact h.stop _
  | perform ho =>
    rw [tasks_perform]
    exact h.stop _
  | refuse ho =>
    rw [tasks_refuse]
    exact h
  | @spawn _ id g j hp => exact h.begin s.clock g j
  | track hp =>
    rw [tasks_setCall, tasks_adopt]
    exact h.stop _
  | work ht hturn => exact absurd rfl (he _ _)
  | conclude hp ht ho => exact h
  | dismiss hp => exact h
  | abandon hp => exact h
  | aside observers next clock held => exact h

theorem reap (h : Recorded settings s.tasks log) : Recorded settings s.reap.tasks log := by
  rcases reap_cases s with e | ⟨-, e⟩
  · rw [e]
    exact h
  · rw [e, tasks_adopt]
    exact h.stop _

theorem apply (h : Recorded settings s.tasks log) (e : Event) :
    Recorded settings (s.apply r settings e).tasks (log ++ s.doing r e) := by
  have quiet (he : ∀ id horizon, e ≠ .work id horizon) (hnone : s.doing r e = []) :
      Recorded settings (s.apply r settings e).tasks (log ++ s.doing r e) := by
    rw [hnone, List.append_nil]
    exact apply_of_step (P := fun m => Recorded settings m.tasks log) (h.step · he) Recorded.reap
  cases e with
  | work id horizon =>
    rcases apply_work_cases r settings s id horizon with ⟨task, ht, he, hd⟩ | ⟨he, hd⟩
    · rw [he, hd]
      exact h.work ht horizon s.remote
    · rw [he, hd, List.append_nil]
      exact h
  | _ => exact quiet (fun _ _ he => by cases he) rfl

/-- In every run the tasks have done what their plans do. -/
theorem run (h : Recorded settings s.tasks log) (events : List Event) :
    Recorded settings (s.run r settings events).tasks (log ++ s.deeds r settings events) := by
  induction events generalizing s log with
  | nil =>
    rw [deeds, List.append_nil]
    exact h
  | cons e events ih =>
    rw [deeds, ← List.append_assoc]
    exact ih (h.apply e)

theorem init (settings : CyclingSettings) : Recorded settings [] [] where
  hasDone h := by cases h
  lt := List.forall_mem_nil _

end Recorded

end System

end WindowSurvey
