import Mathlib.Algebra.GroupWithZero.Nat
import WindowSurvey.Proofs.Phase.Calls
import WindowSurvey.Proofs.Remote.Switches
/-!
# The switches of a run

On a recording the books balance: what has been switched so far, and what the tasks that were begun have
still to switch or have left out, are together the switches of their jobs. This is so in every run, whatever
is commanded and whichever tasks are stopped. When every task has ended well nothing is left out, and the
window in front is known from the jobs alone.

## Main results

* `System.Balanced` — the books of a state
* `System.Balanced.run` — they balance in every run
* `System.Balanced.advances_eq` — when nothing is left out
-/

namespace WindowSurvey.System

/-- Replacing an entry changes the sum of a list by as much. -/
theorem sum_set_add {l : List Nat} {i k : Nat} (h : l[i]? = some k) (k' : Nat) :
    (l.set i k').sum + k = l.sum + k' := by
  induction l generalizing i with
  | nil => cases h
  | cons x l ih =>
    cases i with
    | zero =>
      cases h
      simp only [List.set_cons_zero, List.sum_cons]
      omega
    | succ i =>
      have hi := ih (i := i) h
      simp only [List.set_cons_succ, List.sum_cons]
      omega

/-- For every task there is a number of switches that it has still to make or has left out; with those that
were made they are the switches of all jobs. The frames are those of the beginning. -/
def Balanced (settings : CyclingSettings) (frames : Array Frame) (s : System Recording) : Prop :=
  ∃ owed : List Nat, owed.length = s.tasks.length ∧
    (∀ (task : TaskId) (t : Task) (k : Nat), s.tasks[task]? = some t → owed[task]? = some k →
      t.Owes k) ∧
    s.remote.advances + owed.sum = ((s.tasks.map Task.job).map (Job.switches settings)).sum ∧
    s.remote.frames = frames

namespace Balanced

variable {settings : CyclingSettings} {detect : Frame → Nat → Except String (List Region)}
  {frames : Array Frame} {s m : System Recording}

theorem init (settings : CyclingSettings) (frames : Array Frame) (eager : Bool) :
    Balanced settings frames { remote := { frames }, eager } := by
  refine ⟨[], rfl, ?_, rfl, rfl⟩
  intro task t k ht
  cases ht

/-- The books are about tasks and the recording only. -/
theorem of_eq (h : s.Balanced settings frames) (ht : m.tasks = s.tasks)
    (hr : m.remote = s.remote) : m.Balanced settings frames := by
  rw [Balanced, ht, hr]
  exact h

/-- A task that is stopped leaves out what it has still to switch. -/
theorem stop (h : s.Balanced settings frames) (o : Option TaskId) :
    (s.stop o).Balanced settings frames := by
  obtain ⟨owed, hlen, howes, hsum, hframes⟩ := h
  refine ⟨owed, ?_, ?_, ?_, ?_⟩
  · rw [length_tasks_stop]
    exact hlen
  · intro task t k ht hk
    rw [getElem?_tasks_stop] at ht
    split at ht
    · obtain ⟨t', ht', rfl⟩ := Option.map_eq_some_iff.1 ht
      exact Task.stop_owes (howes task t' k ht' hk)
    · exact howes task t k ht hk
  · rw [remote_stop, map_job_stop]
    exact hsum
  · rw [remote_stop]
    exact hframes

theorem adopt (h : s.Balanced settings frames) (t : Transition) :
    (s.adopt t).Balanced settings frames :=
  (h.stop t.stops).of_eq (tasks_adopt s t) ((remote_adopt s t).trans (remote_stop s _).symm)

/-- A job that is begun is owed as a whole. -/
theorem begin (h : s.Balanced settings frames) (generation : Nat) (j : Job)
    (ht : m.tasks = s.tasks ++ [.begin settings s.clock generation j]) (hr : m.remote = s.remote) :
    m.Balanced settings frames := by
  obtain ⟨owed, hlen, howes, hsum, hframes⟩ := h
  refine ⟨owed ++ [j.switches settings], ?_, ?_, ?_, ?_⟩
  · rw [ht, List.length_append, List.length_append, hlen]
    rfl
  · intro task t k htask hk
    rw [ht] at htask
    rcases getElem?_concat_eq_some.1 htask with htask | ⟨rfl, rfl⟩
    · have hlt : task < owed.length := hlen ▸ (List.getElem?_eq_some_iff.1 htask).1
      rw [List.getElem?_append_left hlt] at hk
      exact howes task t k htask hk
    · rw [← hlen, List.getElem?_concat_length] at hk
      cases hk
      exact Task.begin_owes settings s.clock generation j
  · rw [ht, hr, List.map_append, List.map_append, List.sum_append, List.sum_append, ← hsum]
    exact (Nat.add_assoc _ _ _).symm
  · rw [hr]
    exact hframes

/-- A turn of a task pays off what it switches. -/
theorem work (h : s.Balanced settings frames) {id : TaskId} {task : Task}
    (ht : s.tasks[id]? = some task) (horizon : Option Nat) :
    Balanced settings frames { s with
      tasks := s.tasks.set id (task.work (Recording.watched detect) settings horizon s.remote).1
      remote := (task.work (Recording.watched detect) settings horizon s.remote).2 } := by
  obtain ⟨owed, hlen, howes, hsum, hframes⟩ := h
  have hid : id < owed.length := hlen ▸ (List.getElem?_eq_some_iff.1 ht).1
  obtain ⟨k, hk⟩ : ∃ k, owed[id]? = some k := ⟨_, List.getElem?_eq_getElem hid⟩
  obtain ⟨k', howes', hpaid, hsame⟩ :=
    Task.work_owes detect settings horizon (howes id task k ht hk) s.remote
  refine ⟨owed.set id k', ?_, ?_, ?_, hsame.trans hframes⟩
  · rw [List.length_set, List.length_set]
    exact hlen
  · intro i t n hi hn
    by_cases hne : id = i
    · subst hne
      cases hi.symm.trans (List.getElem?_set_self (hlen ▸ hid))
      cases hn.symm.trans (List.getElem?_set_self hid)
      exact howes'
    · exact howes i t n ((List.getElem?_set_ne hne).symm.trans hi)
        ((List.getElem?_set_ne hne).symm.trans hn)
  · have hjobs := map_set_of_eq (f := Task.job) ht
      (Task.work_job (Recording.watched detect) settings horizon task s.remote)
    have hset := sum_set_add hk k'
    simp only [hjobs, ← hsum]
    omega

theorem step (h : s.Balanced settings frames) {e : Event}
    (hs : Step (Recording.watched detect) settings e s m) : m.Balanced settings frames := by
  cases hs with
  | accept ho => exact (h.adopt _).of_eq rfl rfl
  | perform ho => exact (h.adopt _).of_eq rfl rfl
  | refuse ho => exact h.of_eq tasks_refuse remote_refuse
  | @spawn _ id g j hp => exact h.begin g j rfl rfl
  | track hp => exact (h.adopt _).of_eq rfl rfl
  | work ht hturn => exact h.work ht _
  | conclude hp ht he => exact h.of_eq rfl rfl
  | dismiss hp => exact h.of_eq rfl rfl
  | abandon hp => exact h.of_eq rfl rfl
  | aside observers next clock held => exact h.of_eq rfl rfl

theorem reap (h : s.Balanced settings frames) : s.reap.Balanced settings frames := by
  rcases reap_cases s with e | ⟨-, e⟩
  · rw [e]
    exact h
  · rw [e]
    exact h.adopt _

theorem apply (h : s.Balanced settings frames) (e : Event) :
    (s.apply (Recording.watched detect) settings e).Balanced settings frames :=
  apply_of_step h.step Balanced.reap

theorem run (h : s.Balanced settings frames) (events : List Event) :
    (s.run (Recording.watched detect) settings events).Balanced settings frames := by
  induction events generalizing s with
  | nil => exact h
  | cons e events ih => exact ih (h.apply e)

/-- When every task has ended with nothing left out, all switches of all jobs have been made. -/
theorem advances_eq (h : s.Balanced settings frames)
    (hend : ∀ t ∈ s.tasks, ∃ time o, t.end? = some (time, o) ∧ ∀ k, o.Settles k → k = 0) :
    s.remote.advances = ((s.tasks.map Task.job).map (Job.switches settings)).sum := by
  obtain ⟨owed, hlen, howes, hsum, -⟩ := h
  have hzero : ∀ k ∈ owed, k = 0 := by
    intro k hk
    obtain ⟨task, htask⟩ := List.getElem?_of_mem hk
    have hlt : task < s.tasks.length := hlen ▸ (List.getElem?_eq_some_iff.1 htask).1
    obtain ⟨time, o, he, hsettled⟩ := hend s.tasks[task] (List.getElem_mem hlt)
    exact hsettled k ((howes task _ k (List.getElem?_eq_getElem hlt) htask).end he)
  have hnone : owed.sum = 0 := List.sum_eq_zero_iff_forall_eq_nat.2 hzero
  rw [← hsum, hnone]
  rfl

end Balanced

end WindowSurvey.System
