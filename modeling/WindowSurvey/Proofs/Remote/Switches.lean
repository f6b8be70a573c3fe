import WindowSurvey.Proofs.Phase.Tasks
import WindowSurvey.Remote.Recording
/-!
# How often a recording is switched

A recording switches whenever it is asked to and never keeps anybody waiting, so a plan that is played on
it has a number of switches of its own. What has been switched and what a plan still has to switch add up
to the same number all the time, however far the plan is played at once.

## Main definitions

* `Recording.watched` — a recording with a detector that may break down
* `Script.Switches`, `Progress.Switches`, `Task.Owes` — the switches that are still to come
* `Job.switches` — all the switches of a job
-/

namespace WindowSurvey

/-- A recorded desktop, looked at by a detector that may break down. -/
def Recording.watched (detect : Frame → Nat → Except String (List Region)) : Remote Recording :=
  (remote fun _ _ => []).watchedBy detect

/-! ## Plans -/

namespace Script

variable {α β : Type}

/-- A script switches `k` times more on a recording, whichever frames it is shown and whatever is found in
them, unless it ends early; then `P` says which number of switches is left out. -/
def Switches (P : α → Nat → Prop) : Script α → Nat → Prop
  | done result, k => P result k
  | capture next, k => ∀ frame, (next (.ok frame)).Switches P k
  | advance next, k => ∃ k', k = k' + 1 ∧ (next (.ok ())).Switches P k'
  | detect _ _ next, k => ∀ found, (next found).Switches P k
  | wait _ next, k => next.Switches P k

theorem switches_map {P : β → Nat → Prop} {f : α → β} {p : Script α} {k : Nat}
    (h : p.Switches (fun a => P (f a)) k) : (p.map f).Switches P k := by
  induction p generalizing k with
  | done result => exact h
  | capture next ih => exact fun frame => ih _ (h frame)
  | advance next ih =>
    obtain ⟨k', hk, hn⟩ := h
    exact ⟨k', hk, ih _ hn⟩
  | detect frame cycle next ih => exact fun found => ih _ (h found)
  | wait delay next ih => exact ih h

/-- What is at its end with no switch to come, or else switches once and goes on. -/
theorem switches_ite {P : α → Nat → Prop} {k : Nat} {last : Script α}
    {next : Except Failure Unit → Script α} (hlast : last.Switches P 0)
    (hnext : k ≠ 0 → (next (.ok ())).Switches P (k - 1)) :
    (if k = 0 then last else .advance next).Switches P k := by
  by_cases hk : k = 0
  · rw [if_pos hk, hk]
    exact hlast
  · rw [if_neg hk]
    exact ⟨k - 1, by omega, hnext hk⟩

end Script

/-- A plan that was played so far has `k` switches to come. On a recording nothing breaks down and every
call is answered. -/
def Progress.Switches {α : Type} (P : α → Nat → Prop) : Progress α → Nat → Prop
  | .finished _ result, k => P result k
  | .due _ rest, k => rest.Switches P k
  | .stalled, _ => False
  | .crashed _ _, _ => False

variable {α : Type} {P : α → Nat → Prop} (detect : Frame → Nat → Except String (List Region))

/-- Playing a plan moves switches from those to come to those that have been. -/
theorem Script.play_switches (horizon : Option Nat) {p : Script α} {k : Nat} (h : p.Switches P k)
    (time : Nat) (d : Recording) : ∃ k',
      (p.play (Recording.watched detect) horizon time d).1.Switches P k' ∧
      (p.play (Recording.watched detect) horizon time d).2.advances + k' = d.advances + k ∧
      (p.play (Recording.watched detect) horizon time d).2.frames = d.frames := by
  induction p generalizing k time d with
  | done result => exact ⟨k, h, rfl, rfl⟩
  | capture next ih => exact ih _ (h d.capture) time d
  | advance next ih =>
    obtain ⟨k', rfl, hn⟩ := h
    obtain ⟨k'', hs, hsum, hframes⟩ := ih (.ok ()) hn time d.advance
    refine ⟨k'', hs, hsum.trans ?_, hframes⟩
    simp only [Recording.advance]
    omega
  | detect frame cycle next ih => exact ih _ (h (detect frame cycle)) time d
  | wait delay next ih =>
    rw [play]
    by_cases hw : within horizon (time + delay)
    · rw [if_pos hw]
      exact ih h (time + delay) d
    · rw [if_neg hw]
      exact ⟨k, h, rfl, rfl⟩

theorem Progress.resume_switches (horizon : Option Nat) {p : Progress α} {k : Nat}
    (h : p.Switches P k) (d : Recording) : ∃ k',
      (p.resume (Recording.watched detect) horizon d).1.Switches P k' ∧
      (p.resume (Recording.watched detect) horizon d).2.advances + k' = d.advances + k ∧
      (p.resume (Recording.watched detect) horizon d).2.frames = d.frames := by
  cases p with
  | due time rest =>
    rw [resume]
    by_cases hw : Script.within horizon time
    · rw [if_pos hw]
      exact Script.play_switches detect horizon h time d
    · rw [if_neg hw]
      exact ⟨k, h, rfl, rfl⟩
  | finished time result => exact ⟨k, h, rfl, rfl⟩
  | stalled => exact h.elim
  | crashed time complaint => exact h.elim

/-! ## Jobs -/

/-- Nothing is left out at the end of a detection run with a result, nor at the end of a switch to a
window. -/
def Outcome.Settles : Outcome → Nat → Prop
  | .detected (.ok _), k => k = 0
  | .detected (.error _), _ => True
  | .switched _ _, k => k = 0

/-- The switches of a job: one between each two rounds of a detection run, and for a window as many as
lead to it from the first round on. -/
def Job.switches (settings : CyclingSettings) : Job → Nat
  | detection => settings.maxAttempts - 1
  | navigation _ cycles => cycles

/-- Rounds are separated by one switch each. -/
theorem Survey.rounds_switches (settle remaining cycle : Nat) (roster : Roster) :
    (rounds settle remaining cycle roster).Switches (fun found => (Outcome.detected found).Settles)
      (remaining - 1) := by
  induction remaining generalizing cycle roster with
  | zero => rfl
  | succ remaining ih =>
    intro frame
    cases frame with
    | none => exact Script.switches_ite rfl fun _ => ih (cycle + 1) roster
    | some frame =>
      intro found
      cases found with
      | error complaint => trivial
      | ok found => exact Script.switches_ite rfl fun _ => ih (cycle + 1) (roster.insertAll found).2

theorem Navigation.script_switches (settle count : Nat) :
    (script settle count).Switches (fun _ k => k = 0) count := by
  induction count with
  | zero => rfl
  | succ count ih => exact ⟨count, rfl, ih⟩

theorem Job.script_switches (settings : CyclingSettings) (j : Job) :
    (j.script settings).Switches Outcome.Settles (j.switches settings) := by
  cases j with
  | detection =>
    exact Script.switches_map (Survey.rounds_switches settings.settleDelay settings.maxAttempts 0 .empty)
  | navigation index cycles =>
    exact Script.switches_map (Navigation.script_switches settings.settleDelay cycles)

/-! ## Tasks -/

namespace Task

/-- A task has `k` switches to come; one that was stopped has left them out. -/
def Owes (t : Task) (k : Nat) : Prop :=
  ∀ p, t.state = .working p → p.Switches Outcome.Settles k

theorem begin_owes (settings : CyclingSettings) (now generation : Nat) (j : Job) :
    (begin settings now generation j).Owes (j.switches settings) := by
  intro p hp
  cases hp
  exact j.script_switches settings

theorem stop_owes {t : Task} {k : Nat} (h : t.Owes k) : t.stop.Owes k := by
  rw [stop]
  split
  · intro p hp
    cases hp
  · exact h

/-- A run that is out of time has left out whatever it had to switch. -/
theorem expire_switches (settings : CyclingSettings) (deadline horizon : Option Nat)
    {p : Progress Outcome} {k : Nat} (h : p.Switches Outcome.Settles k) :
    (expire settings deadline horizon p).Switches Outcome.Settles k := by
  rcases expire_cases settings deadline horizon p with e | ⟨-, limit, e⟩
  · rw [e]
    exact h
  · rw [e]
    trivial

theorem work_owes (settings : CyclingSettings) (horizon : Option Nat) {t : Task} {k : Nat}
    (h : t.Owes k) (d : Recording) : ∃ k',
      (t.work (Recording.watched detect) settings horizon d).1.Owes k' ∧
      (t.work (Recording.watched detect) settings horizon d).2.advances + k' = d.advances + k ∧
      (t.work (Recording.watched detect) settings horizon d).2.frames = d.frames := by
  rw [work]
  split
  · exact ⟨k, h, rfl, rfl⟩
  · rename_i p hp
    obtain ⟨k', hs, hsum, hframes⟩ := Progress.resume_switches detect
      (earlier horizon t.deadline) (h p hp) d
    refine ⟨k', ?_, hsum, hframes⟩
    intro q hq
    cases hq
    exact expire_switches settings t.deadline horizon hs

/-- What a task has left out when it has ended by itself. -/
theorem Owes.end {t : Task} {k : Nat} (h : t.Owes k) {time : Nat} {o : Outcome}
    (he : t.end? = some (time, o)) : o.Settles k := by
  rw [end?] at he
  split at he
  · rename_i ht
    cases he
    exact h _ ht
  · rename_i ht
    exact (h _ ht).elim
  · cases he

end Task

end WindowSurvey
