import WindowSurvey.Phase.Task
import WindowSurvey.Proofs.Survey.Saturation
/-!
# Runs as tasks

A task that may work as long as it needs plays its plan until its time is over. So the task of a detection run
ends as the run does. A recording answers at once: a run over it always comes to an end, and a switch to a
window always succeeds.

## Main statements

* `Task.work_detection` — the task of a detection run ends as the run does
* `Task.work_navigation` — the task of a switch to a window makes all its switches on a recording
* `Recording.exists_returned`, `Recording.eq_of_run` — a run over a recording, and its switches
-/

namespace WindowSurvey

/-! ## Plans with another result -/

section Map

variable {α β σ : Type}

/-- How far a plan came, with another result. -/
def Progress.map (f : α → β) : Progress α → Progress β
  | finished time result => finished time (f result)
  | due time rest => due time (rest.map f)
  | stalled => stalled
  | crashed time complaint => crashed time complaint

/-- Playing a plan does not depend on what is made of its result. -/
theorem Script.play_map (f : α → β) (r : Remote σ) (horizon : Option Nat) (p : Script α) (time : Nat)
    (s : σ) : (p.map f).play r horizon time s =
      ((p.play r horizon time s).1.map f, (p.play r horizon time s).2) := by
  induction p generalizing time s with
  | done result => rfl
  | capture next ih =>
    simp only [map, play]
    rcases r.capture s with ⟨answer | ⟨delay, answer⟩ | _ | complaint, s⟩
    · exact ih answer time s
    · by_cases hw : within horizon (time + delay)
      · simp only [if_pos hw]
        exact ih answer (time + delay) s
      · simp only [if_neg hw, Progress.map]
    · rfl
    · rfl
  | advance next ih =>
    simp only [map, play]
    rcases r.advance s with ⟨answer | ⟨delay, answer⟩ | _ | complaint, s⟩
    · exact ih answer time s
    · by_cases hw : within horizon (time + delay)
      · simp only [if_pos hw]
        exact ih answer (time + delay) s
      · simp only [if_neg hw, Progress.map]
    · rfl
    · rfl
  | detect frame cycle next ih => exact ih _ time _
  | wait delay next ih =>
    simp only [map, play]
    by_cases hw : within horizon (time + delay)
    · simp only [if_pos hw]
      exact ih (time + delay) s
    · simp only [if_neg hw, Progress.map]

end Map

/-! ## Detection runs -/

/-- What a task brings when its detection run ends. -/
def Survey.Ending.outcome : Ending → Nat × Outcome
  | returned time found => (time, .detected found)
  | crashed time complaint => (time, Job.detection.crashed complaint)

namespace Task

variable {σ : Type}

/-- A task that may work as long as it needs plays its plan until its time is over. -/
theorem work_begin (r : Remote σ) (settings : CyclingSettings) (now generation : Nat) (j : Job)
    (s : σ) : (begin settings now generation j).work r settings none s =
      let (p, s') := (j.script settings).play r (j.deadline? settings now) now s
      ({ begin settings now generation j with
        state := .working (expire settings (j.deadline? settings now) none p) }, s') := by
  have hwithin : Script.within (j.deadline? settings now) now = true := by
    cases j <;> simp [Script.within, Job.deadline?]
  simp only [work, begin, earlier, Progress.resume, hwithin, if_true]

theorem work_detection (r : Remote σ) (settings : CyclingSettings) (now generation : Nat) (s : σ) :
    ∃ task, (begin settings now generation .detection).work r settings none s =
      (task, (Survey.run r settings now s).2) ∧
      task.end? = some (Survey.run r settings now s).1.outcome := by
  rw [work_begin, Job.script, Script.play_map]
  refine ⟨_, rfl, ?_⟩
  simp only [Survey.run, Job.deadline?]
  cases ((Survey.script settings).play r (some (now + Survey.budget settings)) now s).1 <;> rfl

end Task

/-! ## Switches to a window -/

/-- On a recording all switches of a plan are made. -/
theorem Navigation.play_script (detect : Frame → Nat → List Region) (settle count time : Nat)
    (d : Recording) : ∃ time', (script settle count).play (Recording.remote detect) none time d =
      (.finished time' (.ok ()), { d with advances := d.advances + count }) := by
  induction count generalizing time d with
  | zero => exact ⟨time, rfl⟩
  | succ count ih =>
    obtain ⟨time', hplay⟩ := ih (time + settle) d.advance
    refine ⟨time', hplay.trans ?_⟩
    simp only [Recording.advance, Nat.add_right_comm, Nat.add_assoc]

theorem Task.work_navigation (detect : Frame → Nat → List Region) (settings : CyclingSettings)
    (now generation index cycles : Nat) (d : Recording) : ∃ task time,
      (begin settings now generation (.navigation index cycles)).work (Recording.remote detect)
        settings none d = (task, { d with advances := d.advances + cycles }) ∧
      task.end? = some (time, .switched index (.ok ())) := by
  obtain ⟨time, hplay⟩ := Navigation.play_script detect settings.settleDelay cycles now d
  rw [work_begin, Job.script, Script.play_map, Job.deadline?, hplay]
  exact ⟨_, time, rfl, rfl⟩

/-! ## How often a run switches -/

namespace Recording

variable {detect : Frame → Nat → List Region} {d d' : Recording} {cycle : Nat}

/-- Looking at a recording does not change it. -/
theorem eq_of_played {x : Round} (h : x.Played (remote detect) cycle d d') : d' = d := by
  cases h with
  | blank => rfl
  | seen hcapture hdetect => exact (congrArg Prod.snd hdetect).symm

/-- A recording is switched once between each two rounds. -/
theorem eq_of_course {xs : List Round} (h : Survey.Course (remote detect) cycle xs d d') :
    d' = { d with advances := d.advances + (xs.length - 1) } := by
  induction h with
  | nil => rfl
  | last hx => rw [eq_of_played hx]; rfl
  | @next _ _ _ xs _ _ _ hx _ _ ih =>
    rw [ih, eq_of_played hx]
    simp only [remote, advance, List.length_cons]
    congr 1
    omega

theorem eq_of_run {settings : CyclingSettings} {start time : Nat} {shown : List Region}
    (h : Survey.run (remote detect) settings start d = (.returned time (.ok shown), d')) :
    d' = { d with advances := d.advances + (settings.maxAttempts - 1) } := by
  obtain ⟨xs, hlength, hcourse, -⟩ := Survey.course_of_run h
  rw [← hlength]
  exact eq_of_course hcourse

end Recording

/-- A run over a recording always comes to an end. -/
theorem Recording.exists_returned (detect : Frame → Nat → List Region) (settings : CyclingSettings)
    (start : Nat) (d : Recording) :
    ∃ time found, (Survey.run (remote detect) settings start d).1 = .returned time found := by
  have hprompt := remote_prompt detect
  by_cases hfit : (settings.maxAttempts - 1) * settings.settleDelay ≤ Survey.budget settings
  · obtain ⟨shown, d', hrun⟩ := Survey.run_returns hprompt settings start d hfit
    exact ⟨_, _, by rw [hrun]⟩
  · exact ⟨_, _, Survey.run_expires hprompt settings start d (by omega)⟩

end WindowSurvey
