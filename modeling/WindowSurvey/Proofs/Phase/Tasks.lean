import WindowSurvey.Phase.Task
/-!
# What a task may still do

The plan of a job only ends in ways that belong to the job: a detection run brings what was found, and a
switch to a window brings the end of that switch. Playing a plan, running out of time and being stopped
keep it so, whatever the remote answers. The proofs follow the plan. A task that has ended or was stopped
stays as it is.

## Main definitions

* `Script.Yields`, `Progress.Yields` — every possible end of a plan has a property
* `Outcome.Fits` — an outcome belongs to a job
* `Task.Fits` — every outcome that a task may still bring belongs to its job
* `Task.work_of_not_live`, `Task.stop_isLive` — a task comes to rest once
-/

namespace WindowSurvey

/-! ## Ends of plans -/

namespace Script

variable {α β σ : Type}

/-- Every end of a script satisfies `P`, whatever is answered on the way. -/
def Yields (P : α → Prop) : Script α → Prop
  | done result => P result
  | capture next => ∀ answer, (next answer).Yields P
  | advance next => ∀ answer, (next answer).Yields P
  | detect _ _ next => ∀ found, (next found).Yields P
  | wait _ next => next.Yields P

theorem yields_map {P : β → Prop} {f : α → β} (h : ∀ a, P (f a)) (p : Script α) :
    (p.map f).Yields P := by
  induction p with
  | done result => exact h result
  | capture next ih => exact ih
  | advance next ih => exact ih
  | detect frame cycle next ih => exact ih
  | wait delay next ih => exact ih

end Script

namespace Progress

variable {α σ : Type}

/-- Every end that a plan may still come to satisfies `P`. A breakdown is no end of a plan. -/
def Yields (P : α → Prop) : Progress α → Prop
  | finished _ result => P result
  | due _ rest => rest.Yields P
  | stalled => True
  | crashed _ _ => True

end Progress

namespace Script

variable {α σ : Type}

theorem play_yields {P : α → Prop} (r : Remote σ) (horizon : Option Nat) {p : Script α}
    (h : p.Yields P) (time : Nat) (s : σ) : (p.play r horizon time s).1.Yields P := by
  induction p generalizing time s with
  | done result => exact h
  | capture next ih =>
    rw [play]
    rcases r.capture s with ⟨answer | ⟨delay, answer⟩ | _ | complaint, s⟩
    · exact ih answer (h answer) time s
    · by_cases hw : within horizon (time + delay)
      · simp only [if_pos hw]
        exact ih answer (h answer) (time + delay) s
      · simp only [if_neg hw]
        exact h answer
    · trivial
    · trivial
  | advance next ih =>
    rw [play]
    rcases r.advance s with ⟨answer | ⟨delay, answer⟩ | _ | complaint, s⟩
    · exact ih answer (h answer) time s
    · by_cases hw : within horizon (time + delay)
      · simp only [if_pos hw]
        exact ih answer (h answer) (time + delay) s
      · simp only [if_neg hw]
        exact h answer
    · trivial
    · trivial
  | detect frame cycle next ih =>
    exact ih _ (h _) time _
  | wait delay next ih =>
    rw [play]
    by_cases hw : within horizon (time + delay)
    · rw [if_pos hw]
      exact ih h (time + delay) s
    · rw [if_neg hw]
      exact h

end Script

namespace Progress

variable {α σ : Type}

theorem resume_yields {P : α → Prop} (r : Remote σ) (horizon : Option Nat) {p : Progress α}
    (h : p.Yields P) (s : σ) : (p.resume r horizon s).1.Yields P := by
  cases p with
  | due time rest =>
    rw [resume]
    by_cases hw : Script.within horizon time
    · rw [if_pos hw]
      exact Script.play_yields r horizon h time s
    · rw [if_neg hw]
      exact h
  | finished time result => exact h
  | stalled => trivial
  | crashed time complaint => trivial

end Progress

/-! ## Outcomes that belong to a job -/

/-- An outcome is one that a job may bring. -/
def Outcome.Fits : Outcome → Job → Prop
  | .detected _, .detection => True
  | .switched index _, .navigation target _ => index = target
  | _, _ => False

/-- Only a detection run brings what was found. -/
theorem Outcome.Fits.eq_detection {found : Except Failure (List Region)} {j : Job}
    (h : (Outcome.detected found).Fits j) : j = .detection := by
  cases j with
  | detection => rfl
  | navigation index cycles => exact h.elim

namespace Job

theorem script_yields (settings : CyclingSettings) (j : Job) :
    (j.script settings).Yields (·.Fits j) := by
  cases j with
  | detection => exact Script.yields_map (fun _ => trivial) (Survey.script settings)
  | navigation index cycles =>
    refine Script.yields_map (P := fun o : Outcome => o.Fits (.navigation index cycles))
      (f := .switched index) (fun result => ?_) _
    rfl

theorem crashed_fits (j : Job) (complaint : String) : (j.crashed complaint).Fits j := by
  cases j with
  | detection => trivial
  | navigation index cycles => rfl

end Job

namespace Task

variable {σ : Type}

/-- Every outcome that a task may still bring belongs to its job, and only a detection run has a moment
when its time is over. -/
structure Fits (t : Task) : Prop where
  yields : ∀ p, t.state = .working p → p.Yields (·.Fits t.job)
  limited : t.deadline.isSome → t.job = .detection

theorem begin_fits (settings : CyclingSettings) (now generation : Nat) (j : Job) :
    (begin settings now generation j).Fits where
  yields p hp := by
    cases hp
    exact j.script_yields settings
  limited h := by
    cases j with
    | detection => rfl
    | navigation index cycles => cases h

/-- A run whose time is over ends then, and nothing else changes. -/
theorem expire_cases (settings : CyclingSettings) (deadline horizon : Option Nat)
    (p : Progress Outcome) : expire settings deadline horizon p = p ∨
      deadline.isSome ∧ ∃ limit, expire settings deadline horizon p =
        .finished limit (.detected (.error (.detectionTimeout settings.timeoutSeconds))) := by
  cases deadline with
  | none =>
    left
    cases p <;> rfl
  | some limit =>
    by_cases hw : Script.within horizon limit
    · cases p with
      | finished time result => exact .inl rfl
      | crashed time complaint => exact .inl rfl
      | due time rest => exact .inr ⟨rfl, limit, if_pos hw⟩
      | stalled => exact .inr ⟨rfl, limit, if_pos hw⟩
    · left
      cases p with
      | finished time result => rfl
      | crashed time complaint => rfl
      | due time rest => exact if_neg hw
      | stalled => exact if_neg hw

theorem expire_yields (settings : CyclingSettings) (deadline horizon : Option Nat) {j : Job}
    {p : Progress Outcome} (hp : p.Yields (·.Fits j)) (hj : deadline.isSome → j = .detection) :
    (expire settings deadline horizon p).Yields (·.Fits j) := by
  rcases expire_cases settings deadline horizon p with e | ⟨hd, limit, e⟩
  · rw [e]
    exact hp
  · rw [e, hj hd]
    trivial

@[simp] theorem stop_job (t : Task) : t.stop.job = t.job := by
  rw [stop]
  split <;> rfl

@[simp] theorem stop_generation (t : Task) : t.stop.generation = t.generation := by
  rw [stop]
  split <;> rfl

theorem stop_fits {t : Task} (h : t.Fits) : t.stop.Fits := by
  rw [stop]
  split
  · exact ⟨fun p hp => (TaskState.noConfusion hp), h.limited⟩
  · exact h

@[simp] theorem work_job (r : Remote σ) (settings : CyclingSettings) (horizon : Option Nat) (t : Task)
    (s : σ) : (t.work r settings horizon s).1.job = t.job := by
  rw [work]
  split <;> rfl

@[simp] theorem work_generation (r : Remote σ) (settings : CyclingSettings) (horizon : Option Nat)
    (t : Task) (s : σ) : (t.work r settings horizon s).1.generation = t.generation := by
  rw [work]
  split <;> rfl

theorem work_fits (r : Remote σ) (settings : CyclingSettings) (horizon : Option Nat) {t : Task}
    (h : t.Fits) (s : σ) : (t.work r settings horizon s).1.Fits := by
  rw [work]
  split
  · exact h
  · rename_i p hp
    refine ⟨fun q hq => ?_, h.limited⟩
    cases hq
    exact expire_yields settings _ _ (Progress.resume_yields r _ (h.yields p hp) s) h.limited

/-- A task that has ended by itself brings an outcome of its job. -/
theorem Fits.end {t : Task} (h : t.Fits) {time : Nat} {o : Outcome} (he : t.end? = some (time, o)) :
    o.Fits t.job := by
  rw [end?] at he
  split at he
  · rename_i ht
    cases he
    exact h.yields _ ht
  · cases he
    exact t.job.crashed_fits _
  · cases he

/-! ## Coming to rest -/

theorem isLive_of_end {t : Task} {time : Nat} {o : Outcome} (he : t.end? = some (time, o)) :
    t.isLive = false := by
  simp [isLive, he]

/-- A task that neither works nor was stopped has ended by itself. -/
theorem exists_end {t : Task} (hl : t.isLive = false) (hs : t.isStopped = false) :
    ∃ time o, t.end? = some (time, o) := by
  cases he : t.end? with
  | none => simp [isLive, hs, he] at hl
  | some p => exact ⟨p.1, p.2, rfl⟩

@[simp] theorem stop_isLive (t : Task) : t.stop.isLive = false := by
  rw [stop]
  split
  · rfl
  · rename_i h
    simpa only [Bool.not_eq_true] using h

theorem stop_of_not_live {t : Task} (h : t.isLive = false) : t.stop = t := by
  rw [stop, h, if_neg Bool.false_ne_true]

/-- A task at rest asks nothing and does not change. -/
theorem work_of_not_live (r : Remote σ) (settings : CyclingSettings) (horizon : Option Nat) {t : Task}
    (h : t.isLive = false) (s : σ) : t.work r settings horizon s = (t, s) := by
  obtain ⟨generation, job, deadline, state⟩ := t
  rcases state with (⟨time, o⟩ | ⟨time, rest⟩ | _ | ⟨time, complaint⟩) | _
  · rfl
  · cases h
  · cases h
  · rfl
  · rfl

@[simp] theorem work_isStopped (r : Remote σ) (settings : CyclingSettings) (horizon : Option Nat)
    (t : Task) (s : σ) : (t.work r settings horizon s).1.isStopped = t.isStopped := by
  obtain ⟨generation, job, deadline, state⟩ := t
  cases state <;> rfl

theorem isLive_of_work {r : Remote σ} {settings : CyclingSettings} {horizon : Option Nat} {t : Task}
    {s : σ} (h : (t.work r settings horizon s).1.isLive = true) : t.isLive = true := by
  cases hl : t.isLive with
  | true => rfl
  | false =>
    rw [work_of_not_live r settings horizon hl s] at h
    exact hl.symm.trans h

end Task

end WindowSurvey
