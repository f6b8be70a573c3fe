import WindowSurvey.Proofs.Survey.Course
/-!
# What a plan has done

The deeds of a plan are the steps that it began, in order: calls with their answers, and waits. What is
played of a plan at one time, and what is played of its rest later, does what the plan does; so the deeds of
a plan that is played in pieces can be read off the plan.

## Main definitions

* `Deed` — a step of a plan that was begun
* `Script.deeds`, `Progress.deeds` — what is done when a plan is played, or played on
* `Script.Does` — a plan goes through deeds, and what is left of it

## Main statements

* `Script.play_does`, `Progress.resume_does` — playing a plan goes through its deeds
* `Script.play_logged` — the requests of a plan are those of its deeds
-/

namespace WindowSurvey

variable {α β σ : Type}

/-- A step of a plan that was begun. A call that is never answered, or that breaks down, has no answer. -/
inductive Deed where
  | capture (answer? : Option (Except Failure (Option Frame)))
  | advance (answer? : Option (Except Failure Unit))
  | detect (frame : Frame) (cycle : Nat) (found : Except String (List Region))
  | wait (milliseconds : Nat)

/-- What a deed asks of a partner. -/
def Deed.request? : Deed → Option Request
  | capture _ => some .capture
  | advance _ => some .advance
  | detect _ cycle _ => some (.detect cycle)
  | wait _ => none

namespace Remote

variable (r : Remote σ) (s : Logged σ)

theorem logged_capture : r.logged.capture s =
    ((r.capture s.state).1, ⟨(r.capture s.state).2, .capture :: s.requests⟩) := rfl

theorem logged_advance : r.logged.advance s =
    ((r.advance s.state).1, ⟨(r.advance s.state).2, .advance :: s.requests⟩) := rfl

theorem logged_detect (frame : Frame) (cycle : Nat) : r.logged.detect frame cycle s =
    ((r.detect frame cycle s.state).1,
      ⟨(r.detect frame cycle s.state).2, .detect cycle :: s.requests⟩) := rfl

end Remote

/-! ## Playing a plan -/

/-- What is done when a script is played. A call counts when it is made, whether or not its answer comes by
the horizon. -/
def Script.deeds (r : Remote σ) (horizon : Option Nat) : Script α → Nat → σ → List Deed
  | done _, _, _ => []
  | capture next, time, s =>
    .capture (r.capture s).1.answer? :: match r.capture s with
      | (.now answer, s) => deeds r horizon (next answer) time s
      | (.after delay answer, s) =>
        if within horizon (time + delay) then deeds r horizon (next answer) (time + delay) s else []
      | (.never, _) => []
      | (.crash _, _) => []
  | advance next, time, s =>
    .advance (r.advance s).1.answer? :: match r.advance s with
      | (.now answer, s) => deeds r horizon (next answer) time s
      | (.after delay answer, s) =>
        if within horizon (time + delay) then deeds r horizon (next answer) (time + delay) s else []
      | (.never, _) => []
      | (.crash _, _) => []
  | detect frame cycle next, time, s =>
    let (found, s) := r.detect frame cycle s
    .detect frame cycle found :: deeds r horizon (next found) time s
  | wait delay next, time, s =>
    .wait delay :: if within horizon (time + delay) then deeds r horizon next (time + delay) s else []

namespace Progress

/-- What is left of a plan that was played so far. Nothing is left when a call was not answered. -/
def rest? : Progress α → Option (Script α)
  | finished _ result => some (.done result)
  | due _ rest => some rest
  | stalled => none
  | crashed _ _ => none

/-- What is done when a plan is played on. -/
def deeds (r : Remote σ) (horizon : Option Nat) : Progress α → σ → List Deed
  | due time rest, s => if Script.within horizon time then rest.deeds r horizon time s else []
  | _, _ => []

end Progress

/-! ## Going through deeds -/

namespace Script

/-- A plan can go through deeds to a rest of it, whichever answers its calls are given. It comes to nothing with
a call that is not answered. -/
inductive Does : Script α → List Deed → Option (Script α) → Prop
  | rest {p : Script α} : Does p [] (some p)
  | capture {next : Except Failure (Option Frame) → Script α} {answer : Except Failure (Option Frame)}
      {ds : List Deed} {x : Option (Script α)} (h : Does (next answer) ds x) :
      Does (.capture next) (.capture (some answer) :: ds) x
  | captureLost {next : Except Failure (Option Frame) → Script α} :
      Does (.capture next) [.capture none] none
  | advance {next : Except Failure Unit → Script α} {answer : Except Failure Unit} {ds : List Deed}
      {x : Option (Script α)} (h : Does (next answer) ds x) :
      Does (.advance next) (.advance (some answer) :: ds) x
  | advanceLost {next : Except Failure Unit → Script α} : Does (.advance next) [.advance none] none
  | detect {frame : Frame} {cycle : Nat} {next : Except String (List Region) → Script α}
      {found : Except String (List Region)} {ds : List Deed} {x : Option (Script α)}
      (h : Does (next found) ds x) : Does (.detect frame cycle next) (.detect frame cycle found :: ds) x
  | wait {delay : Nat} {next : Script α} {ds : List Deed} {x : Option (Script α)} (h : Does next ds x) :
      Does (.wait delay next) (.wait delay :: ds) x

theorem Does.append {p q : Script α} {ds ds' : List Deed} {x : Option (Script α)}
    (h : p.Does ds (some q)) (h' : q.Does ds' x) : p.Does (ds ++ ds') x := by
  generalize hy : some q = y at h
  induction h with
  | rest =>
    cases hy
    exact h'
  | capture _ ih => exact .capture (ih hy)
  | captureLost => cases hy
  | advance _ ih => exact .advance (ih hy)
  | advanceLost => cases hy
  | detect _ ih => exact .detect (ih hy)
  | wait _ ih => exact .wait (ih hy)

/-- A plan with another result does the same. -/
theorem Does.of_map {f : α → β} {p : Script α} {ds : List Deed} {x : Option (Script β)}
    (h : (p.map f).Does ds x) : ∃ y, p.Does ds y ∧ x = y.map (Script.map f) := by
  induction p generalizing ds with
  | done result =>
    cases h
    exact ⟨_, .rest, rfl⟩
  | capture next ih =>
    cases h with
    | rest => exact ⟨_, .rest, rfl⟩
    | capture h =>
      obtain ⟨y, hy, hx⟩ := ih _ h
      exact ⟨y, .capture hy, hx⟩
    | captureLost => exact ⟨none, .captureLost, rfl⟩
  | advance next ih =>
    cases h with
    | rest => exact ⟨_, .rest, rfl⟩
    | advance h =>
      obtain ⟨y, hy, hx⟩ := ih _ h
      exact ⟨y, .advance hy, hx⟩
    | advanceLost => exact ⟨none, .advanceLost, rfl⟩
  | detect frame cycle next ih =>
    cases h with
    | rest => exact ⟨_, .rest, rfl⟩
    | detect h =>
      obtain ⟨y, hy, hx⟩ := ih _ h
      exact ⟨y, .detect hy, hx⟩
  | wait delay next ih =>
    cases h with
    | rest => exact ⟨_, .rest, rfl⟩
    | wait h =>
      obtain ⟨y, hy, hx⟩ := ih h
      exact ⟨y, .wait hy, hx⟩

/-- A plan with another result that came to its end did so with a result of its own. -/
theorem Does.of_map_done {f : α → β} {p : Script α} {ds : List Deed} {b : β}
    (h : (p.map f).Does ds (some (.done b))) : ∃ a, p.Does ds (some (.done a)) ∧ b = f a := by
  obtain ⟨y, hy, hb⟩ := h.of_map
  obtain ⟨q, rfl, hq⟩ := Option.map_eq_some_iff.1 hb.symm
  cases q with
  | done a =>
    cases hq
    exact ⟨a, hy, rfl⟩
  | _ => cases hq

/-- A plan with another result that was left without an answer was so itself. -/
theorem Does.of_map_none {f : α → β} {p : Script α} {ds : List Deed} (h : (p.map f).Does ds none) :
    p.Does ds none := by
  obtain ⟨y, hy, hnone⟩ := h.of_map
  cases Option.map_eq_none_iff.1 hnone.symm
  exact hy

/-- Playing a plan goes through its deeds. -/
theorem play_does (r : Remote σ) (horizon : Option Nat) (p : Script α) (time : Nat) (s : σ) :
    p.Does (p.deeds r horizon time s) (p.play r horizon time s).1.rest? := by
  induction p generalizing time s with
  | done result => exact .rest
  | capture next ih =>
    rw [deeds, play]
    rcases r.capture s with ⟨answer | ⟨delay, answer⟩ | _ | complaint, s⟩
    · exact .capture (ih answer time s)
    · by_cases hw : within horizon (time + delay)
      · simp only [if_pos hw]
        exact .capture (ih answer (time + delay) s)
      · simp only [if_neg hw]
        exact .capture .rest
    · exact .captureLost
    · exact .captureLost
  | advance next ih =>
    rw [deeds, play]
    rcases r.advance s with ⟨answer | ⟨delay, answer⟩ | _ | complaint, s⟩
    · exact .advance (ih answer time s)
    · by_cases hw : within horizon (time + delay)
      · simp only [if_pos hw]
        exact .advance (ih answer (time + delay) s)
      · simp only [if_neg hw]
        exact .advance .rest
    · exact .advanceLost
    · exact .advanceLost
  | detect frame cycle next ih => exact .detect (ih _ time _)
  | wait delay next ih =>
    rw [deeds, play]
    by_cases hw : within horizon (time + delay)
    · simp only [if_pos hw]
      exact .wait (ih (time + delay) s)
    · simp only [if_neg hw]
      exact .wait .rest

/-- Without a horizon nothing is left due. -/
theorem play_ne_due (r : Remote σ) (p : Script α) (time : Nat) (s : σ) {t : Nat} {rest : Script α} :
    (p.play r none time s).1 ≠ .due t rest := by
  induction p generalizing time s with
  | done result =>
    intro h
    cases h
  | capture next ih =>
    rw [play]
    rcases r.capture s with ⟨answer | ⟨delay, answer⟩ | _ | complaint, s⟩
    · exact ih answer time s
    · exact ih answer (time + delay) s
    · intro h
      cases h
    · intro h
      cases h
  | advance next ih =>
    rw [play]
    rcases r.advance s with ⟨answer | ⟨delay, answer⟩ | _ | complaint, s⟩
    · exact ih answer time s
    · exact ih answer (time + delay) s
    · intro h
      cases h
    · intro h
      cases h
  | detect frame cycle next ih => exact ih _ time _
  | wait delay next ih => exact ih (time + delay) s

/-- A log is kept of the requests of the deeds, and the log changes nothing else. -/
theorem play_logged (r : Remote σ) (horizon : Option Nat) (p : Script α) (time : Nat) (s : Logged σ) :
    p.play r.logged horizon time s = ((p.play r horizon time s.state).1,
      ⟨(p.play r horizon time s.state).2,
        ((p.deeds r horizon time s.state).filterMap Deed.request?).reverse ++ s.requests⟩) := by
  have hlog {request : Request} {requests log : List Request} :
      (request :: requests).reverse ++ log = requests.reverse ++ request :: log := by simp
  induction p generalizing time s with
  | done result => rfl
  | capture next ih =>
    rw [play, r.logged_capture]
    simp only [play, deeds, List.filterMap_cons, Deed.request?, hlog]
    rcases r.capture s.state with ⟨answer | ⟨delay, answer⟩ | _ | complaint, s₁⟩
    · exact ih answer time _
    · by_cases hw : within horizon (time + delay)
      · simp only [if_pos hw]
        exact ih answer (time + delay) _
      · simp only [if_neg hw]
        rfl
    · rfl
    · rfl
  | advance next ih =>
    rw [play, r.logged_advance]
    simp only [play, deeds, List.filterMap_cons, Deed.request?, hlog]
    rcases r.advance s.state with ⟨answer | ⟨delay, answer⟩ | _ | complaint, s₁⟩
    · exact ih answer time _
    · by_cases hw : within horizon (time + delay)
      · simp only [if_pos hw]
        exact ih answer (time + delay) _
      · simp only [if_neg hw]
        rfl
    · rfl
    · rfl
  | detect frame cycle next ih =>
    rw [play, r.logged_detect]
    simp only [play, deeds, List.filterMap_cons, Deed.request?, hlog]
    exact ih _ time _
  | wait delay next ih =>
    simp only [play, deeds, List.filterMap_cons, Deed.request?]
    by_cases hw : within horizon (time + delay)
    · simp only [if_pos hw]
      exact ih (time + delay) s
    · simp only [if_neg hw]
      rfl

end Script

/-- Playing a plan on goes on with what it has done. -/
theorem Progress.resume_does (r : Remote σ) (horizon : Option Nat) {plan : Script α} {ds : List Deed}
    {p : Progress α} (h : plan.Does ds p.rest?) (s : σ) :
    plan.Does (ds ++ p.deeds r horizon s) (p.resume r horizon s).1.rest? := by
  cases p with
  | due time rest =>
    rw [deeds, resume]
    by_cases hw : Script.within horizon time
    · rw [if_pos hw, if_pos hw]
      exact h.append (Script.play_does r horizon rest time s)
    · rw [if_neg hw, if_neg hw, List.append_nil]
      exact h
  | finished time result => simpa [deeds, resume] using h
  | stalled => simpa [deeds, resume] using h
  | crashed time complaint => simpa [deeds, resume] using h

end WindowSurvey
