import WindowSurvey.Proofs.Remote.Deeds
import WindowSurvey.Proofs.Survey.Saturation
/-!
# The end of a run's time

With partners that answer at once, only the waits take time. A run whose waits fit into its time returns after
exactly these waits, and any other is cut off at its deadline, in one of its waits. Every wait follows a switch,
so the windows were switched once more than there are whole waits until the deadline.

## Main statements

* `Survey.count_advance_of_prompt` — how often rounds that are cut off have switched
* `Survey.run_of_prompt` — when a run with prompt partners returns, and what it has done by then
-/

namespace WindowSurvey

/-- How often deeds bring the next window to the front. -/
def Deed.switches (ds : List Deed) : Nat := (ds.filterMap request?).count .advance

namespace Survey

variable {σ : Type} {r : Remote σ}

/-- A log changes nothing about a run. -/
theorem run_logged (settings : CyclingSettings) (start : Nat) (s : Logged σ) :
    run r.logged settings start s = ((run r settings start s.state).1,
      ⟨(run r settings start s.state).2,
        (((script settings).deeds r (some (start + budget settings)) start s.state).filterMap
          Deed.request?).reverse ++ s.requests⟩) := by
  simp only [run, Script.play_logged]

/-- Rounds that are cut off have switched once before each wait, and the last of the waits goes beyond the
limit. -/
theorem count_advance_of_prompt (hr : r.Prompt) (settle remaining cycle : Nat) (roster : Roster)
    (s : σ) {time limit : Nat} (htime : time ≤ limit)
    (hlate : limit < time + (remaining - 1) * settle) :
    Deed.switches ((rounds settle remaining cycle roster).deeds r (some limit) time s) =
      (limit - time) / settle + 1 := by
  induction remaining generalizing cycle time roster s with
  | zero => omega
  | succ remaining ih =>
    rw [Nat.add_sub_cancel] at hlate
    have hremaining : remaining ≠ 0 := by
      rintro rfl
      omega
    obtain ⟨k, hk⟩ := Nat.exists_eq_succ_of_ne_zero hremaining
    have hsum : time + remaining * settle = time + settle + (remaining - 1) * settle := by
      rw [hk, Nat.succ_mul, Nat.succ_sub_one]
      omega
    have hsettle : 0 < settle := by
      refine Nat.pos_of_ne_zero ?_
      rintro rfl
      omega
    have goOn (roster' : Roster) (s₁ : σ) :
        Deed.switches ((afterRound settle remaining cycle roster').deeds r (some limit) time s₁) =
          (limit - time) / settle + 1 := by
      have hadvance := hr.advance s₁
      generalize hs₂ : r.advance s₁ = a at hadvance
      obtain ⟨reply, s₂⟩ := a
      cases hadvance
      have hswitch (ds : List Deed) (answer? : Option (Except Failure Unit)) :
          Deed.switches (.advance answer? :: .wait settle :: ds) = Deed.switches ds + 1 := by
        simp only [Deed.switches, List.filterMap_cons, Deed.request?, List.count_cons_self]
      simp only [afterRound, if_neg hremaining, Script.deeds, hs₂, Script.within,
        decide_eq_true_eq, hswitch]
      by_cases hw : time + settle ≤ limit
      · have hwait : settle ≤ limit - time := by omega
        rw [if_pos hw, ih (cycle + 1) roster' s₂ hw (by omega), Nat.div_eq (limit - time),
          if_pos ⟨hsettle, hwait⟩, Nat.sub_sub]
      · rw [if_neg hw, Nat.div_eq_of_lt (by omega)]
        rfl
    obtain ⟨frame?, hcapture⟩ := hr.capture s
    generalize hs₁ : r.capture s = a at hcapture
    obtain ⟨reply, s₁⟩ := a
    cases hcapture
    simp only [rounds_succ, Script.deeds, hs₁]
    cases frame? with
    | none => exact goOn roster s₁
    | some frame =>
      obtain ⟨found, hdetect⟩ := hr.detect frame cycle s₁
      generalize hs₂ : r.detect frame cycle s₁ = a at hdetect
      obtain ⟨result, s₂⟩ := a
      cases hdetect
      simp only [Script.deeds, hs₂]
      exact goOn (roster.insertAll found).2 s₂

/-- Whether a run with prompt partners has a result depends on its waits alone. In time it returns when the waits
are over. Otherwise it reports at its deadline that its time is over, with nothing that was found by then; and unless
a wait ends just there, it has switched once more than there are whole waits until the deadline. -/
theorem run_of_prompt (hr : r.Prompt) (settings : CyclingSettings)
    (hbudget : settings.timeoutSeconds ≤ maxBudgetSeconds) (start : Nat) (s : σ) :
    ((settings.maxAttempts - 1) * settings.settleDelay < 1000 * settings.timeoutSeconds →
      ∃ shown s', run r settings start s =
        (.returned (start + (settings.maxAttempts - 1) * settings.settleDelay) (.ok shown), s')) ∧
    (1000 * settings.timeoutSeconds < (settings.maxAttempts - 1) * settings.settleDelay →
      (run r settings start s).1 = .returned (start + 1000 * settings.timeoutSeconds)
        (.error (.detectionTimeout settings.timeoutSeconds)) ∧
      (¬ settings.settleDelay ∣ 1000 * settings.timeoutSeconds →
        (run r.logged settings start ⟨s, []⟩).2.advances =
          1000 * settings.timeoutSeconds / settings.settleDelay + 1)) := by
  have htime : budget settings = 1000 * settings.timeoutSeconds := by
    rw [budget, if_pos hbudget]
  constructor
  · intro hfit
    exact run_returns hr settings start s (by omega)
  · intro hlate
    refine ⟨?_, fun _ => ?_⟩
    · rw [← htime]
      exact run_expires hr settings start s (by omega)
    · have hcount := count_advance_of_prompt hr settings.settleDelay settings.maxAttempts 0 .empty s
        (Nat.le_add_right start (budget settings)) (by omega)
      rw [Nat.add_sub_cancel_left, htime] at hcount
      rw [run_logged, Logged.advances, List.append_nil, List.count_reverse, htime]
      exact hcount

/-- Fifteen rounds with their usual waits fit into three minutes. After eleven seconds four waits are over; that a
window was found in every round does not count then. -/
theorem recorded_run_of_prompt :
    let r := Recording.remote fun _ _ => [Rehearsed.broad]
    let d : Recording := { frames := #[Rehearsal.blankFrame] }
    (∃ shown d', run r {} 0 d = (.returned 35000 (.ok shown), d')) ∧
    (run r { timeoutSeconds := 11 } 0 d).1 = .returned 11000 (.error (.detectionTimeout 11)) ∧
    (run r.logged { timeoutSeconds := 11 } 0 ⟨d, []⟩).2.advances = 5 := by
  intro r d
  have hprompt := Recording.remote_prompt fun _ _ => [Rehearsed.broad]
  obtain ⟨hreturns, -⟩ := run_of_prompt hprompt {} (by decide) 0 d
  obtain ⟨-, hexpires⟩ := run_of_prompt hprompt { timeoutSeconds := 11 } (by decide) 0 d
  obtain ⟨herror, hadvances⟩ := hexpires (by decide)
  exact ⟨hreturns (by decide), herror, hadvances (by decide)⟩

end Survey

end WindowSurvey
