import WindowSurvey.Proofs.Detector.Window
import WindowSurvey.Proofs.Survey.FixedScreen
import WindowSurvey.Proofs.Survey.Schedule
/-!
# Runs on overlooked screens

A detector that looks at the frames of a run finds in each what it finds in that frame. So when it overlooks
every frame that the run looks at, all that is found is small, and a run that comes to a result shows nothing.

## Main definitions

* `Deed.IsFoundBy` — what was found in a frame is what a detector finds there
* `Detector.OverlooksAll` — a detector overlooks every frame that was captured and looked at

## Main statements

* `Script.deeds_isFoundBy` — the deeds of a plan that a detector takes part in
* `Detector.shown_of_overlooksAll` — a run that looks at overlooked frames only shows nothing
-/

namespace WindowSurvey

variable {α σ : Type}

/-! ## What a detector finds -/

/-- When a frame was looked at, what was found is what a detector finds there. -/
def Deed.IsFoundBy (detector : Detector) : Deed → Prop
  | detect frame cycle found => found = .ok (detector.detect frame cycle)
  | _ => True

/-- A plan that is played with a detector looks at frames with it. -/
theorem Script.deeds_isFoundBy (r : Remote σ) (d : Detector) (horizon : Option Nat) (p : Script α)
    (time : Nat) (s : σ) : ∀ e ∈ p.deeds (r.withDetector d) horizon time s, e.IsFoundBy d := by
  induction p generalizing time s with
  | done result => exact List.forall_mem_nil _
  | capture next ih =>
    rw [deeds]
    refine List.forall_mem_cons.2 ⟨trivial, ?_⟩
    rcases (r.withDetector d).capture s with ⟨answer | ⟨delay, answer⟩ | _ | complaint, s⟩
    · exact ih answer time s
    · by_cases hw : within horizon (time + delay)
      · simpa only [if_pos hw] using ih answer (time + delay) s
      · simpa only [if_neg hw] using List.forall_mem_nil _
    · exact List.forall_mem_nil _
    · exact List.forall_mem_nil _
  | advance next ih =>
    rw [deeds]
    refine List.forall_mem_cons.2 ⟨trivial, ?_⟩
    rcases (r.withDetector d).advance s with ⟨answer | ⟨delay, answer⟩ | _ | complaint, s⟩
    · exact ih answer time s
    · by_cases hw : within horizon (time + delay)
      · simpa only [if_pos hw] using ih answer (time + delay) s
      · simpa only [if_neg hw] using List.forall_mem_nil _
    · exact List.forall_mem_nil _
    · exact List.forall_mem_nil _
  | detect frame cycle next ih => exact List.forall_mem_cons.2 ⟨rfl, ih _ time s⟩
  | wait delay next ih =>
    rw [deeds]
    refine List.forall_mem_cons.2 ⟨trivial, ?_⟩
    by_cases hw : within horizon (time + delay)
    · simpa only [if_pos hw] using ih (time + delay) s
    · simpa only [if_neg hw] using List.forall_mem_nil _

/-! ## Frames that are looked at -/

namespace Survey

/-- A frame that is looked at was captured. -/
theorem capture_mem_schedule {settle cycle k : Nat} {answers : List Answers} {frame : Frame}
    {found : Except String (List Region)} (h : .detect frame k found ∈ schedule settle cycle answers) :
    .capture (some (.ok (some frame))) ∈ schedule settle cycle answers := by
  induction answers generalizing cycle with
  | nil => cases h
  | cons a others ih =>
    rw [schedule, List.mem_append] at h ⊢
    rcases h with h | h
    · refine .inl ?_
      unfold roundDeeds at h ⊢
      cases hframe : a.frame? with
      | none => simp [hframe] at h
      | some frame' =>
        have hcapture : a.capture? = some (.ok (some frame')) := by
          unfold Answers.frame? at hframe
          split at hframe
          next hc => rw [hc, hframe]
          next => cases hframe
        simp only [hframe, List.mem_cons, reduceCtorEq, Deed.detect.injEq, List.not_mem_nil, or_false,
          false_or] at h
        rw [hcapture, h.1]
        exact List.mem_cons_self
    · refine .inr ?_
      split_ifs at h ⊢ with hlast
      · cases h
      · simp only [List.mem_cons, reduceCtorEq, false_or] at h ⊢
        exact ih h

end Survey

namespace Detector

/-- A detector overlooks every frame that was captured and looked at. -/
def OverlooksAll (d : Detector) (ds : List Deed) : Prop :=
  ∀ frame cycle found, .detect frame cycle found ∈ ds → .capture (some (.ok (some frame))) ∈ ds →
    d.Overlooks frame.dimensions

variable {d : Detector} {ds after : List Deed}

theorem OverlooksAll.of_append (h : d.OverlooksAll (ds ++ after)) : d.OverlooksAll ds :=
  fun frame cycle found hdetect hcapture =>
    h frame cycle found (List.mem_append_left _ hdetect) (List.mem_append_left _ hcapture)

/-- A run that came to a result shows nothing when its detector overlooked all that it looked at. -/
theorem shown_of_overlooksAll {settings : CyclingSettings} {shown : List Region}
    (hwindow : d.settings.traceWindow < 2 ^ 32)
    (hdoes : (Survey.script settings).Does ds (some (.done (.ok shown))))
    (hfound : ∀ e ∈ ds, e.IsFoundBy d) (hover : d.OverlooksAll ds) : shown = [] := by
  obtain ⟨answers, -, hds, hstops, rfl⟩ := Survey.does_rounds hdoes fun p hp =>
    ⟨_, (Option.some.inj hp).symm⟩
  rw [hds] at hstops
  rw [Survey.upToFailure_eq hstops] at hds
  refine Roster.finish_of_small fun x hx => ?_
  obtain ⟨e, he, hx⟩ := List.mem_flatMap.1 hx
  cases e with
  | detect frame cycle found =>
    cases hfound _ he
    refine category_of_mem_detect hwindow (hover frame cycle _ he ?_) hx
    rw [hds] at he ⊢
    exact Survey.capture_mem_schedule he
  | capture | advance | wait => cases hx

/-- The same for a run on the clock. -/
theorem run_of_overlooksAll (hwindow : d.settings.traceWindow < 2 ^ 32) {r : Remote σ}
    {settings : CyclingSettings} {start time : Nat} {s s' : σ} {shown : List Region}
    (hover : d.OverlooksAll ((Survey.script settings).deeds (r.withDetector d)
      (some (start + Survey.budget settings)) start s))
    (h : Survey.run (r.withDetector d) settings start s = (.returned time (.ok shown), s')) :
    shown = [] := by
  have hdoes := Script.play_does (r.withDetector d) (some (start + Survey.budget settings))
    (Survey.script settings) start s
  have hfound := (Survey.script settings).deeds_isFoundBy r d (some (start + Survey.budget settings))
    start s
  have hending : Survey.ending settings (start + Survey.budget settings)
      ((Survey.script settings).play (r.withDetector d) (some (start + Survey.budget settings)) start s).1 =
        .returned time (.ok shown) := congrArg Prod.fst h
  generalize ((Survey.script settings).play (r.withDetector d) (some (start + Survey.budget settings))
    start s).1 = progress at hdoes hending
  cases progress with
  | finished t result =>
    cases hending
    exact shown_of_overlooksAll hwindow hdoes hfound hover
  | due | stalled | crashed => cases hending

end Detector

end WindowSurvey
