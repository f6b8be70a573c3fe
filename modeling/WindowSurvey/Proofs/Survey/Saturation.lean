import WindowSurvey.Proofs.Detector.DrawnScreens
import WindowSurvey.Proofs.Detector.Regions
import WindowSurvey.Proofs.Survey.Course
import WindowSurvey.Remote.Recording
/-!
# Runs over recordings

Partners that answer at once and never fail leave a run no choice: it takes as long as its waits, and either it
fits into its time or it is cut off. Over a recording its rounds are the frames in turn, and since a frame
shows the same regions in every round, all rounds after the first time around find nothing new.

## Main definitions

* `Remote.Prompt` — partners that answer at once and never fail
* `Recording.round` — what a round over a fresh recording is
-/

namespace WindowSurvey

/-- The partners answer at once, and nothing fails. -/
structure Remote.Prompt {σ : Type} (r : Remote σ) : Prop where
  capture : ∀ s, ∃ frame?, (r.capture s).1 = .now (.ok frame?)
  advance : ∀ s, (r.advance s).1 = .now (.ok ())
  detect : ∀ frame cycle s, ∃ found, (r.detect frame cycle s).1 = .ok found

namespace Survey

variable {σ : Type} {r : Remote σ}

/-! ## How long a run takes -/

/-- Rounds with prompt partners are over when the waits between them are, or they are cut off. -/
theorem play_of_prompt (hr : r.Prompt) (settle remaining cycle : Nat) (roster : Roster) (s : σ)
    {time limit : Nat} (htime : time ≤ limit) :
    if time + (remaining - 1) * settle ≤ limit then
      ∃ shown s', (rounds settle remaining cycle roster).play r (some limit) time s =
        (.finished (time + (remaining - 1) * settle) (.ok shown), s')
    else ∃ t rest s', (rounds settle remaining cycle roster).play r (some limit) time s =
      (.due t rest, s') := by
  induction remaining generalizing cycle time roster s with
  | zero => simp [rounds, Script.play, htime]
  | succ remaining ih =>
    have goOn (roster' : Roster) (s₁ : σ) :
        if time + remaining * settle ≤ limit then
          ∃ shown s', (afterRound settle remaining cycle roster').play r (some limit) time s₁ =
            (.finished (time + remaining * settle) (.ok shown), s')
        else ∃ t rest s', (afterRound settle remaining cycle roster').play r (some limit) time s₁ =
            (.due t rest, s') := by
      by_cases h0 : remaining = 0
      · subst h0
        simp [afterRound, Script.play, htime]
      · have hadvance := hr.advance s₁
        generalize hs₂ : r.advance s₁ = a at hadvance
        obtain ⟨reply, s₂⟩ := a
        cases hadvance
        have hsum : time + remaining * settle = time + settle + (remaining - 1) * settle := by
          obtain ⟨k, rfl⟩ := Nat.exists_eq_succ_of_ne_zero h0
          rw [Nat.succ_mul, Nat.succ_sub_one]
          omega
        simp only [afterRound, if_neg h0, Script.play, hs₂, Script.within, decide_eq_true_eq, hsum]
        by_cases hw : time + settle ≤ limit
        · simp only [if_pos hw]
          exact ih (cycle + 1) roster' s₂ hw
        · have hlate : ¬ time + settle + (remaining - 1) * settle ≤ limit := by omega
          simp [if_neg hw, if_neg hlate]
    obtain ⟨frame?, hcapture⟩ := hr.capture s
    generalize hs₁ : r.capture s = a at hcapture
    obtain ⟨reply, s₁⟩ := a
    cases hcapture
    simp only [rounds_succ, Script.play, hs₁, Nat.add_sub_cancel]
    cases frame? with
    | none => exact goOn roster s₁
    | some frame =>
      obtain ⟨found, hdetect⟩ := hr.detect frame cycle s₁
      generalize hs₂ : r.detect frame cycle s₁ = a at hdetect
      obtain ⟨result, s₂⟩ := a
      cases hdetect
      simp only [Script.play, hs₂]
      exact goOn (roster.insertAll found).2 s₂

/-- A run with prompt partners has a result when its waits fit into its time. -/
theorem run_returns (hr : r.Prompt) (settings : CyclingSettings) (start : Nat) (s : σ)
    (hfit : (settings.maxAttempts - 1) * settings.settleDelay ≤ budget settings) :
    ∃ shown s', run r settings start s =
      (.returned (start + (settings.maxAttempts - 1) * settings.settleDelay) (.ok shown), s') := by
  have h := play_of_prompt hr settings.settleDelay settings.maxAttempts 0 .empty s
    (Nat.le_add_right start (budget settings))
  rw [if_pos (Nat.add_le_add_left hfit start)] at h
  obtain ⟨shown, s', hplay⟩ := h
  exact ⟨shown, s', by rw [run, script, hplay]; rfl⟩

/-- A run with prompt partners is cut off when its waits take longer than it may. -/
theorem run_expires (hr : r.Prompt) (settings : CyclingSettings) (start : Nat) (s : σ)
    (hlate : budget settings < (settings.maxAttempts - 1) * settings.settleDelay) :
    (run r settings start s).1 =
      .returned (start + budget settings) (.error (.detectionTimeout settings.timeoutSeconds)) := by
  have h := play_of_prompt hr settings.settleDelay settings.maxAttempts 0 .empty s
    (Nat.le_add_right start (budget settings))
  rw [if_neg (by omega)] at h
  obtain ⟨t, rest, s', hplay⟩ := h
  rw [run, script, hplay]
  rfl

end Survey

/-! ## Recordings -/

namespace Recording

variable (detect : Frame → Nat → List Region) (frames : Array Frame)

theorem remote_prompt : (remote detect).Prompt where
  capture d := ⟨d.capture, rfl⟩
  advance _ := rfl
  detect frame cycle _ := ⟨detect frame cycle, rfl⟩

theorem capture_eq (advances : Nat) :
    (⟨frames, advances⟩ : Recording).capture = frames[advances % frames.size]? := by
  by_cases hempty : frames.isEmpty
  · have hsize : frames.size = 0 := by simpa using hempty
    simp [capture, position, hempty, hsize]
  · simp [capture, position, hempty]

/-- The round with a number over a recording that was fresh at the beginning: the frames come in turn. -/
def round (cycle : Nat) : Round :=
  match frames[cycle % frames.size]? with
  | some frame => ⟨some frame, detect frame cycle⟩
  | none => ⟨none, []⟩

theorem round_played (cycle : Nat) :
    (round detect frames cycle).Played (remote detect) cycle ⟨frames, cycle⟩ ⟨frames, cycle⟩ := by
  have hcapture : ((remote detect).capture ⟨frames, cycle⟩).1.answer? =
      some (.ok frames[cycle % frames.size]?) := by
    rw [← capture_eq]
    rfl
  rw [round]
  cases hf : frames[cycle % frames.size]? with
  | none => exact .blank (by rw [hcapture, hf])
  | some frame => exact .seen (by rw [hcapture, hf]) rfl

theorem course_recording (count cycle : Nat) :
    Survey.Course (remote detect) cycle ((List.range' cycle count).map (round detect frames))
      ⟨frames, cycle⟩ ⟨frames, cycle + (count - 1)⟩ := by
  induction count generalizing cycle with
  | zero => exact .nil
  | succ count ih =>
    cases count with
    | zero => exact .last (round_played detect frames cycle)
    | succ count =>
      have hrest := ih (cycle + 1)
      rw [Nat.add_right_comm, Nat.add_assoc] at hrest
      exact .next (round_played detect frames cycle) rfl hrest

/-- What is found over a recording in a number of rounds. -/
def sightings (count : Nat) : List (List Region) :=
  (List.range count).map fun cycle => (round detect frames cycle).found

/-- The result of a run over a fresh recording. -/
theorem shown_eq {settings : CyclingSettings} {start time : Nat} {shown : List Region} {d : Recording}
    (h : Survey.run (remote detect) settings start { frames } = (.returned time (.ok shown), d)) :
    shown = Region.arrange (Region.firsts (sightings detect frames settings.maxAttempts).flatten) := by
  obtain ⟨xs, hlength, hcourse, hshown⟩ := Survey.course_of_run h
  obtain ⟨rfl, -⟩ := hcourse.unique (course_recording detect frames settings.maxAttempts 0)
    (by simp [hlength])
  rw [hshown, List.flatMap_def, List.map_map, ← List.range_eq_range']
  rfl

end Recording

/-! ## The second time around -/

namespace Detector

open Recording (remote round sightings)

variable (d : Detector) (frames : Array Frame)

theorem getElem?_sightings {count cycle : Nat} {found : List Region} :
    (sightings d.detect frames count)[cycle]? = some found ↔
      cycle < count ∧ found = (round d.detect frames cycle).found := by
  rw [sightings, List.getElem?_map, Option.map_eq_some_iff]
  constructor
  · rintro ⟨k, hk, rfl⟩
    obtain ⟨hlt, rfl⟩ := List.getElem?_eq_some_iff.1 hk
    rw [List.length_range] at hlt
    rw [List.getElem_range]
    exact ⟨hlt, rfl⟩
  · rintro ⟨hlt, rfl⟩
    exact ⟨cycle, by simp [hlt], rfl⟩

/-- What a round finds, the round as many frames earlier has found. -/
theorem keyIn_round_mod (cycle : Nat) (k : SightingKey) :
    Region.keyIn (round d.detect frames cycle).found k =
      Region.keyIn (round d.detect frames (cycle % frames.size)).found k := by
  rw [Recording.round, Recording.round, Nat.mod_mod]
  cases frames[cycle % frames.size]? with
  | none => rfl
  | some frame =>
    -- the number of the round is no part of a key
    have hkeys (n : Nat) : Region.keyIn ((d.detect frame 0).map (·.withCycle n)) k =
        Region.keyIn (d.detect frame 0) k := List.any_map
    simp only
    rw [detect_withCycle, detect_withCycle d frame (cycle % frames.size), hkeys, hkeys]

/-- All windows are seen the first time around. -/
theorem firsts_sightings (hframes : 0 < frames.size) {count : Nat} (h : frames.size ≤ count) :
    Region.firsts (sightings d.detect frames count).flatten =
      Region.firsts (sightings d.detect frames frames.size).flatten := by
  obtain ⟨more, rfl⟩ := Nat.exists_eq_add_of_le h
  rw [sightings, List.range_add, List.map_append, List.flatten_append]
  refine Region.firsts_append_of_keyIn fun y hy => ?_
  obtain ⟨found, hfound, hy⟩ := List.mem_flatten.1 hy
  rw [List.map_map, List.mem_map] at hfound
  obtain ⟨cycle, -, rfl⟩ := hfound
  have hkey : Region.keyIn (round d.detect frames ((frames.size + cycle) % frames.size)).found y.key :=
    keyIn_round_mod d frames _ _ ▸ Region.keyIn_iff.2 ⟨y, hy, rfl⟩
  obtain ⟨z, hz, hzy⟩ := Region.keyIn_iff.1 hkey
  refine Region.keyIn_iff.2 ⟨z, List.mem_flatten.2 ⟨_, ?_, hz⟩, hzy⟩
  exact List.mem_map.2 ⟨_, List.mem_range.2 (Nat.mod_lt _ hframes), rfl⟩

/-- A first sighting was made in the round whose number it carries, and in no earlier round. -/
theorem mem_firsts_sightings {x : Region} {count : Nat} (hcount : count ≤ frames.size)
    (hx : x ∈ Region.firsts (sightings d.detect frames count).flatten) :
    x.cycle < count ∧ (∃ frame, frames[x.cycle]? = some frame ∧ x ∈ d.detect frame x.cycle) ∧
      ∀ j frame, j < x.cycle → frames[j]? = some frame → ∀ y ∈ d.detect frame j, y.key ≠ x.key := by
  obtain ⟨k, found, hk, hmem, hbefore⟩ := Region.mem_firsts_flatten hx
  obtain ⟨hlt, rfl⟩ := (getElem?_sightings d frames).1 hk
  have hround {j : Nat} (hj : j < count) :
      ∃ frame, frames[j]? = some frame ∧ round d.detect frames j = ⟨some frame, d.detect frame j⟩ := by
    have hlt : j < frames.size := by omega
    exact ⟨frames[j], Array.getElem?_eq_getElem hlt, by simp [Recording.round, Nat.mod_eq_of_lt hlt, hlt]⟩
  obtain ⟨frame, hframe, he⟩ := hround hlt
  rw [he] at hmem
  cases d.cycle_of_mem_detect hmem
  refine ⟨hlt, ⟨frame, hframe, hmem⟩, fun j frame' hj hframe' y hy hkey => ?_⟩
  obtain ⟨frame'', hframe'', he'⟩ := hround (Nat.lt_trans hj hlt)
  cases hframe'.symm.trans hframe''
  have hnone := hbefore j _ hj ((getElem?_sightings d frames).2 ⟨Nat.lt_trans hj hlt, rfl⟩)
  rw [he', Bool.eq_false_iff] at hnone
  exact hnone (Region.keyIn_iff.2 ⟨y, hy, hkey⟩)

end Detector

namespace Survey

open Recording (remote)

/-- A run over a fresh recording that is not cut off shows what a run of one time around shows, whatever the
frames are. A region carries the number of the first frame in which a region with its key is found. -/
theorem run_saturates (d : Detector) (frames : Array Frame) (hframes : 0 < frames.size)
    (settings : CyclingSettings) (hattempts : frames.size ≤ settings.maxAttempts) (start : Nat)
    (htime : ∀ time seconds, (run (remote d.detect) settings start { frames }).1 ≠
      .returned time (.error (.detectionTimeout seconds))) :
    ∃ shown time time',
      (run (remote d.detect) settings start { frames }).1 = .returned time (.ok shown) ∧
      (run (remote d.detect) { settings with maxAttempts := frames.size } start { frames }).1 =
        .returned time' (.ok shown) ∧
      ∀ x ∈ shown, x.cycle < frames.size ∧
        (∃ frame, frames[x.cycle]? = some frame ∧ x ∈ d.detect frame x.cycle) ∧
        ∀ j frame, j < x.cycle → frames[j]? = some frame → ∀ y ∈ d.detect frame j, y.key ≠ x.key := by
  have hprompt := Recording.remote_prompt d.detect
  by_cases hfit : (settings.maxAttempts - 1) * settings.settleDelay ≤ budget settings
  · have hfit' : (frames.size - 1) * settings.settleDelay ≤ budget settings :=
      Nat.le_trans (Nat.mul_le_mul_right _ (Nat.sub_le_sub_right hattempts 1)) hfit
    obtain ⟨shown, _, hrun⟩ := run_returns hprompt settings start { frames } hfit
    obtain ⟨shown', _, hrun'⟩ := run_returns hprompt { settings with maxAttempts := frames.size } start
      { frames } hfit'
    have hshown := Recording.shown_eq _ _ hrun
    have hshown' := Recording.shown_eq _ _ hrun'
    rw [Detector.firsts_sightings d frames hframes hattempts] at hshown
    have heq : shown = shown' := hshown.trans hshown'.symm
    subst heq
    refine ⟨shown, _, _, by rw [hrun], by rw [hrun'], fun x hx => ?_⟩
    rw [hshown, Region.mem_arrange] at hx
    exact Detector.mem_firsts_sightings d frames Nat.le.refl hx.1
  · exact absurd (run_expires hprompt settings start { frames } (by omega)) (htime _ _)

/-! ### Seven rounds over three frames -/

namespace Recorded

/-- A frame whose buffer is too short, a screen with windows, and a single pixel. -/
def frames : Array Frame :=
  #[⟨#[], ⟨2, 1⟩, .gray8⟩, Detector.Drawn.screen.render .bgra8, ⟨#[7], ⟨1, 1⟩, .gray8⟩]

def settings : CyclingSettings := { maxAttempts := 7 }

theorem run_frames : ∃ shown d, run (remote ({} : Detector).detect) settings 0 { frames } =
    (.returned 15000 (.ok shown), d) :=
  run_returns (Recording.remote_prompt _) settings 0 { frames } (by decide)

end Recorded

/-- In seven rounds over three frames of different sizes and formats, one of which is not valid, the same is
shown as in three rounds. -/
theorem recorded_run_saturates :
    0 < Recorded.frames.size ∧ Recorded.frames.size ≤ Recorded.settings.maxAttempts ∧
    ∃ shown time time',
      (run (remote ({} : Detector).detect) Recorded.settings 0 { frames := Recorded.frames }).1 =
        .returned time (.ok shown) ∧
      (run (remote ({} : Detector).detect) { Recorded.settings with maxAttempts := 3 } 0
        { frames := Recorded.frames }).1 = .returned time' (.ok shown) ∧
      ∀ x ∈ shown, x.cycle < 3 ∧
        (∃ frame, Recorded.frames[x.cycle]? = some frame ∧ x ∈ ({} : Detector).detect frame x.cycle) ∧
        ∀ j frame, j < x.cycle → Recorded.frames[j]? = some frame →
          ∀ y ∈ ({} : Detector).detect frame j, y.key ≠ x.key := by
  obtain ⟨shown, d, hrun⟩ := Recorded.run_frames
  have htime : ∀ time seconds,
      (run (remote ({} : Detector).detect) Recorded.settings 0 { frames := Recorded.frames }).1 ≠
        .returned time (.error (.detectionTimeout seconds)) := by
    intro time seconds
    rw [hrun]
    simp
  exact ⟨by decide, by decide,
    run_saturates {} Recorded.frames (by decide) Recorded.settings (by decide) 0 htime⟩

end Survey

end WindowSurvey
