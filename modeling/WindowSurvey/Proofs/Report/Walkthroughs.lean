import WindowSurvey.Proofs.Phase.Rest
import WindowSurvey.Proofs.Survey.RunTasks
import WindowSurvey.Report.Basic
import WindowSurvey.Walkthrough
/-!
# What is reported of a walkthrough

A walkthrough of a recording is a detection run, perhaps a selection, and perhaps a switch to a window. It is
followed command by command, each of which finds the system at rest, so that every report can be read off the
result of the detection run and the wishes.

## Main definitions

* `Report.Bare` — a report that gives a reason and nothing else
* `Report.Tours` — a report of windows that were found and picked
* `Walkthrough.Finds` — a system at rest with a snapshot and a desktop
* `Walkthrough.Wishes.Chooses` — the regions that are wished for
* `Walkthrough.Wishes.Followed` — what is reported and how often the windows are switched after a run with
  a result

## Main statements

* `Walkthrough.run_reports` — the report of every walkthrough
-/

namespace WindowSurvey

theorem Controller.detectedSnapshot_of_ne_nil {regions : List Region} (h : regions ≠ []) :
    detectedSnapshot (.ok regions) = { phase := .selecting, detected := regions } := by
  cases regions with
  | nil => exact absurd rfl h
  | cons region regions => rfl

/-! ## Reports -/

theorem Failure.message_ne_empty (f : Failure) : f.message ≠ "" := by
  unfold message
  cases f <;> simp

namespace Report

/-- The report of a flow that ended where it began: nothing but a reason, which is never empty. -/
structure Bare (r : Report) (reason : String) : Prop where
  phase : r.phase = "normal"
  error : r.error = some reason
  reason_ne_empty : reason ≠ ""
  detected : r.detected = []
  selected : r.selected = []
  currentIndex : r.currentIndex = none

/-- The entries describe the regions one by one, each under its place in the list. -/
def Lists (entries : List ReportedRegion) (regions : List Region) : Prop :=
  ∀ i, entries[i]? = regions[i]?.map (ReportedRegion.ofRegion i)

/-- The window in front among those that were picked: the target if it is one of them, and else the first. -/
def front (target : Option Nat) (count : Nat) : Nat :=
  match target with
  | some index => if index < count then index else 0
  | none => 0

/-- The report of windows that were found and of those that were picked. -/
structure Tours (r : Report) (found chosen : List Region) (target : Option Nat) : Prop where
  phase : r.phase = "navigating"
  error : r.error = none
  detected : Lists r.detected found
  selected : Lists r.selected chosen
  currentIndex : r.currentIndex = some (front target chosen.length)

theorem lists_describe (rs : List Region) : Lists (describe rs) rs := by
  intro i
  rw [describe, List.getElem?_map, List.getElem?_zipIdx]
  cases rs[i]? <;> simp

/-- A flow that ended where it began gives its reason only. -/
theorem bare_ofSnapshot (runId : RunId) (now : String) (f : Failure) :
    (ofSnapshot runId now { errorMessage := f.message }).Bare f.message where
  phase := rfl
  error := by
    have hmessage : f.message.isEmpty = false := by
      simpa using f.message_ne_empty
    simp [ofSnapshot, hmessage]
  reason_ne_empty := f.message_ne_empty
  detected := rfl
  selected := rfl
  currentIndex := rfl

/-- A flow in which windows were picked tells which were found and which were picked. -/
theorem tours_ofSnapshot (runId : RunId) (now : String) (found chosen : List Region)
    (target : Option Nat) : (ofSnapshot runId now {
      phase := .navigating
      detected := found
      selected := chosen
      currentIndex := front target chosen.length }).Tours found chosen target where
  phase := rfl
  error := by simp [ofSnapshot]
  detected := lists_describe found
  selected := lists_describe chosen
  currentIndex := by simp [ofSnapshot]

end Report

namespace Walkthrough

variable {settings : Settings} {library : ImageLibrary} {s : System Recording} {snapshot : Snapshot}
  {d : Recording}

/-! ## Commands -/

/-- The system is at rest, with a snapshot and a desktop. -/
structure Finds (s : System Recording) (snapshot : Snapshot) (d : Recording) : Prop where
  rest : s.AtRest
  snapshot : s.controller.snapshot = snapshot
  remote : s.remote = d

theorem perform_eq_attend (settings : Settings) (library : ImageLibrary) (s : System Recording)
    (command : Command) : perform settings library s command =
      s.attend (remote settings library) settings.cycling command := rfl

/-- The detection run of a walkthrough, looked at alone. -/
def survey (settings : Settings) (library : ImageLibrary) (recording : Recording) : Survey.Ending × Recording :=
  Survey.run (remote settings library) settings.cycling 0 recording

/-- Detection comes to its end. -/
theorem perform_start (settings : Settings) (d : Recording) {time : Nat} {found : Survey.Found}
    (h : (survey settings library d).1 = .returned time found) :
    Finds (perform settings library { remote := d } .start) (Controller.detectedSnapshot found)
      (survey settings library d).2 := by
  have hrest : ({ remote := d } : System Recording).AtRest := .init d
  obtain ⟨task, hwork, hend⟩ := Task.work_detection (remote settings library) settings.cycling 0 1 d
  have hended : task.end? = some (survey settings library d).1.outcome := hend
  rw [h] at hended
  have ho : ({ remote := d } : System Recording).controller.obey? .start =
      some (({} : Controller).beginDetection, some .detection) := rfl
  have hattend := System.attend_of_begins hrest ho hwork hended
  rw [perform_eq_attend, hattend]
  exact ⟨hrest.concluded hended _ _, rfl, rfl⟩

/-- Picking takes no time and leaves the desktop alone. -/
theorem perform_select (settings : Settings) (library : ImageLibrary) (h : Finds s snapshot d)
    (hphase : snapshot.phase = .selecting) (regions : List Region) :
    Finds (perform settings library s (.select regions)) (Controller.pickedSnapshot snapshot regions) d := by
  obtain ⟨hrest, rfl, rfl⟩ := h
  have ho : s.controller.obey? (.select regions) = some ({ after := { s.controller with
      snapshot := Controller.pickedSnapshot s.controller.snapshot regions } }, none) := by
    rw [Controller.obey?, Controller.select?_eq_some.2 ⟨hphase, rfl⟩, Option.map_some]
  obtain ⟨hattend, hrest'⟩ :=
    System.attend_of_ends (remote settings library) settings.cycling hrest ho
  rw [perform_eq_attend, hattend]
  exact ⟨hrest', by rw [System.controller_perform], System.remote_perform ..⟩

/-- A switch to a window that was picked brings it to the front. -/
theorem perform_navigate (h : Finds s snapshot d) (hphase : snapshot.phase = .navigating)
    (hprocessing : snapshot.processing = false) (hmessage : snapshot.errorMessage = "") {index : Nat}
    {region : Region} (hregion : snapshot.selected[index]? = some region) :
    Finds (perform settings library s (.navigate index)) { snapshot with currentIndex := index }
      { d with advances := d.advances + region.cycle } := by
  obtain ⟨hrest, rfl, rfl⟩ := h
  have ho : s.controller.obey? (.navigate index) = some ({ after := { s.controller with
      snapshot := { s.controller.snapshot with processing := true, errorMessage := "" }
      generation := s.controller.generation + 1 } }, some (.navigation index region.cycle)) := by
    rw [Controller.obey?, Controller.navigate?_eq_some.2
      ⟨hphase, hprocessing, ⟨region, hregion, rfl⟩, rfl⟩, Option.map_some]
  obtain ⟨task, time, hwork, hend⟩ := Task.work_navigation
    (detector settings library).detect settings.cycling s.clock
    (s.controller.generation + 1) index region.cycle s.remote
  have hattend := System.attend_of_begins (r := remote settings library) hrest ho hwork hend
  rw [perform_eq_attend, hattend]
  refine ⟨hrest.concluded hend _ _, ?_, rfl⟩
  simp [System.concluded, Transition.concluded, Controller.finishedSnapshot,
    Controller.navigatedSnapshot, hprocessing, hmessage]

/-- Nothing happens without such a window. -/
theorem perform_navigate_of_none (h : Finds s snapshot d) {index : Nat}
    (hregion : snapshot.selected[index]? = none) :
    Finds (perform settings library s (.navigate index)) snapshot d := by
  obtain ⟨hrest, rfl, rfl⟩ := h
  have ho : s.controller.obey? (.navigate index) = none := by
    rw [Controller.obey?, Option.map_eq_none_iff, Option.eq_none_iff_forall_ne_some]
    rintro ⟨t, cycles⟩ hsome
    obtain ⟨-, -, ⟨region, hr, -⟩, -⟩ := Controller.navigate?_eq_some.1 hsome
    cases hregion.symm.trans hr
  obtain ⟨hattend, hrest'⟩ :=
    System.attend_of_refused (remote settings library) settings.cycling hrest ho
  rw [perform_eq_attend, hattend]
  exact ⟨hrest', rfl, rfl⟩

/-! ## Visits -/

/-- The switches to the target, if it is one of the regions. -/
def switchesTo (target : Option Nat) (chosen : List Region) : Nat :=
  match target.bind (chosen[·]?) with
  | some region => region.cycle
  | none => 0

/-- After a visit the target is in front, if there is one. -/
theorem visit_of_navigating (settings : Settings) (library : ImageLibrary) (h : Finds s snapshot d)
    (hphase : snapshot.phase = .navigating) (hprocessing : snapshot.processing = false)
    (hmessage : snapshot.errorMessage = "") (hindex : snapshot.currentIndex = 0)
    (target : Option Nat) :
    Finds (visit settings library target s)
      { snapshot with currentIndex := Report.front target snapshot.selected.length }
      { d with advances := d.advances + switchesTo target snapshot.selected } := by
  have hsame : { snapshot with currentIndex := 0 } = snapshot := by rw [← hindex]
  cases target with
  | none =>
    rw [visit, Report.front, hsame]
    exact h
  | some index =>
    have hs : s.controller.snapshot.phase = .navigating := by rw [h.snapshot, hphase]
    simp only [visit, hs, if_true, switchesTo, Option.bind_some, Report.front]
    cases hregion : snapshot.selected[index]? with
    | none =>
      have hlength : ¬ index < snapshot.selected.length := by simpa using hregion
      rw [if_neg hlength, hsame]
      exact perform_navigate_of_none h hregion
    | some region =>
      rw [if_pos (List.getElem?_eq_some_iff.1 hregion).1]
      exact perform_navigate h hphase hprocessing hmessage hregion

/-- Nothing is visited unless windows were picked. -/
theorem visit_of_ne (h : s.controller.snapshot.phase ≠ .navigating) (target : Option Nat) :
    visit settings library target s = s := by
  cases target with
  | none => rfl
  | some index => rw [visit]; exact if_neg h

/-! ## Picks -/

/-- Picks are made in their order, or the first of them for which there is no region is told. -/
theorem mapM_pick (detected : List Region) (indices : List Nat) :
    (∃ chosen, indices.mapM (pick detected) = .ok chosen ∧
      chosen.map some = indices.map (detected[·]?)) ∨
    ∃ before i after, indices = before ++ i :: after ∧ (∀ j ∈ before, j < detected.length) ∧
      detected.length ≤ i ∧ indices.mapM (pick detected) = .error ⟨i, detected.length⟩ := by
  induction indices with
  | nil => exact .inl ⟨[], rfl, rfl⟩
  | cons i indices ih =>
    rw [List.mapM_cons]
    cases hi : detected[i]? with
    | none =>
      have hpick : pick detected i = .error ⟨i, detected.length⟩ := by rw [pick, hi]
      rw [hpick]
      exact .inr ⟨[], i, indices, rfl, by simp, List.getElem?_eq_none_iff.1 hi, rfl⟩
    | some region =>
      have hpick : pick detected i = .ok region := by rw [pick, hi]
      rw [hpick]
      rcases ih with ⟨chosen, hok, hchosen⟩ | ⟨before, k, after, rfl, hbefore, hk, herror⟩
      · exact .inl ⟨region :: chosen, by rw [hok]; rfl, by simp [hi, hchosen]⟩
      · refine .inr ⟨i :: before, k, after, rfl, ?_, hk, by rw [herror]; rfl⟩
        exact List.forall_mem_cons.2 ⟨(List.getElem?_eq_some_iff.1 hi).1, hbefore⟩

/-- Regions that are wished for: those at the picks, in the order of the picks, or all of them. -/
def Wishes.Chooses (wishes : Wishes) (detected chosen : List Region) : Prop :=
  match wishes.picks with
  | some indices => chosen.map some = indices.map (detected[·]?)
  | none => chosen = detected

theorem picked_cases (wishes : Wishes) (detected : List Region) :
    (∃ chosen, picked detected wishes.picks = .ok chosen ∧ wishes.Chooses detected chosen) ∨
    ∃ before i after, wishes.picks = some (before ++ i :: after) ∧
      (∀ j ∈ before, j < detected.length) ∧ detected.length ≤ i ∧
      picked detected wishes.picks = .error ⟨i, detected.length⟩ := by
  obtain ⟨_ | indices, target⟩ := wishes
  · exact .inl ⟨detected, rfl, rfl⟩
  · rcases mapM_pick detected indices with ⟨chosen, hok, hchosen⟩ |
      ⟨before, i, after, rfl, hbefore, hi, herror⟩
    · exact .inl ⟨chosen, hok, hchosen⟩
    · exact .inr ⟨before, i, after, rfl, hbefore, hi, herror⟩

namespace Wishes.Chooses

variable {wishes : Wishes} {detected chosen : List Region}

/-- There is a region for every pick. -/
theorem lt_length (h : wishes.Chooses detected chosen) {indices : List Nat}
    (hpicks : wishes.picks = some indices) {i : Nat} (hi : i ∈ indices) : i < detected.length := by
  rw [Chooses, hpicks] at h
  have hmem : detected[i]? ∈ chosen.map some := by
    rw [h]
    exact List.mem_map_of_mem hi
  obtain ⟨region, -, hregion⟩ := List.mem_map.1 hmem
  exact (List.getElem?_eq_some_iff.1 hregion.symm).1

/-- Nothing is chosen only if that is what is wished for. -/
theorem eq_nil_iff (h : wishes.Chooses detected chosen) (hne : detected ≠ []) :
    chosen = [] ↔ wishes.picks = some [] := by
  rw [Chooses] at h
  split at h
  next indices hpicks =>
    have hlength : chosen.length = indices.length := by simpa using congrArg List.length h
    rw [hpicks, Option.some.injEq, ← List.length_eq_zero_iff, hlength, List.length_eq_zero_iff]
  next hpicks =>
    simp [h, hne, hpicks]

end Wishes.Chooses

/-! ## Walkthroughs -/

section Run

variable {wishes : Wishes} {recording : Recording} {time : Nat} {detected chosen : List Region}

/-- The detection run of a walkthrough switches once between each two rounds. -/
theorem advances_eq_of_run
    (h : (survey settings library recording).1 = .returned time (.ok detected)) :
    (survey settings library recording).2.advances =
      recording.advances + (settings.cycling.maxAttempts - 1) := by
  have hrun : Survey.run (remote settings library) settings.cycling 0 recording =
      (.returned time (.ok detected), (survey settings library recording).2) := Prod.ext h rfl
  exact congrArg Recording.advances (Recording.eq_of_run hrun)

/-- A detection run without a result ends the flow. -/
theorem run_of_failure (wishes : Wishes) {found : Survey.Found} {f : Failure}
    (h : (survey settings library recording).1 = .returned time found)
    (hfound : Controller.detectedSnapshot found = { errorMessage := f.message }) :
    ∃ s, run settings wishes recording library = (.ok { errorMessage := f.message }, s) ∧
      s.remote = (survey settings library recording).2 := by
  have hs := perform_start settings recording h
  rw [hfound] at hs
  simp only [run]
  generalize perform settings library { remote := recording } .start = s at hs ⊢
  have hphase : s.controller.snapshot.phase = .normal := by rw [hs.snapshot]
  have hvisit : visit settings library wishes.target s = s :=
    visit_of_ne (by rw [hphase]; decide) wishes.target
  exact ⟨s, by simp [hvisit, hs.snapshot], hs.remote⟩

/-- A pick for which there is no region ends the flow after the detection run. -/
theorem run_of_outOfRange {e : OutOfRange}
    (h : (survey settings library recording).1 = .returned time (.ok detected)) (hne : detected ≠ [])
    (hpicked : picked detected wishes.picks = .error e) :
    ∃ s, run settings wishes recording library = (.error e, s) ∧
      s.remote = (survey settings library recording).2 := by
  have hs := perform_start settings recording h
  rw [Controller.detectedSnapshot_of_ne_nil hne] at hs
  exact ⟨_, by simp [run, hs.snapshot, hpicked], hs.remote⟩

/-- Otherwise the flow goes on with the regions that were picked. -/
theorem run_of_picked (wishes : Wishes)
    (h : (survey settings library recording).1 = .returned time (.ok detected)) (hne : detected ≠ [])
    (hpicked : picked detected wishes.picks = .ok chosen) : ∃ s,
      Finds s (Controller.pickedSnapshot { phase := .selecting, detected := detected } chosen)
        (survey settings library recording).2 ∧
      run settings wishes recording library = (.ok (visit settings library wishes.target s).controller.snapshot,
        visit settings library wishes.target s) := by
  have hs := perform_start settings recording h
  rw [Controller.detectedSnapshot_of_ne_nil hne] at hs
  exact ⟨_, perform_select settings library hs rfl chosen, by simp [run, hs.snapshot, hpicked]⟩

theorem run_of_nothing
    (h : (survey settings library recording).1 = .returned time (.ok detected)) (hne : detected ≠ [])
    (hpicked : picked detected wishes.picks = .ok []) :
    ∃ s, run settings wishes recording library = (.ok { errorMessage := Failure.emptySelection.message }, s) ∧
      s.remote = (survey settings library recording).2 := by
  obtain ⟨s, hs, hrun⟩ := run_of_picked wishes h hne hpicked
  have hphase : s.controller.snapshot.phase = .normal := by
    rw [hs.snapshot]
    rfl
  rw [visit_of_ne (by rw [hphase]; decide)] at hrun
  exact ⟨s, by rw [hrun, hs.snapshot]; rfl, hs.remote⟩

theorem run_of_chosen
    (h : (survey settings library recording).1 = .returned time (.ok detected)) (hne : detected ≠ [])
    (hpicked : picked detected wishes.picks = .ok chosen) (hchosen : chosen ≠ []) :
    ∃ s, run settings wishes recording library = (.ok {
        phase := .navigating
        detected := detected
        selected := chosen
        currentIndex := Report.front wishes.target chosen.length }, s) ∧
      s.remote.advances =
        (survey settings library recording).2.advances + switchesTo wishes.target chosen := by
  obtain ⟨s, hs, hrun⟩ := run_of_picked wishes h hne hpicked
  have hsnapshot : Controller.pickedSnapshot { phase := .selecting, detected := detected } chosen =
      { phase := .navigating, detected := detected, selected := chosen } := by
    simp [Controller.pickedSnapshot, hchosen]
  rw [hsnapshot] at hs
  have hvisit := visit_of_navigating settings library hs rfl rfl rfl rfl wishes.target
  exact ⟨_, by rw [hrun, hvisit.snapshot], by rw [hvisit.remote]⟩

/-- A flow that has ended is reported with its reason. -/
theorem exists_bare {f : Failure} {s : System Recording}
    (hrun : run settings wishes recording library = (.ok { errorMessage := f.message }, s)) (runId : RunId)
    (now : String) : ∃ r, (run settings wishes recording library).1.map (Report.ofSnapshot runId now) = .ok r ∧
      r.Bare f.message := by
  rw [hrun]
  exact ⟨_, rfl, Report.bare_ofSnapshot runId now f⟩

/-- What is reported when regions were found, and how often the windows are switched then. A pick for which
there is no region is a mistake, and the first one is named. Picking nothing is reported with its reason alone.
Otherwise the report lists what was found and what was picked, and the windows are switched for the target. -/
def Wishes.Followed (wishes : Wishes) (detected : List Region) (report : Except OutOfRange Report)
    (switches : Nat) : Prop :=
  if ∃ indices ∈ wishes.picks, ∃ i ∈ indices, detected.length ≤ i then
    switches = 0 ∧ ∃ before i after, wishes.picks = some (before ++ i :: after) ∧
      (∀ j ∈ before, j < detected.length) ∧ detected.length ≤ i ∧
      report = .error ⟨i, detected.length⟩
  else if wishes.picks = some [] then
    switches = 0 ∧ ∃ r, report = .ok r ∧ r.Bare Failure.emptySelection.message
  else ∃ chosen r, wishes.Chooses detected chosen ∧ report = .ok r ∧
    r.Tours detected chosen wishes.target ∧ switches = switchesTo wishes.target chosen

theorem Wishes.Followed.phase {report : Except OutOfRange Report} {switches : Nat} {r : Report}
    (h : wishes.Followed detected report switches) (hr : report = .ok r) :
    r.phase = "normal" ∨ r.phase = "navigating" := by
  subst hr
  rw [Followed] at h
  split at h
  · obtain ⟨-, _, _, _, -, -, -, he⟩ := h
    cases he
  · split at h
    · obtain ⟨-, _, he, hbare⟩ := h
      cases he
      exact .inl hbare.phase
    · obtain ⟨_, _, -, he, htours, -⟩ := h
      cases he
      exact .inr htours.phase

/-- When windows were found, the wishes are followed. -/
theorem followed_of_run
    (h : (survey settings library recording).1 = .returned time (.ok detected))
    (hne : detected ≠ []) (wishes : Wishes) (runId : RunId) (now : String) : ∃ switches,
    (run settings wishes recording library).2.remote.advances =
      recording.advances + (settings.cycling.maxAttempts - 1) + switches ∧
    wishes.Followed detected ((run settings wishes recording library).1.map (Report.ofSnapshot runId now))
      switches := by
  rcases picked_cases wishes detected with ⟨chosen, hpicked, hchosen⟩ |
    ⟨before, i, after, hpicks, hbefore, hi, hpicked⟩
  · have hinside : ¬ ∃ indices ∈ wishes.picks, ∃ i ∈ indices, detected.length ≤ i := by
      rintro ⟨indices, hpicks, k, hk, hout⟩
      exact absurd (hchosen.lt_length hpicks hk) (Nat.not_lt_of_le hout)
    by_cases hnothing : wishes.picks = some []
    · cases (hchosen.eq_nil_iff hne).2 hnothing
      obtain ⟨s, hrun, hremote⟩ := run_of_nothing h hne hpicked
      refine ⟨0, by rw [hrun, hremote, advances_eq_of_run h]; rfl, ?_⟩
      rw [Wishes.Followed, if_neg hinside, if_pos hnothing]
      exact ⟨rfl, exists_bare hrun runId now⟩
    · have hsome : chosen ≠ [] := fun he => hnothing ((hchosen.eq_nil_iff hne).1 he)
      obtain ⟨s, hrun, hremote⟩ := run_of_chosen h hne hpicked hsome
      refine ⟨_, by rw [hrun, hremote, advances_eq_of_run h], ?_⟩
      rw [Wishes.Followed, if_neg hinside, if_neg hnothing, hrun]
      exact ⟨chosen, _, hchosen, rfl, Report.tours_ofSnapshot .., rfl⟩
  · have hout : ∃ indices ∈ wishes.picks, ∃ i ∈ indices, detected.length ≤ i :=
      ⟨_, hpicks, i, by simp, hi⟩
    obtain ⟨s, hrun, hremote⟩ := run_of_outOfRange h hne hpicked
    refine ⟨0, by rw [hrun, hremote, advances_eq_of_run h]; rfl, ?_⟩
    rw [Wishes.Followed, if_pos hout, hrun]
    exact ⟨rfl, before, i, after, hpicks, hbefore, hi, rfl⟩

/-- Every walkthrough is reported as its detection run and the wishes say. A run that fails or finds nothing is
reported with its reason alone, and otherwise the wishes are followed. After a run with a result the windows
have been switched once between each two rounds, and then for the target. The flow never ends while the user
waits or picks. -/
theorem run_reports (settings : Settings) (library : ImageLibrary) (wishes : Wishes) (recording : Recording)
    (runId : RunId) (now : String) :
    let report := (run settings wishes recording library).1.map (Report.ofSnapshot runId now)
    let advances := (run settings wishes recording library).2.remote.advances
    let rounds := recording.advances + (settings.cycling.maxAttempts - 1)
    (∀ r, report = .ok r → r.phase = "normal" ∨ r.phase = "navigating") ∧
    ∃ time found, (survey settings library recording).1 = .returned time found ∧
      match found with
      | .error failure => ∃ r, report = .ok r ∧ r.Bare failure.message
      | .ok [] =>
        advances = rounds ∧ ∃ r, report = .ok r ∧ r.Bare Failure.emptyDetectionResult.message
      | .ok detected => ∃ switches,
        advances = rounds + switches ∧ wishes.Followed detected report switches := by
  intro report advances rounds
  obtain ⟨time, found, h⟩ : ∃ time found, (survey settings library recording).1 = .returned time found :=
    Recording.exists_returned _ settings.cycling 0 recording
  rcases found with failure | _ | ⟨region, regions⟩
  · obtain ⟨s, hrun, -⟩ := run_of_failure wishes h rfl
    obtain ⟨r, hr, hbare⟩ := exists_bare hrun runId now
    refine ⟨fun r' hr' => ?_, time, _, h, r, hr, hbare⟩
    cases hr.symm.trans hr'
    exact .inl hbare.phase
  · obtain ⟨s, hrun, hremote⟩ := run_of_failure wishes h rfl
    obtain ⟨r, hr, hbare⟩ := exists_bare hrun runId now
    have hadvances : advances = rounds := by
      simp only [advances, hrun, hremote]
      exact advances_eq_of_run h
    refine ⟨fun r' hr' => ?_, time, _, h, hadvances, r, hr, hbare⟩
    cases hr.symm.trans hr'
    exact .inl hbare.phase
  · obtain ⟨switches, hadvances, hfollowed⟩ :=
      followed_of_run h (List.cons_ne_nil region regions) wishes runId now
    exact ⟨fun r hr => hfollowed.phase hr, time, _, h, switches, hadvances, hfollowed⟩

end Run

end Walkthrough

end WindowSurvey
