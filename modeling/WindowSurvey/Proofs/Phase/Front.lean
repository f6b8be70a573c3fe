import Mathlib.Data.Nat.ModEq
import WindowSurvey.Proofs.Phase.Ledger
import WindowSurvey.Proofs.Phase.Tour
import WindowSurvey.Proofs.Region.Roster
/-!
# Which window is in front

Switches are counted from the window with which a detection run begins, but a tour does not go back to it:
the run itself ends as many windows further on as it has rounds to go through, and every switch to a selected
window begins where the one before has ended. So a chosen window comes to the front exactly when all the
switches before are whole rounds through the windows.

## Main results

* `System.position_of_tour` — the window in front after a tour
* `System.not_front_of_every_tour`, `System.position_of_short_tour` — a tour after which it is not the
  chosen one
-/

namespace WindowSurvey

namespace System

variable {σ : Type} {s : System σ} {regions : List Region} {commands : List Command}

namespace Touring

/-- When every call has returned, the tasks of a tour are all that its commands ask for. -/
theorem jobs_eq (h : Touring regions commands s) (hr : ∀ c ∈ s.calls, c = .returned) :
    s.tasks.map Task.job = commands.filterMap (Command.job? regions) := by
  rcases h.planned with ⟨hplan, -⟩ | ⟨_, _, _, hp, -⟩
  · exact hplan
  · cases hr _ (List.mem_of_getElem? hp)

/-- And each of them has ended with nothing left out, once a switch to a window was accepted. -/
theorem exists_end (h : Touring regions commands s) (hm : s.Matched)
    (hr : ∀ c ∈ s.calls, c = .returned) {index : Nat} (hi : .navigate index ∈ commands) {t : Task}
    (ht : t ∈ s.tasks) : ∃ time o, t.end? = some (time, o) ∧ ∀ k, o.Settles k → k = 0 := by
  obtain ⟨task, htask⟩ := List.getElem?_of_mem ht
  rcases h.settled htask with ⟨_, _, _, _, hp, -⟩ | ⟨time, o, he⟩
  · cases hr _ (List.mem_of_getElem? hp)
  · refine ⟨time, o, he, ?_⟩
    rcases o with (failure | found) | ⟨target, result⟩
    · -- the only detection run came to a result
      have hjob : t.job = .detection := ((hm.fits htask).end he).eq_detection
      have hzero : task = 0 := by
        refine h.first ?_
        rw [← h.jobs_eq hr, List.getElem?_map, htask, Option.map_some, hjob]
      subst hzero
      obtain ⟨⟨t', time', found, ht', he'⟩, -⟩ := h.reached hi
      cases htask.symm.trans ht'
      cases he.symm.trans he'
    · exact fun k hk => hk
    · exact fun k hk => hk

end Touring

theorem switches_of_navigations (settings : CyclingSettings) (regions : List Region)
    (indices : List Nat) :
    ((indices.map Command.navigate).filterMap (Command.job? regions)).map (Job.switches settings) =
      (indices.filterMap (regions[·]?)).map Region.cycle := by
  induction indices with
  | nil => rfl
  | cons index indices ih =>
    cases hr : regions[index]? with
    | none => simpa [Command.job?, hr] using ih
    | some region => simpa [Command.job?, hr, Job.switches] using ih

/-- A tour on a recording: detection is started once, regions are selected, and the user switches to some of
them one after the other; no command is refused, and all callers have got their answers. Then the frame in
front is not told by the round in which the last window was first seen alone, but by all switches since the
beginning: those between the rounds of the detection run, and those of each switch to a window. It is the
frame of that round exactly when the switches before the last ones are whole rounds through the frames. -/
theorem position_of_tour (detect : Frame → Nat → Except String (List Region))
    (settings : CyclingSettings) (frames : Array Frame) (hframes : 0 < frames.size) (eager : Bool)
    (events : List Event) (regions : List Region) (indices : List Nat) (index : Nat)
    (hcommands : events.filterMap Event.command? =
      .start :: .select regions :: (indices ++ [index]).map Command.navigate)
    (hreturned : ∀ c ∈ (System.run (Recording.watched detect) settings
      { remote := { frames }, eager } events).calls, c = .returned) :
    let s := System.run (Recording.watched detect) settings { remote := { frames }, eager } events
    let before := settings.maxAttempts - 1 + ((indices.filterMap (regions[·]?)).map Region.cycle).sum
    ∃ region, regions[index]? = some region ∧
      s.remote.position = (before + region.cycle) % frames.size ∧
      (s.remote.position = region.cycle % frames.size ↔ frames.size ∣ before) := by
  intro s before
  have hc := (Coherent.init (σ := Recording) { frames } eager).run (Recording.watched detect) settings
    events
  have hm : s.Smooth := fun c hmem => by
    cases hreturned c hmem
    exact ⟨by simp, by simp⟩
  have htour : Touring regions (.start :: .select regions :: (indices ++ [index]).map .navigate) s := by
    refine Touring.of_commands _ settings _ eager hcommands (fun command hmem => ?_) hm
    rcases List.mem_cons.1 hmem with rfl | hmem
    · exact .inl rfl
    · obtain ⟨j, -, rfl⟩ := List.mem_map.1 hmem
      exact .inr ⟨j, rfl⟩
  have hlast : Command.navigate index ∈
      Command.start :: .select regions :: (indices ++ [index]).map .navigate := by simp
  obtain ⟨region, hregion⟩ : ∃ region, regions[index]? = some region :=
    ⟨_, List.getElem?_eq_getElem (htour.reached hlast).2⟩
  have hbooks : s.Balanced settings frames := (Balanced.init settings frames eager).run events
  have hadvances : s.remote.advances = before + region.cycle := by
    rw [hbooks.advances_eq fun t ht => htour.exists_end hc.matched hreturned hlast ht,
      htour.jobs_eq hreturned]
    show settings.maxAttempts - 1 +
      ((((indices ++ [index]).map Command.navigate).filterMap (Command.job? regions)).map
        (Job.switches settings)).sum = _
    rw [switches_of_navigations, List.filterMap_append, List.map_append, List.sum_append,
      ← Nat.add_assoc]
    simp [before, hregion]
  have hposition : s.remote.position = (before + region.cycle) % frames.size := by
    obtain ⟨-, -, -, -, hsame⟩ := hbooks
    have hne : frames.isEmpty = false := by
      rw [Array.isEmpty_eq_false_iff, ← Array.size_pos_iff]
      exact hframes
    rw [Recording.position, hsame, hne, hadvances]
    rfl
  refine ⟨region, hregion, hposition, ?_⟩
  rw [hposition]
  exact Nat.add_modEq_right_iff

/-! ## A tour that ends elsewhere -/

namespace ShortTour

/-- The only window, which the first of two rounds finds. -/
def pane : Region := ⟨⟨0.0, 0.0, 300.0, 200.0⟩, 0, #[1], .large⟩

def detect (_ : Frame) (cycle : Nat) : Except String (List Region) :=
  .ok (if cycle = 0 then [pane] else [])

def desk : Remote Recording := Recording.watched detect

def settings : CyclingSettings := { maxAttempts := 2 }

/-- Two frames of one black pixel. -/
def frames : Array Frame := #[⟨#[0], ⟨1, 1⟩, .gray8⟩, ⟨#[0], ⟨1, 1⟩, .gray8⟩]

/-- From the start up to the report of the detection run. -/
def opening : List Event := [.issue .start, .spawn 0, .track 0]

/-- From the end of the detection run on: the window is selected and visited. -/
def closing : List Event :=
  [.deliver 0, .issue (.select [pane]), .issue (.navigate 0), .spawn 1, .track 1, .work 1 none,
    .deliver 1]

def events : List Event := opening ++ .work 0 none :: closing

/-- The detection run finds the window and leaves the second frame in front. -/
theorem work_detection : (Task.begin settings 0 1 .detection).work desk settings none { frames } =
    (⟨1, .detection, some 180000, .working (.finished 2500 (.detected (.ok [pane])))⟩,
      { frames, advances := 1 }) := by
  have hfinish : (Roster.empty.insertAll [pane]).2.finish = [pane] := Roster.finish_singleton (by decide)
  have hplay : (Job.detection.script settings).play desk (some 180000) 0 { frames } =
      (.finished 2500 (.detected (.ok [pane])), { frames, advances := 1 }) := by
    show (Progress.finished 2500 (Outcome.detected (.ok (Roster.empty.insertAll [pane]).2.finish)), _) = _
    rw [hfinish]
    rfl
  show ((⟨1, .detection, some 180000, .working (Task.expire settings (some 180000) none
    ((Job.detection.script settings).play desk (some 180000) 0 { frames }).1)⟩ : Task),
    ((Job.detection.script settings).play desk (some 180000) 0 { frames }).2) = _
  rw [hplay]
  rfl

/-- The tour from the end of the detection run on. -/
theorem run_events :
    System.run desk settings { remote := { frames } } events =
      System.run desk settings { System.run desk settings { remote := { frames } } opening with
        tasks := [⟨1, .detection, some 180000, .working (.finished 2500 (.detected (.ok [pane])))⟩]
        remote := { frames, advances := 1 } } closing := by
  have hwork : (System.run desk settings { remote := { frames } } opening).apply desk settings
      (.work 0 none) = { System.run desk settings { remote := { frames } } opening with
        tasks := [⟨1, .detection, some 180000, .working (.finished 2500 (.detected (.ok [pane])))⟩]
        remote := { frames, advances := 1 } } := by
    show { System.run desk settings { remote := { frames } } opening with
      tasks := [((Task.begin settings 0 1 .detection).work desk settings none { frames }).1]
      remote := ((Task.begin settings 0 1 .detection).work desk settings none { frames }).2 } = _
    rw [work_detection]
  rw [events, run_append, run_cons, hwork]

theorem calls_eq :
    (System.run desk settings { remote := { frames } } events).calls = [.returned, .returned] := by
  rw [run_events]
  decide +kernel

theorem position_eq :
    (System.run desk settings { remote := { frames } } events).remote.position = 1 := by
  rw [run_events]
  decide +kernel

end ShortTour

/-- A chosen window does not come to the front in every tour. -/
theorem not_front_of_every_tour :
    ¬ ∀ (detect : Frame → Nat → Except String (List Region)) (settings : CyclingSettings)
      (frames : Array Frame) (events : List Event) (regions : List Region) (indices : List Nat)
      (index : Nat) (region : Region), 0 < frames.size → 1 ≤ settings.maxAttempts →
      events.filterMap Event.command? =
        .start :: .select regions :: (indices ++ [index]).map Command.navigate →
      (∀ c ∈ (System.run (Recording.watched detect) settings { remote := { frames } } events).calls,
        c = .returned) →
      regions[index]? = some region →
      (System.run (Recording.watched detect) settings
        { remote := { frames } } events).remote.position = region.cycle % frames.size := by
  intro h
  have hcalls : (System.run (Recording.watched ShortTour.detect) ShortTour.settings
      { remote := { frames := ShortTour.frames } } ShortTour.events).calls =
        [.returned, .returned] := ShortTour.calls_eq
  have hfront := h ShortTour.detect ShortTour.settings ShortTour.frames ShortTour.events
    [ShortTour.pane] [] 0 ShortTour.pane (by decide) (by decide) rfl (by rw [hcalls]; decide) rfl
  cases ShortTour.position_eq.symm.trans hfront

/-- The window of the short tour was seen in the first of two frames. After it was chosen the second is in
front, since one switch has been made before. -/
theorem position_of_short_tour :
    let s := System.run (Recording.watched ShortTour.detect) ShortTour.settings
      { remote := { frames := ShortTour.frames } } ShortTour.events
    0 < ShortTour.frames.size ∧
      ShortTour.events.filterMap Event.command? = [.start, .select [ShortTour.pane], .navigate 0] ∧
      (∀ c ∈ s.calls, c = .returned) ∧ s.remote.position = 1 ∧
      ShortTour.pane.cycle % ShortTour.frames.size = 0 := by
  intro s
  have hframes : 0 < ShortTour.frames.size := by decide
  have hcalls : s.calls = [.returned, .returned] := ShortTour.calls_eq
  have hreturned : ∀ c ∈ s.calls, c = .returned := by
    rw [hcalls]
    decide
  obtain ⟨region, hregion, hposition, -⟩ := position_of_tour ShortTour.detect ShortTour.settings
    ShortTour.frames hframes false ShortTour.events [ShortTour.pane] [] 0 rfl hreturned
  cases hregion
  exact ⟨hframes, rfl, hreturned, hposition, rfl⟩

end System

end WindowSurvey
