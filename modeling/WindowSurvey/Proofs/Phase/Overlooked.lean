import WindowSurvey.Proofs.Phase.Deeds
import WindowSurvey.Proofs.Phase.Refinement
import WindowSurvey.Proofs.Survey.Overlooked
/-!
# The flow on overlooked screens

The user is asked to pick windows only when a detection run has come to a result that shows some. So when the
detector overlooks every frame that its runs look at, the flow never comes to picking, whatever commands are
given and whatever the partners answer.

## Main statements

* `System.snapshots_of_overlooksAll` — the snapshots of such a run when the detector overlooks everything
* `Detector.window_bounds_shown` — the square that is searched from a seed bounds what is ever shown
-/

namespace WindowSurvey

variable {α σ : Type}

/-! ## Tasks -/

/-- A plan that is played on with a detector looks at frames with it. -/
theorem Progress.deeds_isFoundBy (r : Remote σ) (d : Detector) (horizon : Option Nat) (p : Progress α)
    (s : σ) : ∀ e ∈ p.deeds (r.withDetector d) horizon s, e.IsFoundBy d := by
  cases p with
  | due time rest =>
    rw [deeds]
    split
    · exact rest.deeds_isFoundBy r d horizon time s
    · exact List.forall_mem_nil _
  | finished | stalled | crashed => exact List.forall_mem_nil _

theorem Task.deeds_isFoundBy (r : Remote σ) (d : Detector) (horizon : Option Nat) (t : Task) (s : σ) :
    ∀ e ∈ t.deeds (r.withDetector d) horizon s, e.IsFoundBy d := by
  rw [deeds]
  split
  · exact List.forall_mem_nil _
  · exact Progress.deeds_isFoundBy r d _ _ s

/-- A task whose detector overlooked all that it looked at brings nothing. -/
theorem Task.HasDone.shown_eq_nil {settings : CyclingSettings} {d : Detector} {t : Task} {ds : List Deed}
    (h : t.HasDone settings ds) (hfits : t.Fits) (hwindow : d.settings.traceWindow < 2 ^ 32)
    (hfound : ∀ e ∈ ds, e.IsFoundBy d) (hover : d.OverlooksAll ds) {time : Nat} {shown : List Region}
    (he : t.end? = some (time, .detected (.ok shown))) : shown = [] := by
  have hdone := h.of_end he
  rw [(hfits.end he).eq_detection] at hdone
  rcases hdone with hdoes | ⟨-, htimeout⟩ | ⟨-, complaint, hcrash⟩
  · obtain ⟨result, hresult, hshown⟩ := hdoes.of_map_done
    cases hshown
    exact Detector.shown_of_overlooksAll hwindow hresult hfound hover
  · cases htimeout
  · cases hcrash

namespace System

variable {r : Remote σ} {settings : CyclingSettings} {s m : System σ} {d : Detector}
  {log : List (TaskId × Deed)}

/-! ## Events -/

theorem doing_isFoundBy (r : Remote σ) (d : Detector) (s : System σ) (e : Event) :
    ∀ entry ∈ s.doing (r.withDetector d) e, entry.2.IsFoundBy d := by
  unfold doing
  split
  · split
    · split
      · refine List.forall_mem_map.2 fun e he => ?_
        exact Task.deeds_isFoundBy r d _ _ _ e he
      · exact List.forall_mem_nil _
    · exact List.forall_mem_nil _
  · exact List.forall_mem_nil _

/-- The user is asked to pick windows only after a task has brought some. -/
theorem Step.phase_ne_selecting {e : Event} (hs : Step r settings e s m)
    (hshown : ∀ {task : TaskId} {t : Task} {time : Nat} {shown : List Region}, s.tasks[task]? = some t →
      t.end? = some (time, .detected (.ok shown)) → shown = [])
    (h : s.controller.snapshot.phase ≠ .selecting) : m.controller.snapshot.phase ≠ .selecting := by
  rcases hs.snapshot with he | ⟨command, t, j, -, ho, he⟩ | ⟨id, j, task, t, time, o, -, ht, hend, he⟩
  · rwa [he]
  · rw [he]
    cases j with
    | some j =>
      rcases Controller.obey?_begins ho with ⟨rfl, -⟩ | ⟨_, _, -, -, -, -, -, rfl⟩
      · nofun
      · exact h
    | none =>
      rcases Controller.obey?_ends ho with ⟨-, rfl⟩ | ⟨_, -, hphase, -⟩
      · nofun
      · exact absurd hphase h
  · rw [he]
    rcases o with (failure | shown) | ⟨index, result⟩
    · nofun
    · cases hshown ht hend
      nofun
    · cases result with
      | error failure => exact h
      | ok => exact h

/-! ## Runs -/

/-- A flow whose detector overlooks everything never comes to picking. -/
theorem snapshots_of_recorded (hwindow : d.settings.traceWindow < 2 ^ 32) {events : List Event}
    (hm : s.Matched) (hlog : Recorded settings s.tasks log) (hfound : ∀ entry ∈ log, entry.2.IsFoundBy d)
    (hover : ∀ task, d.OverlooksAll
      (deedsOf task (log ++ s.deeds (r.withDetector d) settings events)))
    (h : s.controller.snapshot.phase ≠ .selecting) :
    ∀ shown ∈ s.snapshots (r.withDetector d) settings events, shown.phase ≠ .selecting := by
  induction events generalizing s log with
  | nil => exact List.forall_mem_singleton.2 h
  | cons e events ih =>
    rw [deeds, ← List.append_assoc] at hover
    have hbrought {task : TaskId} {t : Task} {time : Nat} {shown : List Region}
        (ht : s.tasks[task]? = some t) (hend : t.end? = some (time, .detected (.ok shown))) :
        shown = [] := by
      have hearlier := hover task
      rw [List.append_assoc, deedsOf_append] at hearlier
      exact (hlog.hasDone ht).shown_eq_nil (hm.fits ht) hwindow
        (fun e he => hfound _ (mem_deedsOf.1 he)) hearlier.of_append hend
    have hnext : (s.apply (r.withDetector d) settings e).controller.snapshot.phase ≠ .selecting :=
      apply_of_step (P := fun m => m.controller.snapshot.phase ≠ .selecting)
        (fun hs => hs.phase_ne_selecting hbrought h) fun {m} hm => by rwa [snapshot_reap]
    refine List.forall_mem_cons.2 ⟨h, ih (hm.apply e) (hlog.apply e) ?_ hover hnext⟩
    exact List.forall_mem_append.2 ⟨hfound, doing_isFoundBy r d s e⟩

/-- A flow from its beginning on never comes to picking when its detector overlooks all frames that the tasks
look at. -/
theorem snapshots_of_overlooksAll (hwindow : d.settings.traceWindow < 2 ^ 32) (remote : σ) (eager : Bool)
    (events : List Event)
    (hover : ∀ task, d.OverlooksAll
      (deedsOf task (System.deeds (r.withDetector d) settings { remote, eager } events))) :
    ∀ shown ∈ System.snapshots (r.withDetector d) settings { remote, eager } events,
      shown.phase ≠ .selecting :=
  snapshots_of_recorded hwindow (Matched.init remote eager) (Recorded.init settings)
    (List.forall_mem_nil _) hover nofun

end System

/-! ## Everything together -/

namespace Detector

/-- The square that is searched from a seed bounds what is ever shown, whatever the frames show. When it is no
larger than the least size of a region, nothing is found; on a screen on which it is small, all that is found is
small. So when one or the other holds of every frame that is captured and looked at, a detection run that comes to
a result shows nothing, and the flow never comes to picking windows. With the settings that hold unless set
otherwise, the square is small on every screen with more than 800000 pixels. -/
theorem window_bounds_shown {σ : Type} (d : Detector) (hwindow : d.settings.traceWindow < 2 ^ 32)
    (r : Remote σ) (settings : CyclingSettings) :
    (d.window.width ≤ d.settings.minRegionSize → ∀ frame cycle, d.detect frame cycle = []) ∧
    (∀ (frame : Frame) (cycle : Nat), frame.dimensions.Addressable →
      d.classify (d.window.area / frame.dimensions.area) = .small →
      ∀ x ∈ d.detect frame cycle, x.category = .small) ∧
    (∀ start s, d.OverlooksAll ((Survey.script settings).deeds (r.withDetector d)
        (some (start + Survey.budget settings)) start s) →
      ∀ time shown s', Survey.run (r.withDetector d) settings start s =
        (.returned time (.ok shown), s') → shown = []) ∧
    (∀ remote eager events,
      (∀ task, d.OverlooksAll
        (deedsOf task (System.deeds (r.withDetector d) settings { remote, eager } events))) →
      ∀ shown ∈ System.snapshots (r.withDetector d) settings { remote, eager } events,
        shown.phase ≠ .selecting) ∧
    ∀ screen : Dimensions, screen.Addressable → 800000 < screen.pixelCount →
      ({} : Detector).classify (({} : Detector).window.area / screen.area) = .small :=
  ⟨detect_of_window_le,
    fun _ _ hs hsmall _ hx => category_of_mem_detect hwindow (.inr ⟨hs, hsmall⟩) hx,
    fun _ _ hover _ _ _ h => run_of_overlooksAll hwindow hover h,
    fun remote eager events hover => System.snapshots_of_overlooksAll hwindow remote eager events hover,
    fun _ hs h => classify_window_of_pixelCount hs h⟩

/-! ### A window on a wide screen -/

namespace Wide

/-- A screen with a window that would be large on a screen of 400 by 300 pixels. -/
def screen : Screen := ⟨1024, 800, .gray 16, [Drawn.broad]⟩

def frame : Frame := screen.render .bgra8

def desk : Remote Recording := Recording.remote fun _ _ => []

def settings : CyclingSettings := { maxAttempts := 2 }

/-- Detection is started and comes to its end, and then the user confirms a selection. -/
def events : List Event :=
  [.issue .start, .spawn 0, .track 0, .work 0 none, .deliver 0, .issue (.select [])]

/-- What a run of two rounds does. -/
def deeds : List Deed :=
  [.capture (some (.ok (some frame))), .detect frame 0 (.ok (({} : Detector).detect frame 0)),
    .advance (some (.ok ())), .wait 2500, .capture (some (.ok (some frame))),
    .detect frame 1 (.ok (({} : Detector).detect frame 1))]

theorem separate : screen.Separate ({} : DetectionSettings) where
  traceable w hw := by
    cases List.mem_singleton.1 hw
    constructor <;> decide
  apart := List.pairwise_singleton _ _

theorem classify_window :
    ({} : Detector).classify (({} : Detector).window.area / screen.dimensions.area) = .small :=
  classify_window_of_pixelCount ⟨by decide, by decide⟩ (by decide)

theorem overlooksAll : ({} : Detector).OverlooksAll deeds := by
  rintro _ _ _ hdetect -
  simp only [deeds, List.mem_cons, reduceCtorEq, Deed.detect.injEq, List.not_mem_nil, or_false,
    false_or] at hdetect
  rcases hdetect with ⟨rfl, -⟩ | ⟨rfl, -⟩ <;> exact .inr ⟨⟨by decide, by decide⟩, classify_window⟩

end Wide

/-- A window on a wide screen is found, but it is small there, so it is not shown and cannot be picked. -/
theorem window_bounds_shown_wide :
    ({} : Detector).settings.traceWindow < 2 ^ 32 ∧
    (∃ x ∈ ({} : Detector).detect Wide.frame 0, x.bounds = Drawn.broad.box.rect ∧ x.category = .small) ∧
    (∃ d, Survey.run (Wide.desk.withDetector {}) Wide.settings 0 { frames := #[Wide.frame] } =
      (.returned 2500 (.ok []), d)) ∧
    ∀ shown ∈ System.snapshots (Wide.desk.withDetector {}) Wide.settings
      { remote := { frames := #[Wide.frame] } } Wide.events, shown.phase ≠ .selecting := by
  have hwindow : ({} : Detector).settings.traceWindow < 2 ^ 32 := by decide
  obtain ⟨-, hsmall, hrun, hflow, -⟩ := window_bounds_shown {} hwindow Wide.desk Wide.settings
  have hreports : ({} : Detector).Reports (Wide.screen.render .bgra8) Drawn.broad.box _ :=
    reports_render (by decide) (by decide) ⟨by decide, by decide⟩ (fun h => by cases h) (by decide)
      (by decide) Wide.separate List.mem_cons_self (by decide +kernel)
  obtain ⟨-, x, hx, hbounds, -⟩ := hreports
  have hcategory := hsmall Wide.frame 0 ⟨by decide, by decide⟩ Wide.classify_window x hx
  obtain ⟨shown, d, h⟩ := Survey.run_returns (Recording.remote_prompt ({} : Detector).detect)
    Wide.settings 0 { frames := #[Wide.frame] } (by decide)
  refine ⟨hwindow, ⟨x, hx, hbounds, hcategory⟩, ⟨d, ?_⟩, hflow _ _ _ fun task => ?_⟩
  · cases hrun 0 { frames := #[Wide.frame] } Wide.overlooksAll _ _ _ h
    exact h
  · have hdeeds : System.deeds (Wide.desk.withDetector {}) Wide.settings
        { remote := { frames := #[Wide.frame] } } Wide.events = Wide.deeds.map (0, ·) := rfl
    rw [hdeeds]
    by_cases htask : 0 = task
    · rw [← htask, deedsOf_map_self]
      exact Wide.overlooksAll
    · rw [deedsOf_map_ne htask]
      nofun

end Detector

end WindowSurvey
