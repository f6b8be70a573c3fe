import WindowSurvey.Proofs.Phase.Refinement
/-!
# Every snapshot is consistent

Commands may come while earlier work is going on, and work may end in any way at any later moment: whoever
looks at the controller, and whoever is told by it, sees fields that agree with the phase. The rows of the
table keep this, and the controller shows and tells what the table does.

## Main results

* `Flow.Sound.notes` — what a sound flow tells is sound
* `System.run_consistent` — every snapshot of every run
-/

namespace WindowSurvey

namespace Flow

/-- What observers are told of a stimulus is sound. -/
theorem Sound.told {f : Flow} (h : f.Sound) (watching : List ObserverId) (x : Stimulus) :
    ∀ note ∈ f.told watching x, note.2.Sound := by
  intro note hn
  rw [Flow.told] at hn
  cases hr : f.react? x with
  | none =>
    rw [hr] at hn
    cases hn
  | some f' =>
    rw [hr] at hn
    obtain ⟨observer, -, rfl⟩ := List.mem_map.1 hn
    exact (h.react hr).snapshot

theorem Sound.notes {f : Flow} (h : f.Sound) (xs : List (List ObserverId × Stimulus)) :
    ∀ note ∈ f.notes xs, note.2.Sound := by
  induction xs generalizing f with
  | nil =>
    intro note hn
    cases hn
  | cons x xs ih =>
    intro note hn
    rcases List.mem_append.1 hn with hn | hn
    · exact h.told x.1 x.2 note hn
    · exact ih (h.after x.2) note hn

end Flow

namespace System

/-- Whatever is done in whatever order, and however the work that was begun ends: the snapshot, and every
snapshot that an observer was given, has fields that agree with its phase. While the user switches between
windows there are windows that were found, and nothing is reported while work is going on. -/
theorem run_consistent {σ : Type} (r : Remote σ) (settings : CyclingSettings) (remote : σ)
    (eager : Bool) (events : List Event) :
    let m := System.run r settings { remote, eager } events
    m.controller.snapshot.Sound ∧ ∀ note ∈ m.notes, note.2.Sound := by
  intro m
  have h : Coherent { remote, eager } {} := Coherent.init remote eager
  have hm := h.run r settings events
  have hn : m.notes = Flow.notes {} (System.stimuli r settings { remote, eager } events) :=
    h.follows.run_notes h.matched events
  refine ⟨?_, ?_⟩
  · rw [← hm.follows.snapshot]
    exact hm.sound.snapshot
  · rw [hn]
    exact h.sound.notes _

end System

end WindowSurvey
