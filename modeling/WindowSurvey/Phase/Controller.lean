import WindowSurvey.Phase.Snapshot
import WindowSurvey.Survey.Navigation
/-!
# The controller of the window flow

The controller holds the snapshot, who watches it, and which task works for it. Commands and the
outcomes of tasks are transitions: each either changes the state, and then every observer is told, or is
ignored. A number, the generation, tells outcomes that are still wanted from those of work that was
given up meanwhile.

## Main definitions

* `Controller` — snapshot, generation, task in flight, observers
* `Controller.start?`, `Controller.restart`, `Controller.select?`, `Controller.navigate?`,
  `Controller.exit` — the commands
* `Controller.finishDetection?`, `Controller.finishNavigation?` — the outcomes of tasks
* `Controller.track` — a task that was begun for a command reports to the controller
* `Controller.subscribe`, `Controller.unsubscribe`, `Controller.notes` — observers
-/

namespace WindowSurvey

/-- The number of a task. -/
abbrev TaskId := Nat

/-- The number of an observer. -/
abbrev ObserverId := Nat

/-- The state of the window flow. Observers are listed in the order of their subscription. -/
structure Controller where
  snapshot : Snapshot := {}
  generation : Nat := 0
  inFlight : Option TaskId := none
  observers : List ObserverId := []
  nextObserver : ObserverId := 1
  deriving Inhabited

/-- What a transition does: the state after it, and the task it stops. -/
structure Transition where
  after : Controller
  stops : Option TaskId := none

namespace Controller

/-! ## Observers -/

/-- Add an observer. Numbers are never given twice. -/
def subscribe (c : Controller) : ObserverId × Controller :=
  (c.nextObserver,
    { c with observers := c.observers ++ [c.nextObserver], nextObserver := c.nextObserver + 1 })

/-- Remove an observer, and say whether it was there. -/
def unsubscribe (c : Controller) (id : ObserverId) : Bool × Controller :=
  (c.observers.contains id, { c with observers := c.observers.filter (· != id) })

/-- What the observers are told after a transition: each the same snapshot, in the order of their
subscription. -/
def notes (c : Controller) : List (ObserverId × Snapshot) := c.observers.map (·, c.snapshot)

/-! ## Commands -/

/-- Give up all work: what it may still bring is out of date, and the task in flight stops. -/
def supersede (c : Controller) : Transition where
  after := { c with generation := c.generation + 1, inFlight := none }
  stops := c.inFlight

/-- The snapshot at the beginning of a detection run. -/
def detectingSnapshot : Snapshot := { phase := .detecting, processing := true }

/-- Give up all work and begin to detect. -/
def beginDetection (c : Controller) : Transition :=
  let t := c.supersede
  { t with after := { t.after with snapshot := detectingSnapshot } }

/-- Start detection, which is possible in the normal phase only. -/
def start? (c : Controller) : Option Transition :=
  if c.snapshot.phase = .normal then some c.beginDetection else none

/-- Give up everything and detect anew, in any phase. -/
def restart (c : Controller) : Transition := c.beginDetection

/-- Accept the user's picks, which is possible while selecting only. Picking nothing ends the flow with
a message. -/
def select? (c : Controller) (regions : List Region) : Option Transition :=
  if c.snapshot.phase = .selecting then
    let snapshot : Snapshot :=
      if regions.isEmpty then { errorMessage := Failure.emptySelection.message }
      else { c.snapshot with phase := .navigating, selected := regions, currentIndex := 0 }
    some { after := { c with snapshot } }
  else none

/-- Begin to switch to the selected window with this index, and say how many switches that takes. Nothing
happens outside the navigating phase, while a switch is going on, or without such a window. -/
def navigate? (c : Controller) (index : Nat) : Option (Transition × Nat) :=
  if c.snapshot.phase = .navigating ∧ c.snapshot.processing = false then
    match Navigation.cycles c.snapshot.selected index with
    | .ok cycles =>
      let snapshot : Snapshot := { c.snapshot with processing := true, errorMessage := "" }
      some ({ after := { c with snapshot, generation := c.generation + 1 } }, cycles)
    | .error _ => none
  else none

/-- Leave the flow from any phase. -/
def exit (c : Controller) : Transition :=
  let t := c.supersede
  { t with after := { t.after with snapshot := {} } }

/-! ## Tasks -/

/-- A task begun for a generation reports: it is in flight from now on, or stops at once because its
generation has passed. -/
def track (c : Controller) (generation : Nat) (task : TaskId) : Transition :=
  if c.generation = generation then { after := { c with inFlight := some task } }
  else { after := c, stops := some task }

/-- The snapshot after a detection run. -/
def detectedSnapshot : Except Failure (List Region) → Snapshot
  | .ok [] => { errorMessage := Failure.emptyDetectionResult.message }
  | .ok regions => { phase := .selecting, detected := regions }
  | .error failure => { errorMessage := failure.message }

/-- A detection run of a generation has ended. A generation that has passed changes nothing. -/
def finishDetection? (c : Controller) (generation : Nat) (result : Except Failure (List Region)) :
    Option Transition :=
  if c.generation = generation then
    some { after := { c with inFlight := none, snapshot := detectedSnapshot result } }
  else none

/-- The snapshot after a switch to the window with this index. -/
def navigatedSnapshot (s : Snapshot) (index : Nat) : Except Failure Unit → Snapshot
  | .ok () => { s with processing := false, currentIndex := index }
  | .error failure => { s with processing := false, errorMessage := failure.message }

/-- A switch of a generation has ended. A generation that has passed changes nothing. -/
def finishNavigation? (c : Controller) (generation index : Nat) (result : Except Failure Unit) :
    Option Transition :=
  if c.generation = generation then
    some { after :=
      { c with inFlight := none, snapshot := navigatedSnapshot c.snapshot index result } }
  else none

/-- The diagnostic form shows the snapshot only. -/
def debug (c : Controller) : String :=
  "PhaseController \x7b snapshot: " ++ c.snapshot.debug ++ ", .. \x7d"

end Controller

end WindowSurvey
