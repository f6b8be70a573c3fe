import WindowSurvey.Detector
import WindowSurvey.Phase.Schedule
import WindowSurvey.Remote.Recording
/-!
# Walkthroughs of a recording

The whole flow over a recorded desktop: detect the windows, pick some, switch to one of them, and see
where that leads. A recording answers at once, so every command comes to its end.

## Main definitions

* `Walkthrough.Wishes` — which windows to pick, and which one to switch to
* `Walkthrough.picked` — the regions that are wished for
* `Walkthrough.run` — the flow from its beginning to its end
-/

namespace WindowSurvey.Walkthrough

/-- What is wished for after detection. Picks are indices into the detected regions, and all regions are
picked when there are none; the target is an index into the picked ones. -/
structure Wishes where
  picks : Option (List Nat) := none
  target : Option Nat := none
  deriving DecidableEq, Repr, Inhabited

/-- A pick for which there is no region. -/
structure OutOfRange where
  index : Nat
  count : Nat
  deriving DecidableEq, Repr, Inhabited

/-- The sentence shown to the user. -/
def OutOfRange.message (e : OutOfRange) : String :=
  "selection index " ++ toString e.index ++ " out of range (" ++ toString e.count ++ " detected)"

/-- The detected region with an index. -/
def pick (detected : List Region) (index : Nat) : Except OutOfRange Region :=
  match detected[index]? with
  | some region => .ok region
  | none => .error ⟨index, detected.length⟩

/-- The detected regions that are wished for, in the order of the wishes. -/
def picked (detected : List Region) : Option (List Nat) → Except OutOfRange (List Region)
  | none => .ok detected
  | some indices => indices.mapM (pick detected)

/-- The detector with the given settings, whose thumbnails a library makes. -/
def detector (settings : Settings) (library : ImageLibrary) : Detector :=
  ⟨settings.detection, settings.thumbnail, library⟩

/-- A recording as it is looked at with the given settings. -/
def remote (settings : Settings) (library : ImageLibrary) : Remote Recording :=
  Recording.remote (detector settings library).detect

/-- Give a command, and let time pass until its caller knows the outcome. -/
def perform (settings : Settings) (library : ImageLibrary) (s : System Recording) (command : Command) :
    System Recording :=
  let call := s.calls.length
  let s := s.command (remote settings library) settings.cycling command
  (s.await? (remote settings library) settings.cycling call).getD s

/-- Switch to the wished window, if windows were picked. -/
def visit (settings : Settings) (library : ImageLibrary) (target : Option Nat) (s : System Recording) :
    System Recording :=
  match target with
  | some index =>
    if s.controller.snapshot.phase = .navigating then perform settings library s (.navigate index) else s
  | none => s

/-- The flow from its beginning to its end: what is known in the end, and the desktop and the clock as
the flow leaves them. -/
def run (settings : Settings) (wishes : Wishes) (recording : Recording) (library : ImageLibrary := .own) :
    Except OutOfRange Snapshot × System Recording :=
  let s := perform settings library { remote := recording } .start
  let finish (s : System Recording) : Except OutOfRange Snapshot × System Recording :=
    let s := visit settings library wishes.target s
    (.ok s.controller.snapshot, s)
  if s.controller.snapshot.phase = .selecting then
    match picked s.controller.snapshot.detected wishes.picks with
    | .ok regions => finish (perform settings library s (.select regions))
    | .error e => (.error e, s)
  else finish s

end WindowSurvey.Walkthrough
