import WindowSurvey.Remote.Basic
/-!
# Recorded desktops

A recording is a list of frames, one for each window in front. Switching windows goes to the next frame
and from the last one back to the first.

## Main definitions

* `Recording` — the frames and how often the windows were switched
* `Recording.position` — which frame is in front
* `Recording.remote` — a recording as a remote desktop
-/

namespace WindowSurvey

/-- A recorded desktop. `advances` counts the switches since it was made. -/
structure Recording where
  frames : Array Frame
  advances : Nat := 0
  deriving Inhabited

namespace Recording

/-- How many frames there are. -/
def size (d : Recording) : Nat := d.frames.size

/-- Whether there are no frames. -/
def isEmpty (d : Recording) : Bool := d.frames.isEmpty

/-- The number of the frame in front; zero when there is none. -/
def position (d : Recording) : Nat := if d.frames.isEmpty then 0 else d.advances % d.frames.size

/-- The frame in front. -/
def capture (d : Recording) : Option Frame := d.frames[d.position]?

/-- Switch to the next frame. -/
def advance (d : Recording) : Recording := { d with advances := d.advances + 1 }

/-- A recording as a remote desktop, with a detector that looks at its frames. -/
def remote (detect : Frame → Nat → List Region) : Remote Recording where
  capture d := (.now (.ok d.capture), d)
  advance d := (.now (.ok ()), d.advance)
  detect frame cycle d := (.ok (detect frame cycle), d)

end Recording

end WindowSurvey
