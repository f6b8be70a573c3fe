import WindowSurvey.Frame
import WindowSurvey.Region.Basic
/-!
# The remote desktop and its helpers

A detection run talks to three partners: one captures frames, one brings the next window to the front,
one looks for regions in a frame. How they behave is given by functions on a state of their own, so
a recording, a live connection and a scripted rehearsal are all remotes.

## Main definitions

* `Reply` — what a partner answers, and when
* `Remote` — the behaviour of the partners over a state
* `Remote.watchedBy` — another detector for the same desktop
* `Request`, `Remote.logged` — what was asked of a remote, in order
-/

namespace WindowSurvey

/-- How a partner answers: at once, after some milliseconds, never, or by breaking down with a
complaint. -/
inductive Reply (α : Type) where
  | now (result : Except Failure α)
  | after (milliseconds : Nat) (result : Except Failure α)
  | never
  | crash (complaint : String)

/-- A remote desktop with its helpers. Capturing may find no frame at the moment. Looking for regions
in a frame cannot fail, but it may break down. It takes no time: a helper that is slow to look is not
described here, see `Script.play`. -/
structure Remote (σ : Type) where
  capture : σ → Reply (Option Frame) × σ
  advance : σ → Reply Unit × σ
  detect : Frame → Nat → σ → Except String (List Region) × σ

/-- What is asked of a remote. -/
inductive Request where
  | capture
  | detect (cycle : Nat)
  | advance
  deriving DecidableEq, Repr, Inhabited

/-- A remote's state with the requests made so far, latest first. -/
structure Logged (σ : Type) where
  state : σ
  requests : List Request

namespace Remote

/-- The same remote, looked at by another detector. -/
def watchedBy {σ : Type} (r : Remote σ) (detect : Frame → Nat → Except String (List Region)) :
    Remote σ :=
  { r with detect := fun frame cycle s => (detect frame cycle, s) }

/-- The same remote, keeping a log of the requests. A request is logged when it is made, whatever the
answer. -/
def logged {σ : Type} (r : Remote σ) : Remote (Logged σ) where
  capture s :=
    let (reply, state) := r.capture s.state
    (reply, ⟨state, .capture :: s.requests⟩)
  advance s :=
    let (reply, state) := r.advance s.state
    (reply, ⟨state, .advance :: s.requests⟩)
  detect frame cycle s :=
    let (found, state) := r.detect frame cycle s.state
    (found, ⟨state, .detect cycle :: s.requests⟩)

end Remote

namespace Logged

variable {σ : Type}

/-- How often a frame was asked for. -/
def captures (s : Logged σ) : Nat := s.requests.count .capture

/-- How often the next window was asked for. -/
def advances (s : Logged σ) : Nat := s.requests.count .advance

/-- The rounds in which a frame was looked at, in order. -/
def detectCycles (s : Logged σ) : List Nat :=
  s.requests.reverse.filterMap fun
    | .detect cycle => some cycle
    | _ => none

end Logged

end WindowSurvey
