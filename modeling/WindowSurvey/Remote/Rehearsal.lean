import WindowSurvey.Remote.Basic
/-!
# Rehearsed remotes

Partners that follow prepared lists, for trying out runs and the flow around them. A list is followed
one entry a call, and its last entry repeats. Switching windows may instead simply succeed until it is
told to fail. Regions are prepared by the round that finds them.

## Main definitions

* `Rehearsal` — what the partners will do
* `Rehearsal.Stage` — how far they are
* `Rehearsal.remote` — the rehearsal as a remote desktop
-/

namespace WindowSurvey

/-- How the partner that switches windows behaves: it follows a list, or it succeeds unless it was told
to fail. -/
inductive Switching where
  | steps (replies : List (Reply Unit))
  | obedient

/-- Prepared partners. The partner that looks for regions finds those prepared for the round, the last
preparation counting, and breaks down in the round `crashAt`. -/
structure Rehearsal where
  captures : List (Reply (Option Frame))
  switching : Switching := .obedient
  regions : List (Nat × List Region) := []
  crashAt : Option Nat := none

namespace Rehearsal

/-- How far a rehearsal is. -/
structure Stage where
  captures : Nat := 0
  advances : Nat := 0
  failing : Bool := false
  deriving DecidableEq, Repr, Inhabited

/-- The entry for call number `n`; the last entry repeats. -/
def following {α : Type} (entries : List α) (n : Nat) : Option α :=
  match entries[n]? with
  | some e => some e
  | none => entries.getLast?

/-- A frame of one black pixel, for rounds whose picture does not matter. -/
def blankFrame : Frame := ⟨#[0], ⟨1, 1⟩, .gray8⟩

/-- The failure of a partner that was told to fail. -/
def refusal : Failure := .navigation "keyboard channel unavailable"

/-- The failure of a connection that was closed. -/
def closed : Failure := .io "remote session closed"

/-- Capture by the list; without entries there is never a frame. -/
def capture (r : Rehearsal) (s : Stage) : Reply (Option Frame) × Stage :=
  ((following r.captures s.captures).getD (.now (.ok none)), { s with captures := s.captures + 1 })

/-- Switch by the list, or by what the partner was told; without entries switching succeeds. -/
def advance (r : Rehearsal) (s : Stage) : Reply Unit × Stage :=
  let reply := match r.switching with
    | .steps replies => (following replies s.advances).getD (.now (.ok ()))
    | .obedient => if s.failing then .now (.error refusal) else .now (.ok ())
  (reply, { s with advances := s.advances + 1 })

/-- The regions prepared for a round, marked as first seen in it. -/
def detect (r : Rehearsal) (cycle : Nat) : Except String (List Region) :=
  if r.crashAt = some cycle then .error "detector broke"
  else
    match r.regions.reverse.lookup cycle with
    | some regions => .ok (regions.map (·.withCycle cycle))
    | none => .ok []

/-- The rehearsal as a remote desktop. -/
def remote (r : Rehearsal) : Remote Stage where
  capture := r.capture
  advance := r.advance
  detect _ cycle s := (r.detect cycle, s)

end Rehearsal

end WindowSurvey
