import WindowSurvey.Region.Roster
import WindowSurvey.Remote.Script
import WindowSurvey.Settings.Basic
/-!
# Detection runs

A run captures a frame, looks for regions, brings the next window to the front, waits for the screen to
settle and begins again, until every window had its turn. Rounds without a frame are skipped but still
switch windows. A failure ends the run; so does the end of its time, whatever was found by then.

## Main definitions

* `Survey.script` — the plan of a run
* `Survey.run` — a run on the clock, bounded by the time it may take
-/

namespace WindowSurvey

/-- The report of a task that broke down. The number of a task means nothing to a reader, so a mark
stands in its place. -/
def crashReport (complaint : String) : String :=
  "task # panicked with message " ++ debugString complaint

namespace Survey

/-- The result of a run. -/
abbrev Found := Except Failure (List Region)

/-- The plan of the rounds from number `cycle` on. Windows are switched between rounds only, so not
after the last one. -/
def rounds (settle : Nat) : Nat → Nat → Roster → Script Found
  | 0, _, roster => .done (.ok roster.finish)
  | remaining + 1, cycle, roster =>
    let goOn (roster : Roster) : Script Found :=
      if remaining = 0 then .done (.ok roster.finish)
      else .advance fun
        | .error failure => .done (.error failure.duringDetection)
        | .ok () => .wait settle (rounds settle remaining (cycle + 1) roster)
    .capture fun
      | .error failure => .done (.error failure.duringDetection)
      | .ok none => goOn roster
      | .ok (some frame) => .detect frame cycle fun
        | .error complaint =>
          .done (.error (.detection ("detector task failed: " ++ crashReport complaint)))
        | .ok found => goOn (roster.insertAll found).2

/-- The plan of a run. -/
def script (settings : CyclingSettings) : Script Found :=
  rounds settings.settleDelay settings.maxAttempts 0 .empty

/-- The greatest number of seconds that a clock can be set ahead. -/
def maxBudgetSeconds : Nat := Nat.pow 2 63 - 1

/-- What the clock is set ahead to instead: thirty years. -/
def farFutureSeconds : Nat := 30 * 365 * 86400

/-- How long a run may take, in milliseconds. -/
def budget (settings : CyclingSettings) : Nat :=
  1000 * (if settings.timeoutSeconds ≤ maxBudgetSeconds then settings.timeoutSeconds
    else farFutureSeconds)

/-- How a run ends: with a result, or by breaking down. -/
inductive Ending where
  | returned (time : Nat) (result : Found)
  | crashed (time : Nat) (complaint : String)

/-- What comes of a run whose time ends at `deadline`. -/
def ending (settings : CyclingSettings) (deadline : Nat) : Progress Found → Ending
  | .finished time result => .returned time result
  | .crashed time complaint => .crashed time complaint
  | .due _ _ => .returned deadline (.error (.detectionTimeout settings.timeoutSeconds))
  | .stalled => .returned deadline (.error (.detectionTimeout settings.timeoutSeconds))

/-- Run from the moment `start` on. -/
def run {σ : Type} (r : Remote σ) (settings : CyclingSettings) (start : Nat) (s : σ) : Ending × σ :=
  let deadline := start + budget settings
  let (progress, s) := (script settings).play r (some deadline) start s
  (ending settings deadline progress, s)

end Survey

end WindowSurvey
