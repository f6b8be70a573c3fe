import WindowSurvey.Remote.Basic
/-!
# Scripts: what is asked of a remote, and when

A script is a finite plan: every step asks a partner for something or waits, and the answer decides how
the plan goes on. Playing a script against a remote on a clock that counts milliseconds is recursion on
the script. A horizon says how far the clock may go: a step that is due later stays unplayed.

## Main definitions

* `Script` — plans with a result
* `Script.play` — play a script up to a horizon
* `Progress` — how far it came
-/

namespace WindowSurvey

/-- A plan of calls and waits that ends with a result. -/
inductive Script (α : Type) where
  | done (result : α)
  | capture (next : Except Failure (Option Frame) → Script α)
  | advance (next : Except Failure Unit → Script α)
  | detect (frame : Frame) (cycle : Nat) (next : Except String (List Region) → Script α)
  | wait (milliseconds : Nat) (next : Script α)

/-- How far a script was played: to its end, up to a step that is due after the horizon, into a call
that is never answered, or into a call that broke down. -/
inductive Progress (α : Type) where
  | finished (time : Nat) (result : α)
  | due (time : Nat) (rest : Script α)
  | stalled
  | crashed (time : Nat) (complaint : String)

namespace Script

variable {α β σ : Type}

/-- The same plan with another result. -/
def map (f : α → β) : Script α → Script β
  | done result => done (f result)
  | capture next => capture fun answer => (next answer).map f
  | advance next => advance fun answer => (next answer).map f
  | detect frame cycle next => detect frame cycle fun found => (next found).map f
  | wait milliseconds next => wait milliseconds (next.map f)

/-- Whether a moment lies within the horizon. Without a horizon every moment does. -/
def within (horizon : Option Nat) (time : Nat) : Bool :=
  match horizon with
  | none => true
  | some limit => time ≤ limit

/-- Play a script from a moment on. Waits that end by the horizon pass, so at the horizon itself the
script still goes on until it has to wait. Looking for regions takes no time and is not interrupted: a
script whose waits end exactly at the horizon still goes through a last detection, where one that takes
any time at all would come too late. -/
def play (r : Remote σ) (horizon : Option Nat) : Script α → Nat → σ → Progress α × σ
  | done result, time, s => (.finished time result, s)
  | capture next, time, s =>
    match r.capture s with
    | (.now answer, s) => play r horizon (next answer) time s
    | (.after delay answer, s) =>
      if within horizon (time + delay) then play r horizon (next answer) (time + delay) s
      else (.due (time + delay) (next answer), s)
    | (.never, s) => (.stalled, s)
    | (.crash complaint, s) => (.crashed time complaint, s)
  | advance next, time, s =>
    match r.advance s with
    | (.now answer, s) => play r horizon (next answer) time s
    | (.after delay answer, s) =>
      if within horizon (time + delay) then play r horizon (next answer) (time + delay) s
      else (.due (time + delay) (next answer), s)
    | (.never, s) => (.stalled, s)
    | (.crash complaint, s) => (.crashed time complaint, s)
  | detect frame cycle next, time, s =>
    let (found, s) := r.detect frame cycle s
    play r horizon (next found) time s
  | wait delay next, time, s =>
    if within horizon (time + delay) then play r horizon next (time + delay) s
    else (.due (time + delay) next, s)

end Script

namespace Progress

variable {α σ : Type}

/-- Go on from where a script stopped, up to a new horizon. -/
def resume (r : Remote σ) (horizon : Option Nat) : Progress α → σ → Progress α × σ
  | due time rest, s =>
    if Script.within horizon time then rest.play r horizon time s else (due time rest, s)
  | p, s => (p, s)

end Progress

end WindowSurvey
