import WindowSurvey.Phase.System
/-!
# The flow on the clock

The usual order of steps, in which nothing waits longer than it has to: a command begins its task at
once, time moves only while everybody waits, tasks do what is due, and their ends are taken notice of
when they come. All of it is runs of `System.run`.

## Main definitions

* `System.command` — give a command, and begin its task
* `System.waitFor` — let time pass
* `System.await?` — let time pass until a call returns
-/

namespace WindowSurvey.System

variable {σ : Type}

/-- The steps of a command up to the moment its caller waits. -/
def commandEvents (s : System σ) (command : Command) : List Event :=
  [.issue command, .spawn s.calls.length, .track s.calls.length]

/-- Every call takes notice of what has ended. -/
def deliveries (s : System σ) : List Event := (List.range s.calls.length).map .deliver

/-- Every task works up to a moment. -/
def workEvents (s : System σ) (horizon : Option Nat) : List Event :=
  (List.range s.tasks.length).map fun task => .work task horizon

/-- Give a command, and begin its task. A call whose task the command stops returns at once. -/
def command (r : Remote σ) (settings : CyclingSettings) (s : System σ) (command : Command) :
    System σ :=
  let s := s.run r settings (s.commandEvents command)
  s.run r settings s.deliveries

/-- Let time pass up to a moment. -/
def passUntil (r : Remote σ) (settings : CyclingSettings) (s : System σ) (time : Nat) : System σ :=
  s.run r settings (s.workEvents (some time) ++ [.pass (time - s.clock)] ++ s.deliveries)

/-- Let time pass. -/
def waitFor (r : Remote σ) (settings : CyclingSettings) (s : System σ) (milliseconds : Nat) :
    System σ := s.passUntil r settings (s.clock + milliseconds)

/-- The task that a call waits for. -/
def taskOf? (s : System σ) (id : CallId) : Option TaskId :=
  match s.calls[id]? with
  | some (.pending _ _ (.waiting task)) => some task
  | _ => none

/-- Let time pass until a call returns. There is no such moment for a task that waits for an answer
that never comes. -/
def await? (r : Remote σ) (settings : CyclingSettings) (s : System σ) (id : CallId) :
    Option (System σ) :=
  match s.taskOf? id with
  | none => some s
  | some task =>
    let s := s.run r settings [.work task none]
    match s.tasks[task]?.bind Task.end? with
    | some (time, _) => some (s.passUntil r settings time)
    | none =>
      if (s.tasks[task]?.map Task.isStopped).getD false then some (s.run r settings s.deliveries)
      else none

end WindowSurvey.System
