import WindowSurvey.Phase.Task
/-!
# Commands, tasks and observers in any order

The controller, the remote, the tasks, and the commands whose callers still wait. Every event is a small
step, and events may come in any order: between the moment a command is accepted and the moment its task
reports, other commands may be given, and a task's end may be taken notice of long after. On one thread a
task gets its first turn only after it has reported; on several threads it may come sooner.

## Main definitions

* `Command`, `Call` — what a caller may ask for, and how far the asking is
* `System` — the state of everything
* `Event`, `System.apply`, `System.run` — one step, and many
-/

namespace WindowSurvey

/-- What a caller may ask of the controller. -/
inductive Command where
  | start
  | restart
  | select (regions : List Region)
  | navigate (index : Nat)
  | exit

/-- The number of a call. -/
abbrev CallId := Nat

/-- How far an accepted command is: about to begin its task, having begun it, or waiting for it. -/
inductive CallStage where
  | accepted
  | spawned (task : TaskId)
  | waiting (task : TaskId)
  deriving DecidableEq, Repr, Inhabited

/-- A command that may take time. Refusing takes none. A caller that gives up waiting is never told how
its task ended. -/
inductive Call where
  | refused
  | pending (generation : Nat) (job : Job) (stage : CallStage)
  | returned
  | abandoned
  deriving DecidableEq, Repr, Inhabited

namespace Call

/-- Whether a caller still waits. -/
def isPending : Call → Bool
  | pending _ _ _ => true
  | _ => false

/-- What the caller is told in the end: whether the command was accepted. -/
def answer? : Call → Option Bool
  | refused => some false
  | returned => some true
  | _ => none

end Call

/-- The state of everything. Tasks and calls are numbered in the order in which they begin, and notes are
kept in the order in which observers were told. `held` says whether anybody can still give commands, and
`eager` whether tasks may have turns before they have reported. -/
structure System (σ : Type) where
  controller : Controller := {}
  remote : σ
  clock : Nat := 0
  tasks : List Task := []
  calls : List Call := []
  notes : List (ObserverId × Snapshot) := []
  held : Bool := true
  eager : Bool := false

/-- A small step. -/
inductive Event where
  /-- A command is given. -/
  | issue (command : Command)
  /-- An accepted command begins its task. -/
  | spawn (call : CallId)
  /-- The task of a command reports to the controller. -/
  | track (call : CallId)
  /-- A task works, up to a moment. -/
  | work (task : TaskId) (horizon : Option Nat)
  /-- A waiting call takes notice of the end of its task. -/
  | deliver (call : CallId)
  /-- A caller gives up waiting. -/
  | abandon (call : CallId)
  /-- Somebody begins to watch. -/
  | subscribe
  /-- Somebody stops watching. -/
  | unsubscribe (observer : ObserverId)
  /-- Time passes. -/
  | pass (milliseconds : Nat)
  /-- Nobody will give commands any more. -/
  | release

namespace System

variable {σ : Type}

/-! ## Parts of a step -/

/-- Stop a task, if there is one to stop. -/
def stop (s : System σ) : Option TaskId → System σ
  | none => s
  | some task => { s with tasks := s.tasks.modify task Task.stop }

/-- Take over what a transition does, without telling anybody. -/
def adopt (s : System σ) (t : Transition) : System σ :=
  { s with controller := t.after }.stop t.stops

/-- Take over what a transition does, and tell every observer. This may be one step although a change can be
told later than it is made: a change takes the right to tell before the next one can be made, and gives it
back when all observers know. So changes are told one after the other and in their order, and whoever begins
or stops to watch meanwhile does so before the change or after it, as the observers are read. -/
def perform (s : System σ) (t : Transition) : System σ :=
  let s := s.adopt t
  { s with notes := s.notes ++ s.controller.notes }

/-- Add a call. -/
def addCall (s : System σ) (call : Call) : System σ := { s with calls := s.calls ++ [call] }

/-- Change how far a call is. -/
def setCall (s : System σ) (id : CallId) (call : Call) : System σ :=
  { s with calls := s.calls.set id call }

/-- A transition that a task is to work for: the call is pending in the new generation. -/
def accept (s : System σ) (t : Transition) (job : Job) : System σ :=
  (s.perform t).addCall (.pending t.after.generation job .accepted)

/-- Give a command. -/
def issue (s : System σ) : Command → System σ
  | .start =>
    match s.controller.start? with
    | some t => s.accept t .detection
    | none => s.addCall .refused
  | .restart => s.accept s.controller.restart .detection
  | .select regions =>
    match s.controller.select? regions with
    | some t => s.perform t
    | none => s
  | .navigate index =>
    match s.controller.navigate? index with
    | some (t, cycles) => s.accept t (.navigation index cycles)
    | none => s.addCall .refused
  | .exit => s.perform s.controller.exit

/-- Whether a task has reported: no call is still between beginning it and its report. -/
def hasReported (s : System σ) (task : TaskId) : Bool :=
  s.calls.all fun
    | .pending _ _ (.spawned t) => t != task
    | _ => true

/-- A call takes notice of the end of its task. A task that was stopped changes nothing, and neither does
an outcome that is no longer wanted. -/
def deliver (s : System σ) (id : CallId) : System σ :=
  match s.calls[id]? with
  | some (.pending generation _ (.waiting task)) =>
    match s.tasks[task]? with
    | some t =>
      match t.end? with
      | some (_, outcome) =>
        match s.controller.finish? generation outcome with
        | some transition => (s.perform transition).setCall id .returned
        | none => s.setCall id .returned
      | none => if t.isStopped then s.setCall id .returned else s
    | none => s
  | _ => s

/-- When nobody holds the controller, neither to give commands nor to wait for one, the task in flight
stops. -/
def reap (s : System σ) : System σ :=
  if s.held || s.calls.any Call.isPending then s
  else { s with controller := { s.controller with inFlight := none } }.stop s.controller.inFlight

/-! ## Steps -/

/-- One step. An event that does not fit the state changes nothing. -/
def apply (r : Remote σ) (settings : CyclingSettings) (s : System σ) : Event → System σ
  | .issue command => s.issue command
  | .spawn id =>
    match s.calls[id]? with
    | some (.pending generation job .accepted) =>
      let s := s.setCall id (.pending generation job (.spawned s.tasks.length))
      { s with tasks := s.tasks ++ [.begin settings s.clock generation job] }
    | _ => s
  | .track id =>
    match s.calls[id]? with
    | some (.pending generation job (.spawned task)) =>
      (s.adopt (s.controller.track generation task)).setCall id
        (.pending generation job (.waiting task))
    | _ => s
  | .work id horizon =>
    match s.tasks[id]? with
    | some task =>
      if s.eager || s.hasReported id then
        let (task, remote) := task.work r settings horizon s.remote
        { s with tasks := s.tasks.set id task, remote }
      else s
    | none => s
  | .deliver id => (s.deliver id).reap
  | .abandon id =>
    match s.calls[id]? with
    | some (.pending _ _ (.waiting _)) => (s.setCall id .abandoned).reap
    | _ => s
  | .subscribe => { s with controller := s.controller.subscribe.2 }
  | .unsubscribe observer => { s with controller := (s.controller.unsubscribe observer).2 }
  | .pass milliseconds => { s with clock := s.clock + milliseconds }
  | .release => { s with held := false }.reap

/-- Many steps. -/
def run (r : Remote σ) (settings : CyclingSettings) (s : System σ) (events : List Event) :
    System σ := events.foldl (apply r settings) s

end System

end WindowSurvey
