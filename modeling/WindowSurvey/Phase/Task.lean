import WindowSurvey.Phase.Controller
import WindowSurvey.Survey.Run
/-!
# Tasks that work for the controller

A command that is accepted gives a task something to do: a detection run, or a number of switches. A
task plays the plan of its job on the clock. It ends with an outcome, or somebody stops it, and from
then on it asks nothing of the remote any more.

## Main definitions

* `Job`, `Job.script` — what a task is for, and its plan
* `Outcome`, `Controller.finish?` — what a task brings, and how the controller takes it
* `Task`, `Task.work`, `Task.stop` — a task, its progress on the clock, its end from outside
-/

namespace WindowSurvey

/-- What a task is for. -/
inductive Job where
  | detection
  | navigation (index cycles : Nat)
  deriving DecidableEq, Repr, Inhabited

/-- What a task brings: the result of a detection run, or that of a switch to a window. -/
inductive Outcome where
  | detected (result : Except Failure (List Region))
  | switched (index : Nat) (result : Except Failure Unit)

namespace Job

/-- The plan of a job. -/
def script (settings : CyclingSettings) : Job → Script Outcome
  | detection => (Survey.script settings).map .detected
  | navigation index cycles => (Navigation.script settings.settleDelay cycles).map (.switched index)

/-- When the time of a job that begins now is over. A navigation may take as long as it needs. -/
def deadline? (settings : CyclingSettings) (now : Nat) : Job → Option Nat
  | detection => some (now + Survey.budget settings)
  | navigation _ _ => none

/-- The outcome of a job that broke down. -/
def crashed : Job → String → Outcome
  | detection, complaint =>
    .detected (.error (.detection ("detection task failed: " ++ crashReport complaint)))
  | navigation index _, complaint =>
    .switched index (.error (.navigation ("navigation task failed: " ++ crashReport complaint)))

end Job

namespace Controller

/-- A task of a generation has ended. -/
def finish? (c : Controller) (generation : Nat) : Outcome → Option Transition
  | .detected result => c.finishDetection? generation result
  | .switched index result => c.finishNavigation? generation index result

end Controller

/-- Whether a task still works, or was stopped. -/
inductive TaskState where
  | working (progress : Progress Outcome)
  | stopped

/-- A task. The generation is that of the command it works for. -/
structure Task where
  generation : Nat
  job : Job
  deadline : Option Nat
  state : TaskState

namespace Task

/-- A task that begins now. -/
def begin (settings : CyclingSettings) (now generation : Nat) (job : Job) : Task where
  generation := generation
  job := job
  deadline := job.deadline? settings now
  state := .working (.due now (job.script settings))

/-- The earlier of two moments that need not come. -/
def earlier : Option Nat → Option Nat → Option Nat
  | some a, some b => some (min a b)
  | some a, none => some a
  | none, b => b

/-- A run that is not at its end when its time is over ends then, without its finds. -/
def expire (settings : CyclingSettings) (deadline horizon : Option Nat) (p : Progress Outcome) :
    Progress Outcome :=
  match p, deadline with
  | .finished time result, _ => .finished time result
  | .crashed time complaint, _ => .crashed time complaint
  | p, none => p
  | p, some limit =>
    if Script.within horizon limit then
      .finished limit (.detected (.error (.detectionTimeout settings.timeoutSeconds)))
    else p

/-- Work up to the horizon. A task that was stopped does nothing, and one that has ended stays as it
is. -/
def work {σ : Type} (r : Remote σ) (settings : CyclingSettings) (horizon : Option Nat) (t : Task)
    (s : σ) : Task × σ :=
  match t.state with
  | .stopped => (t, s)
  | .working p =>
    let (p, s) := p.resume r (earlier horizon t.deadline) s
    ({ t with state := .working (expire settings t.deadline horizon p) }, s)

/-- When and how a task ended by itself. -/
def end? (t : Task) : Option (Nat × Outcome) :=
  match t.state with
  | .working (.finished time outcome) => some (time, outcome)
  | .working (.crashed time complaint) => some (time, t.job.crashed complaint)
  | _ => none

/-- Whether a task was stopped. -/
def isStopped (t : Task) : Bool :=
  match t.state with
  | .stopped => true
  | .working _ => false

/-- Whether a task may still ask something of the remote. -/
def isLive (t : Task) : Bool := !t.isStopped && t.end?.isNone

/-- Stop a task. One that has ended already keeps its outcome. -/
def stop (t : Task) : Task := if t.isLive then { t with state := .stopped } else t

end Task

end WindowSurvey
