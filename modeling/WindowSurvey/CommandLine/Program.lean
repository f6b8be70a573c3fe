import WindowSurvey.CommandLine.Usage
import WindowSurvey.Json.Indented
import WindowSurvey.Remote.Album
import WindowSurvey.Report.Schema
import WindowSurvey.Report.Thumbnails
import WindowSurvey.Settings.File
import WindowSurvey.Walkthrough
/-!
# The program

From the words of a command line to what is printed and how the program ends. Settings are read before
frames, frames before anything is done, and thumbnails are written last.

## Main definitions

* `Arguments.settings` — the settings that a command line asks for
* `Program.Trouble` — what may go wrong, with what was being done
* `Program.carryOut` — what is done for a command line
* `Program.Ending` — how the program ends: what it prints where, and its exit code
* `Program.run` — the whole program
-/

namespace WindowSurvey

variable {m : Type → Type} [Monad m]

namespace Arguments

/-- The settings with those that the command line overrides. -/
def overriding (a : Arguments) (s : Settings) : Settings :=
  match a.settle with
  | some settleDelay => { s with cycling := { s.cycling with settleDelay } }
  | none => s

/-- The settings that a command line asks for: those of a file, or the usual ones. They are checked in the
file and again as overridden. -/
def settings (files : Files m) (a : Arguments) : ExceptT Failure m Settings := do
  let found ← match a.config with
    | some path => do
      let bytes ← Files.orFail (files.read path)
      ExceptT.mk (pure (Settings.ofBytes bytes))
    | none => pure {}
  let s := a.overriding found
  ExceptT.mk (pure (s.validate.map fun _ => s))

/-- What is wished for after detection. -/
def wishes (a : Arguments) : Walkthrough.Wishes := ⟨a.select, a.navigate⟩

end Arguments

namespace Program

/-- What may go wrong, with what was being done. -/
inductive Trouble where
  | settings (cause : Failure)
  | frames (path : String) (cause : Failure)
  | selection (cause : Walkthrough.OutOfRange)
  | thumbnails (path : String) (cause : Failure)
  deriving DecidableEq, Repr

namespace Trouble

/-- What was being done. -/
def headline : Trouble → String
  | settings _ => "failed to load configuration"
  | frames path _ => "failed to load frames from " ++ path
  | selection cause => cause.message
  | thumbnails path _ => "failed to write thumbnails to " ++ path

/-- What went wrong in it. -/
def cause? : Trouble → Option Failure
  | settings cause => some cause
  | frames _ cause => some cause
  | selection _ => none
  | thumbnails _ cause => some cause

/-- The text for the user. -/
def message (t : Trouble) : String :=
  "Error: " ++ t.headline ++ "\n" ++
    match t.cause? with
    | some cause => "\nCaused by:\n    " ++ cause.message ++ "\n"
    | none => ""

end Trouble

/-- What marks a run: its identifier, and when it took place. -/
structure Stamp where
  runId : RunId
  time : String
  deriving Repr, Inhabited

/-- Write the thumbnails of a report, if that was asked for. -/
def withThumbnails (files : Files m) (folder : Option String) (s : Snapshot) (report : Report) :
    ExceptT Trouble m Report :=
  match folder with
  | some folder => (report.writeThumbnails files folder s.detected).adapt (.thumbnails folder)
  | none => pure report

/-- Look at the recording in a folder as the command line asks for. -/
def survey (files : Files m) (stamp : Stamp) (a : Arguments) (folder : String) :
    ExceptT Trouble m Report := do
  let settings ← (a.settings files).adapt .settings
  let recording ← (Recording.load files folder).adapt (.frames folder)
  match (Walkthrough.run settings a.wishes recording).1 with
  | .error cause => throw (.selection cause)
  | .ok snapshot =>
    withThumbnails files a.thumbnails snapshot (.ofSnapshot stamp.runId stamp.time snapshot)

/-- How the program ends. -/
inductive Ending where
  | stopped (stop : Arguments.Stop)
  | described
  | reported (report : Report)
  | failed (trouble : Trouble)

namespace Ending

/-- What is printed for other programs or on demand. -/
def output : Ending → String
  | stopped stop => if stop.isWanted then stop.message else ""
  | described => Report.schema.renderIndented ++ "\n"
  | reported report => report.toJson.renderIndented ++ "\n"
  | failed _ => ""

/-- What is printed about mistakes. -/
def complaint : Ending → String
  | stopped stop => if stop.isWanted then "" else stop.message
  | described => ""
  | reported _ => ""
  | failed trouble => trouble.message

/-- The exit code: one for trouble, two for a mistake in the command line. -/
def exitCode : Ending → UInt8
  | stopped stop => if stop.isWanted then 0 else 2
  | described => 0
  | reported _ => 0
  | failed _ => 1

end Ending

/-- What is done for a command line. -/
def carryOut (files : Files m) (stamp : Stamp) (a : Arguments) : m Ending := do
  if a.schema then return .described
  match a.frames with
  | none => return .stopped .framesMissing
  | some folder =>
    match ← (survey files stamp a folder).run with
    | .ok report => return .reported report
    | .error trouble => return .failed trouble

/-- The whole program. -/
def run (files : Files m) (stamp : Stamp) (words : List String) : m Ending :=
  match Arguments.ofWords words with
  | .error stop => return .stopped stop
  | .ok a => carryOut files stamp a

end Program

end WindowSurvey
