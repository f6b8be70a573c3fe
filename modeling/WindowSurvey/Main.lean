import Std.Time.Format
import WindowSurvey.CommandLine.Program
/-!
# The command line program

The real file system, clock and streams around `Program.run`. The frames of a recording are there from the
beginning, so no time has to pass between them: a run is played on its own clock and prints its report at
once.

## Main definitions

* `World.files` — the real file system
* `main` — the program
-/

namespace WindowSurvey.World

/-- A fault as the operating system numbers it. -/
def fault : IO.Error → FileFault
  | .noFileOrDirectory _ _ _ => .missing
  | .permissionDenied _ _ _ => .denied
  | .alreadyExists _ _ _ => .taken
  | .inappropriateType _ code _ => if code = 21 then .isFolder else .notFolder
  | error => .other (toString error)

/-- An action with its fault as a value. -/
def attempt {α : Type} (action : IO α) : IO (Except FileFault α) := do
  try
    return .ok (← action)
  catch error => return .error (fault error)

/-- The names of the regular files in a folder. -/
def fileNames (folder : String) : IO (List String) := do
  let entries ← ((← IO.currentDir) / folder).readDir
  let files ← entries.filterM fun entry => do
    try
      return (← entry.path.metadata).type == .file
    catch _ => return false
  return (files.map (·.fileName)).toList

/-- The real file system. -/
def files : Files IO where
  read path := attempt (IO.FS.readBinFile path)
  list path := attempt (fileNames path)
  makeFolder path := attempt (IO.FS.createDirAll path)
  write path bytes := attempt (IO.FS.writeBinFile path bytes)

/-- The time of day everywhere. -/
def time : IO String := do
  let now := Std.Time.DateTime.ofTimestampWithZone (← Std.Time.Timestamp.now) .UTC
  return now.format "uuuu-MM-dd'T'HH:mm:ss.SSSSSSSSSxxx"

/-- A stamp for a run that begins now. -/
def stamp : IO Program.Stamp := do
  let random := (← IO.getRandomBytes 16).toList.foldl (fun n b => n * 256 + b.toNat) 0
  return ⟨.ofRandom random, ← time⟩

end WindowSurvey.World

/-- Run the program for the arguments of a command line. -/
def main (arguments : List String) : IO UInt32 := do
  let stamp ← WindowSurvey.World.stamp
  let ending ← WindowSurvey.Program.run WindowSurvey.World.files stamp arguments
  IO.print ending.output
  IO.eprint ending.complaint
  return ending.exitCode.toUInt32
