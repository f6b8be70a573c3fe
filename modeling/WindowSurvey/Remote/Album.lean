import WindowSurvey.Files.Basic
import WindowSurvey.Picture.Kind
import WindowSurvey.Remote.Recording
/-!
# Recordings in folders

The pictures in a folder, in the order of their names, are a recorded desktop. Other files are left
alone; a picture that cannot be read spoils the whole recording.

## Main definitions

* `Frame.load` — the frame in a picture file
* `Recording.load` — the recording in a folder
-/

namespace WindowSurvey

variable {m : Type → Type} [Monad m]

/-- The failure of a picture file. -/
def Failure.picture (path complaint : String) : Failure := .image (path ++ ": " ++ complaint)

/-- The frame in a picture file. -/
def Frame.load (files : Files m) (path : String) (kind : PictureKind) : ExceptT Failure m Frame := do
  let bytes ← Files.orFail (files.read path) fun fault => .picture path fault.text
  match kind.decode? bytes.data with
  | some picture => return picture.toFrame
  | none => throw (.picture path ("the file holds no readable " ++ kind.name ++ " picture"))

namespace Recording

/-- The pictures among files, by name. -/
def pictures (names : List String) : List (String × PictureKind) :=
  (names.mergeSort fun a b => a ≤ b).filterMap fun name =>
    (PictureKind.ofFileName? name).map (name, ·)

/-- The recording in a folder. The first picture that cannot be read is reported. -/
def load (files : Files m) (folder : String) : ExceptT Failure m Recording := do
  let names ← Files.orFail (files.list folder)
  let frames ← (pictures names).mapM fun (name, kind) =>
    Frame.load files (Files.within folder name) kind
  return { frames := frames.toArray }

end Recording

end WindowSurvey
