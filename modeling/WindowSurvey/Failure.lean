import WindowSurvey.Decimal.Layout
import WindowSurvey.Text.Debug
/-!
# What can go wrong

One type for every failure that a user or a caller may see, with its text and its diagnostic form.

## Main definitions

* `Failure` — the failures
* `Failure.message` — the sentence shown to the user
* `Failure.debug` — the diagnostic form
* `Failure.duringDetection`, `Failure.duringNavigation` — a failure seen from the work it ended
* `messageLayout`, `debugLayout` — how numbers look in the two
-/

namespace WindowSurvey

/-- Numbers in messages are never written with an exponent, and whole ones carry no point. -/
def messageLayout : NumberLayout where
  positional := none
  wholeMark := false
  exponentPlus := ""

/-- Numbers in diagnostic texts are recognisable as doubles: whole ones carry `.0`, and very large or
very small ones have an exponent. -/
def debugLayout : NumberLayout where
  positional := some (-4, 16)
  wholeMark := true
  exponentPlus := ""

/-- Every failure that reaches a caller. -/
inductive Failure where
  /-- The whole detection run took longer than it may, in seconds. -/
  | detectionTimeout (seconds : Nat)
  /-- Capturing, tracing or switching failed during a detection run. -/
  | detection (detail : String)
  /-- A detection run ended without a region worth showing. -/
  | emptyDetectionResult
  /-- A selection without regions was confirmed. -/
  | emptySelection
  /-- Switching to a window failed. -/
  | navigation (detail : String)
  /-- A region has impossible bounds or no thumbnail. -/
  | invalidRegion (detail : String)
  /-- A frame's buffer does not fit its sides. -/
  | invalidFrame (detail : String)
  /-- A picture could not be decoded, cropped or encoded. -/
  | image (detail : String)
  /-- A setting is out of range or could not be read. -/
  | config (detail : String)
  /-- A file or a connection failed. -/
  | io (detail : String)
  /-- A JSON text could not be read. -/
  | serialization (detail : String)
  deriving DecidableEq, Repr, Inhabited

namespace Failure

/-- The sentence shown to the user. -/
def message : Failure → String
  | detectionTimeout seconds => "Window detection timed out after " ++ toString seconds ++ "s"
  | detection detail => "Window detection failed: " ++ detail
  | emptyDetectionResult =>
    "No windows detected. Make sure windows are open on the remote desktop and try again."
  | emptySelection => "No windows selected. Select at least one window to continue."
  | navigation detail => "Failed to switch window: " ++ detail
  | invalidRegion detail => "Invalid region: " ++ detail
  | invalidFrame detail => "Invalid frame: " ++ detail
  | image detail => "Image error: " ++ detail
  | config detail => "Configuration error: " ++ detail
  | io detail => "IO error: " ++ detail
  | serialization detail => "Serialization error: " ++ detail

/-- The name of the kind of failure. -/
def kind : Failure → String
  | detectionTimeout _ => "DetectionTimeout"
  | detection _ => "Detection"
  | emptyDetectionResult => "EmptyDetectionResult"
  | emptySelection => "EmptySelection"
  | navigation _ => "Navigation"
  | invalidRegion _ => "InvalidRegion"
  | invalidFrame _ => "InvalidFrame"
  | image _ => "Image"
  | config _ => "Config"
  | io _ => "Io"
  | serialization _ => "Serialization"

/-- What the diagnostic form shows between parentheses. -/
def debugDetail : Failure → Option String
  | detectionTimeout seconds => some (toString seconds)
  | emptyDetectionResult => none
  | emptySelection => none
  | detection detail => some (debugString detail)
  | navigation detail => some (debugString detail)
  | invalidRegion detail => some (debugString detail)
  | invalidFrame detail => some (debugString detail)
  | image detail => some (debugString detail)
  | config detail => some (debugString detail)
  | io detail => some (debugString detail)
  | serialization detail => some (debugString detail)

/-- The diagnostic form: the kind, with its detail between parentheses. -/
def debug (f : Failure) : String :=
  match f.debugDetail with
  | none => f.kind
  | some detail => f.kind ++ "(" ++ detail ++ ")"

/-- A failure of a partner as a failure of the detection run that asked it. -/
def duringDetection : Failure → Failure
  | detection detail => detection detail
  | detectionTimeout seconds => detectionTimeout seconds
  | other => detection other.message

/-- A failure of a partner as a failure of the navigation that asked it. -/
def duringNavigation : Failure → Failure
  | navigation detail => navigation detail
  | other => navigation other.message

end Failure

end WindowSurvey
