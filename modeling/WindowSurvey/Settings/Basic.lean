import WindowSurvey.Failure
/-!
# Settings

What a user may set, with the values that hold where nothing is set. Reading a settings file gives any
values of the right kind; `Settings.validate` then asks for sensible ones, section by section, and
reports the first rule that is broken.

## Main definitions

* `DetectionSettings`, `CyclingSettings`, `ThumbnailSettings`, `Settings`
* `Settings.validate` — the rules, in the order in which they are reported
-/

namespace WindowSurvey

/-! ## Finding windows in one frame -/

/-- The least edge threshold that still tells window borders from content. -/
def minEdgeThreshold : UInt8 := 150

/-- The greatest edge threshold at which window borders are still found. -/
def maxEdgeThreshold : UInt8 := 200

/-- How windows are looked for in one frame. Lengths are in pixels. -/
structure DetectionSettings where
  /-- Gradients above this are edges. -/
  edgeThreshold : UInt8 := 175
  /-- The distance between seed points. -/
  gridStride : Nat := 5
  /-- The side of the square searched from a seed. -/
  traceWindow : Nat := 200
  /-- Boxes must be wider and taller than this. -/
  minRegionSize : Nat := 50
  /-- Boxes must be smaller than this share of each side of the screen. -/
  maxScreenFraction : Float := 0.9
  /-- The share of the screen from which a region is large. -/
  largeThreshold : Float := 0.15
  /-- The share of the screen from which a region is medium. -/
  mediumThreshold : Float := 0.05
  deriving Repr, Inhabited

namespace DetectionSettings

/-- Two groups of settings are equal when all their values are equal as numbers. -/
instance : BEq DetectionSettings where
  beq a b := a.edgeThreshold == b.edgeThreshold && a.gridStride == b.gridStride
    && a.traceWindow == b.traceWindow && a.minRegionSize == b.minRegionSize
    && a.maxScreenFraction == b.maxScreenFraction && a.largeThreshold == b.largeThreshold
    && a.mediumThreshold == b.mediumThreshold

/-- The rules for finding windows. -/
def validate (s : DetectionSettings) : Except Failure Unit :=
  let text := messageLayout.render
  if !(minEdgeThreshold ≤ s.edgeThreshold && s.edgeThreshold ≤ maxEdgeThreshold) then
    .error (.config ("detection.edge_threshold must be within "
      ++ toString minEdgeThreshold.toNat ++ "..=" ++ toString maxEdgeThreshold.toNat ++ ", got "
      ++ toString s.edgeThreshold.toNat))
  else if s.gridStride = 0 ∨ s.traceWindow = 0 then
    .error (.config "detection.grid_stride and detection.trace_window must be > 0")
  else if !(s.maxScreenFraction > 0.0 && s.maxScreenFraction ≤ 1.0) then
    .error (.config ("detection.max_screen_fraction must be within (0, 1], got "
      ++ text s.maxScreenFraction))
  else if !(0.0 < s.mediumThreshold && s.mediumThreshold < s.largeThreshold) then
    .error (.config ("detection thresholds must satisfy 0 < medium (" ++ text s.mediumThreshold
      ++ ") < large (" ++ text s.largeThreshold ++ ")"))
  else .ok ()

end DetectionSettings

/-! ## Cycling through the windows -/

/-- How a detection run goes through the windows. -/
structure CyclingSettings where
  /-- How many frames are captured; the windows are switched one time fewer. -/
  maxAttempts : Nat := 15
  /-- How long to wait after a switch, in milliseconds. -/
  settleDelay : Nat := 2500
  /-- How long a whole run may take, in seconds. -/
  timeoutSeconds : Nat := 180
  deriving DecidableEq, Repr, Inhabited

namespace CyclingSettings

/-- The rules for cycling. -/
def validate (s : CyclingSettings) : Except Failure Unit :=
  if s.maxAttempts = 0 then .error (.config "cycling.max_attempts must be > 0")
  else if s.timeoutSeconds = 0 then .error (.config "cycling.timeout_secs must be > 0")
  else .ok ()

end CyclingSettings

/-! ## Thumbnails and logging -/

/-- The greatest sides of a thumbnail. -/
structure ThumbnailSettings where
  width : Nat := 200
  height : Nat := 150
  deriving DecidableEq, Repr, Inhabited

namespace ThumbnailSettings

/-- The rule for thumbnails. -/
def validate (s : ThumbnailSettings) : Except Failure Unit :=
  if s.width = 0 ∨ s.height = 0 then .error (.config "thumbnail dimensions must be > 0")
  else .ok ()

end ThumbnailSettings

/-- What is logged. -/
structure LoggingSettings where
  level : String := "info"
  deriving DecidableEq, Repr, Inhabited

/-! ## All settings -/

/-- Everything a settings file may set. -/
structure Settings where
  detection : DetectionSettings := {}
  cycling : CyclingSettings := {}
  thumbnail : ThumbnailSettings := {}
  logging : LoggingSettings := {}
  deriving Repr, Inhabited

namespace Settings

instance : BEq Settings where
  beq a b := a.detection == b.detection && a.cycling == b.cycling && a.thumbnail == b.thumbnail
    && a.logging == b.logging

/-- All rules: detection first, then cycling, then thumbnails. -/
def validate (s : Settings) : Except Failure Unit := do
  s.detection.validate
  s.cycling.validate
  s.thumbnail.validate

end Settings

end WindowSurvey
