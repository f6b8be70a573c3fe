import WindowSurvey.Outline.Trace
import WindowSurvey.Region.Basic
import WindowSurvey.Settings.Basic
import WindowSurvey.Thumbnail.Render
/-!
# Finding windows in one frame

From brightness to gradient to foreground to boxes; boxes of a plausible size become regions with a
category and a thumbnail. Thumbnails are made by an image library that belongs to the detector.

## Main definitions

* `Detector`, `Detector.boxes` — the settings of a detector, and the boxes it accepts
* `Detector.detect?`, `Detector.detect` — the regions of a frame; a frame that is not valid has none
-/

namespace WindowSurvey

/-- A detector of windows, with the image library that makes its thumbnails. -/
structure Detector where
  settings : DetectionSettings := {}
  thumbnail : ThumbnailSettings := {}
  library : ImageLibrary := .own
  deriving Inhabited

namespace Detector

/-- The detector's name. -/
def name : String := "region"

/-- The foreground of a gray picture: its strong edges. -/
def foreground (d : Detector) (g : Gray) : Gray :=
  g.gradientMagnitude.binarize d.settings.edgeThreshold

/-- All boxes traced in a gray picture. -/
def traced (d : Detector) (g : Gray) : List PixelBox :=
  traceBoxes (d.foreground g) d.settings.gridStride d.settings.traceWindow

/-- Whether a box has a plausible size for a window on the screen. -/
def accepts (d : Detector) (screen : Dimensions) (b : PixelBox) : Bool :=
  b.fits screen d.settings.minRegionSize d.settings.maxScreenFraction

/-- The traced boxes of a plausible size. -/
def boxes (d : Detector) (screen : Dimensions) (g : Gray) : List PixelBox :=
  (d.traced g).filter (d.accepts screen)

/-- The category of a share of the screen. -/
def classify (d : Detector) (share : Float) : Category :=
  .classify share d.settings.largeThreshold d.settings.mediumThreshold

/-- The region of a box. There is none when the thumbnail cannot be made. -/
def region? (d : Detector) (screen : Dimensions) (source : Rgba) (cycle : Nat) (b : PixelBox) :
    Except Failure (Option Region) :=
  match Thumbnail.render source b d.thumbnail d.library with
  | .error _ => .ok none
  | .ok thumbnail => do
    let bounds ← b.toRect?
    let region ← Region.of? bounds cycle thumbnail (d.classify (b.area / screen.area))
    return some region

/-- The regions of a frame, in the order in which their boxes are traced. Fails for a frame that is not
valid. -/
def detect? (d : Detector) (frame : Frame) (cycle : Nat) : Except Failure (List Region) := do
  let g ← frame.luminance
  match d.boxes frame.dimensions g with
  | [] => return []
  | boxes =>
    let source ← frame.toRgba
    let regions ← boxes.mapM (d.region? frame.dimensions source cycle)
    return regions.filterMap id

/-- The regions of a frame; a bad frame has none. -/
def detect (d : Detector) (frame : Frame) (cycle : Nat) : List Region :=
  match d.detect? frame cycle with
  | .ok regions => regions
  | .error _ => []

end Detector

end WindowSurvey
