import WindowSurvey.Proofs.Checked.Pictures
import WindowSurvey.Proofs.Checked.Tracing
import WindowSurvey.Proofs.Detector.Frames
/-!
# Detection on a machine

From the check of a frame to the parts of it that are shown, nothing that a machine cannot do is ever asked for. The
buffer of the frame may have any length and the settings any values: a buffer that does not fit is refused before it
is read, and the settings decide which pixels are read only among those of the picture.

## Main definitions

* `Checked.detect` — the way from a frame to the parts that are shown

## Main statements

* `Checked.detect_eq` — it is gone to its end for every frame, and finds what it should
-/

namespace WindowSurvey.Checked

/-- The part of a box that lies in a picture, in words of 32 bits. -/
def clampTo (b : PixelBox) (width height : Nat) : Checked (Except Failure PixelBox) :=
  if width ≤ b.x ∨ height ≤ b.y then
    return .error (.image ("crop origin (" ++ toString b.x ++ ", " ++ toString b.y ++ ") outside "
      ++ toString width ++ "x" ++ toString height ++ " frame"))
  else do
    let right ← minus width b.x
    let below ← minus height b.y
    return .ok { b with width := min b.width right, height := min b.height below }

/-- From a frame to the parts of it that are shown: brightness, edges, foreground, boxes, the boxes of a plausible
size, and what of them lies in the frame. -/
def detect (d : Detector) (f : Frame) : Checked (Except Failure (List (Except Failure PixelBox))) := do
  match ← luminance f with
  | .error failure => return .error failure
  | .ok g =>
    let edges ← gradientMagnitude g
    let traced ← traceBoxes (edges.binarize d.settings.edgeThreshold) d.settings.gridStride d.settings.traceWindow
    let parts ← (traced.filter (d.accepts f.dimensions)).mapM fun b => clampTo b f.width f.height
    return .ok parts

theorem clampTo_eq (b : PixelBox) (width height : Nat) : clampTo b width height = .ok (b.clampTo width height) := by
  unfold clampTo PixelBox.clampTo
  split
  · rfl
  · next hin =>
    rw [minus_eq (by omega), ok_bind, minus_eq (by omega), ok_bind]
    rfl

/-- For every frame whose bytes can be counted, with any buffer, and for all settings, the way from the frame to the
parts that are shown is gone to its end: no place outside a buffer is read or written, no number leaves the range of
its type, and every number that becomes a byte is one. What is found is what the detector finds. -/
theorem detect_eq (d : Detector) {f : Frame} (hf : Sized f) :
    detect d f = .ok (f.luminance.map fun g => (d.boxes f.dimensions g).map fun b => b.clampTo f.width f.height) := by
  rw [detect, luminance_eq hf, ok_bind]
  cases hvalid : f.validate with
  | error failure =>
    rw [Frame.luminance_of_invalid hvalid]
    rfl
  | ok _ =>
    have hw : f.gray.width < 2 ^ 32 := hf.width_lt
    have hh : f.gray.height < 2 ^ 32 := hf.height_lt
    have htraced := @traceBoxes_eq (d.foreground f.gray) hw hh d.settings.gridStride d.settings.traceWindow
    rw [Frame.luminance_of_valid hvalid]
    simp only [gradientMagnitude_eq hw hh, ok_bind]
    rw [show f.gray.gradientMagnitude.binarize d.settings.edgeThreshold = d.foreground f.gray from rfl, htraced, ok_bind,
      mapM_eq_map fun b _ => clampTo_eq b f.width f.height, ok_bind]
    rfl

/-- A patch of five by five pixels, with a bright one in the middle. -/
def patch : Frame := ⟨(Array.replicate 25 0).setIfInBounds 12 255, ⟨5, 5⟩, .gray8⟩

/-- Settings at the ends of their ranges. -/
def greedy : Detector where
  settings := { edgeThreshold := 0, gridStride := 0, traceWindow := 2 ^ 32 - 1, minRegionSize := 0 }

theorem detect_patch : Sized patch ∧
    detect greedy patch = .ok (.ok [.ok ⟨1, 1, 3, 3⟩]) := by
  have hsized : Sized patch := ⟨by decide, by decide, by decide⟩
  refine ⟨hsized, ?_⟩
  rw [detect_eq greedy hsized]
  decide +kernel

end WindowSurvey.Checked
