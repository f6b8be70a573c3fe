import WindowSurvey.Picture.Rgba
/-!
# Drawn screens

Screens of flat windows on a flat background, for trying out detection on pictures whose windows are
known.

## Main definitions

* `Screen`, `Screen.colourAt` — windows in the order in which they are painted, and what is seen
* `Screen.render` — the screen as a frame
-/

namespace WindowSurvey

/-- A flat window. -/
structure DrawnWindow where
  x : Nat
  y : Nat
  width : Nat
  height : Nat
  colour : Colour := Colour.gray 235
  deriving DecidableEq, Repr, Inhabited

namespace DrawnWindow

/-- Whether the window covers a pixel. -/
def covers (w : DrawnWindow) (x y : Nat) : Bool :=
  w.x ≤ x && w.y ≤ y && x < w.x + w.width && y < w.y + w.height

end DrawnWindow

/-- A drawn screen. Later windows lie on top of earlier ones. -/
structure Screen where
  width : Nat
  height : Nat
  background : Colour := Colour.gray 16
  windows : List DrawnWindow := []
  deriving DecidableEq, Repr, Inhabited

namespace Screen

/-- The colour that is seen at a pixel when `topFirst` lists the windows from the top down. -/
def seen (background : Colour) (topFirst : List DrawnWindow) (x y : Nat) : Colour :=
  match topFirst.find? fun w => w.covers x y with
  | some w => w.colour
  | none => background

/-- The colour of a pixel: that of the topmost window over it. -/
def colourAt (s : Screen) : Nat → Nat → Colour := seen s.background s.windows.reverse

/-- The screen as a frame of the given format. Gray frames show the red channel. -/
def render (s : Screen) (format : PixelFormat) : Frame :=
  let colour := s.colourAt
  let pixels := (List.range s.height).foldl (fun out y =>
    (List.range s.width).foldl (fun (out : Array UInt8) x =>
      out.appendList (format.encode (colour x y))) out) #[]
  ⟨pixels, ⟨s.width, s.height⟩, format⟩

end Screen

end WindowSurvey
