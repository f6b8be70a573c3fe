import WindowSurvey.Geometry
/-!
# Frames

A frame is one picture of the whole screen as it was handed over. Its buffer may be too short or too
long; only `Frame.validate` checks it.

## Main definitions

* `PixelFormat` — the layout of a pixel in the buffer
* `Frame`, `Frame.validate`
-/

namespace WindowSurvey

/-- The layout of a pixel. -/
inductive PixelFormat where
  /-- Red, green, blue, opacity. -/
  | rgba8
  /-- Blue, green, red, opacity. -/
  | bgra8
  /-- Red, green, blue. -/
  | rgb8
  /-- One byte of brightness. -/
  | gray8
  deriving DecidableEq, Repr, Inhabited

namespace PixelFormat

/-- How many bytes a pixel takes. -/
def bytesPerPixel : PixelFormat → Nat
  | rgba8 => 4
  | bgra8 => 4
  | rgb8 => 3
  | gray8 => 1

/-- The name in texts and settings. -/
def name : PixelFormat → String
  | rgba8 => "rgba8"
  | bgra8 => "bgra8"
  | rgb8 => "rgb8"
  | gray8 => "gray8"

/-- The name in messages and diagnostic texts. -/
def debug : PixelFormat → String
  | rgba8 => "Rgba8"
  | bgra8 => "Bgra8"
  | rgb8 => "Rgb8"
  | gray8 => "Gray8"

/-- The formats by name. -/
def choices : List (String × PixelFormat) :=
  [rgba8, bgra8, rgb8, gray8].map fun f => (f.name, f)

/-- The format as JSON. -/
def toJson (f : PixelFormat) : Json := .ofString f.name

/-- Read a format from JSON. -/
def ofJson : Json → Json.Result PixelFormat := Json.variant choices

end PixelFormat

/-- One picture of the whole screen, with whatever buffer came with it. -/
structure Frame where
  pixels : Array UInt8
  dimensions : Dimensions
  format : PixelFormat
  deriving Inhabited

namespace Frame

/-- The width in pixels. -/
def width (f : Frame) : Nat := f.dimensions.width

/-- The height in pixels. -/
def height (f : Frame) : Nat := f.dimensions.height

/-- How many bytes the buffer should hold. The product has no bound here; a machine that counts bytes in words
of 64 bits finds it only below `2 ^ 64`. -/
def expectedSize (f : Frame) : Nat := f.dimensions.pixelCount * f.format.bytesPerPixel

/-- The sides as messages write them. -/
def sizeText (f : Frame) : String := toString f.width ++ "x" ++ toString f.height

/-- Check that the frame has pixels and that its buffer holds them all and nothing else. -/
def validate (f : Frame) : Except Failure Unit :=
  if f.dimensions.isEmpty then .error (.invalidFrame ("degenerate size " ++ f.sizeText))
  else if f.pixels.size ≠ f.expectedSize then
    .error (.invalidFrame ("buffer holds " ++ toString f.pixels.size ++ " bytes, " ++ f.sizeText
      ++ " " ++ f.format.debug ++ " needs " ++ toString f.expectedSize))
  else .ok ()

end Frame

end WindowSurvey
