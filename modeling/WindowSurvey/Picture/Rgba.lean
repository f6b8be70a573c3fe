import WindowSurvey.Frame
import WindowSurvey.Picture.Gray
/-!
# Colours and colour pictures

Every pixel format names a colour for each pixel. The brightness of a frame and its colour picture are
both read off these colours, so they describe the same picture whatever the format.

## Main definitions

* `Colour`, `Colour.luma` — a colour and its brightness
* `Frame.colour` — the colour of a pixel of a frame
* `Frame.luminance`, `Frame.toRgba` — the two pictures of a valid frame
-/

namespace WindowSurvey

/-- A colour with its opacity. -/
structure Colour where
  red : UInt8
  green : UInt8
  blue : UInt8
  alpha : UInt8
  deriving DecidableEq, Repr, Inhabited

namespace Colour

/-- A gray of full opacity. -/
def gray (v : UInt8) : Colour := ⟨v, v, v, 255⟩

/-- The brightness in thousandths, rounded to the nearest whole step. The weights are those of
television pictures and add up to one thousand; opacity does not matter. -/
def luma (c : Colour) : UInt8 :=
  UInt8.ofNat ((299 * c.red.toNat + 587 * c.green.toNat + 114 * c.blue.toNat + 500) / 1000)

/-- A gray is as bright as its channels. -/
@[simp] theorem luma_gray (v : UInt8) : (gray v).luma = v := by
  have h : (299 * v.toNat + 587 * v.toNat + 114 * v.toNat + 500) / 1000 = v.toNat := by omega
  simp [luma, gray, h]

/-- The four bytes of a colour. -/
def bytes (c : Colour) : List UInt8 := [c.red, c.green, c.blue, c.alpha]

end Colour

/-- A colour picture, stored row by row with four bytes a pixel. -/
structure Rgba where
  width : Nat
  height : Nat
  pixels : Array UInt8
  size_eq : pixels.size = width * height * 4

namespace Rgba

/-- One byte of the pixel at column `x` of row `y`; zero outside the picture. -/
def channel (p : Rgba) (x y c : Nat) : UInt8 :=
  if x < p.width ∧ y < p.height then p.pixels.getD ((y * p.width + x) * 4 + c) 0 else 0

/-- The byte of a colour at a place in the buffer. -/
def byteOf (c : Colour) (i : Nat) : UInt8 :=
  match i % 4 with
  | 0 => c.red
  | 1 => c.green
  | 2 => c.blue
  | _ => c.alpha

/-- The picture whose byte `c` of the pixel at column `x` of row `y` is `f x y c`. -/
def build (width height : Nat) (f : Nat → Nat → Nat → UInt8) : Rgba where
  width := width
  height := height
  pixels := Array.ofFn fun i : Fin (width * height * 4) =>
    f (i / 4 % width) (i / 4 / width) (i % 4)
  size_eq := by simp

end Rgba

namespace PixelFormat

/-- The colour of the pixel with a given number in a buffer of this format. -/
def colour (format : PixelFormat) (pixels : Array UInt8) (i : Nat) : Colour :=
  let byte (k : Nat) : UInt8 := pixels.getD (i * format.bytesPerPixel + k) 0
  match format with
  | rgba8 => ⟨byte 0, byte 1, byte 2, byte 3⟩
  | bgra8 => ⟨byte 2, byte 1, byte 0, byte 3⟩
  | rgb8 => ⟨byte 0, byte 1, byte 2, 255⟩
  | gray8 => Colour.gray (byte 0)

/-- The bytes of a colour in this format. Gray keeps the red channel. -/
def encode (format : PixelFormat) (c : Colour) : List UInt8 :=
  match format with
  | rgba8 => [c.red, c.green, c.blue, c.alpha]
  | bgra8 => [c.blue, c.green, c.red, c.alpha]
  | rgb8 => [c.red, c.green, c.blue]
  | gray8 => [c.red]

theorem length_encode (format : PixelFormat) (c : Colour) :
    (format.encode c).length = format.bytesPerPixel := by
  cases format <;> rfl

end PixelFormat

namespace Frame

/-- The colour of the pixel with a given number. -/
def colour (f : Frame) (i : Nat) : Colour := f.format.colour f.pixels i

/-- The brightness of every pixel of a valid frame. -/
def luminance (f : Frame) : Except Failure Gray := do
  f.validate
  return {
    width := f.width
    height := f.height
    pixels := Array.ofFn fun i : Fin (f.width * f.height) => (f.colour i).luma
    size_eq := by simp }

/-- The colours of every pixel of a valid frame. -/
def toRgba (f : Frame) : Except Failure Rgba := do
  f.validate
  return {
    width := f.width
    height := f.height
    pixels := Array.ofFn fun i : Fin (f.width * f.height * 4) =>
      Rgba.byteOf (f.colour (i / 4)) i
    size_eq := by simp }

end Frame

namespace Rgba

/-- A colour picture as a frame. -/
def toFrame (p : Rgba) : Frame := ⟨p.pixels, ⟨p.width, p.height⟩, .rgba8⟩

/-- The buffer of a picture always has the right length. -/
theorem size_pixels_toFrame (p : Rgba) : p.toFrame.pixels.size = p.toFrame.expectedSize := by
  simp [toFrame, Frame.expectedSize, Dimensions.pixelCount, PixelFormat.bytesPerPixel, p.size_eq]

end Rgba

end WindowSurvey
