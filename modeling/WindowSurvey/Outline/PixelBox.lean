import WindowSurvey.Geometry
/-!
# Boxes of whole pixels

## Main definitions

* `PixelBox`, `PixelBox.fits` — a box, and the size rule that windows must meet
-/

namespace WindowSurvey

/-- A box of pixels by its top left corner and its sides. -/
structure PixelBox where
  x : Nat
  y : Nat
  width : Nat
  height : Nat
  deriving DecidableEq, Repr, Inhabited

namespace PixelBox

/-- The area as a double. -/
def area (b : PixelBox) : Float := Float.ofNat b.width * Float.ofNat b.height

/-- Whether both sides are longer than the least size and shorter than the given share of the
screen. -/
def fits (b : PixelBox) (screen : Dimensions) (minSize : Nat) (maxFraction : Float) : Bool :=
  minSize < b.width && minSize < b.height
    && Float.ofNat b.width < maxFraction * Float.ofNat screen.width
    && Float.ofNat b.height < maxFraction * Float.ofNat screen.height

/-- The box as a rectangle, which needs sides above zero. -/
def toRect? (b : PixelBox) : Except Failure Rect :=
  Rect.of? (Float.ofNat b.x) (Float.ofNat b.y) (Float.ofNat b.width) (Float.ofNat b.height)

end PixelBox

end WindowSurvey
