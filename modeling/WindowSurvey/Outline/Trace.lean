import WindowSurvey.Outline.PixelBox
import WindowSurvey.Picture.Gradient
/-!
# Tracing outlines from a grid of seeds

Every foreground pixel on a coarse grid that no earlier box has claimed starts a box. The box claims the
unclaimed foreground pixels in a square whose top left corner is the seed, and grows to cover them. The
grid is read row by row, and a claimed pixel neither starts nor joins another box.

## Main definitions

* `Extent` — the rows and columns a box covers so far
* `Claim.square` — claim the foreground of a square
* `traceBoxes` — the boxes of a picture, in the order of their seeds
-/

namespace WindowSurvey

/-- The rows and columns from `minX`, `minY` to `maxX`, `maxY`, both included. -/
structure Extent where
  minX : Nat
  minY : Nat
  maxX : Nat
  maxY : Nat
  deriving DecidableEq, Repr, Inhabited

namespace Extent

/-- One pixel. -/
def point (x y : Nat) : Extent := ⟨x, y, x, y⟩

/-- Grow to cover a pixel. -/
def cover (e : Extent) (x y : Nat) : Extent :=
  ⟨min e.minX x, min e.minY y, max e.maxX x, max e.maxY y⟩

/-- The box of an extent. -/
def toBox (e : Extent) : PixelBox :=
  ⟨e.minX, e.minY, e.maxX - e.minX + 1, e.maxY - e.minY + 1⟩

end Extent

/-- Which pixels are claimed, and the extent of the box that is growing. -/
structure Claim where
  claimed : Array Bool
  extent : Extent

namespace Claim

/-- Claim a pixel for the growing box if it is foreground and still free. -/
def pixel (g : Gray) : Claim → Nat → Nat → Claim
  | ⟨claimed, extent⟩, x, y =>
    let i := y * g.width + x
    if g.pixel x y == Gray.background || claimed.getD i true then ⟨claimed, extent⟩
    else ⟨claimed.setIfInBounds i true, extent.cover x y⟩

/-- Claim `count` pixels of a row, beginning at column `x`. -/
def row (g : Gray) (y : Nat) : Nat → Nat → Claim → Claim
  | 0, _, c => c
  | count + 1, x, c => row g y count (x + 1) (c.pixel g x y)

/-- Claim `count` pixels from column `x` on in each of `rows` rows, beginning at row `y`. -/
def square (g : Gray) (x count : Nat) : Nat → Nat → Claim → Claim
  | 0, _, c => c
  | rows + 1, y, c => square g x count rows (y + 1) (row g y count x c)

end Claim

/-- The boxes found so far, last first, and the pixels they have claimed. -/
structure Tracing where
  claimed : Array Bool
  boxes : List PixelBox

namespace Tracing

/-- Before the first seed. -/
def start (g : Gray) : Tracing := ⟨Array.replicate g.pixels.size false, []⟩

/-- Try a seed. Squares end at the border of the picture. -/
def seed (g : Gray) (window : Nat) : Tracing → Nat → Nat → Tracing
  | ⟨claimed, boxes⟩, x, y =>
    if g.pixel x y == Gray.background || claimed.getD (y * g.width + x) true then ⟨claimed, boxes⟩
    else
      let columns := min (x + window) g.width - x
      let rows := min (y + window) g.height - y
      match Claim.square g x columns rows y ⟨claimed, Extent.point x y⟩ with
      | ⟨claimed, extent⟩ => ⟨claimed, extent.toBox :: boxes⟩

end Tracing

/-- The multiples of `stride` below `limit`. -/
def gridLine (stride limit : Nat) : List Nat :=
  (List.range ((limit + stride - 1) / stride)).map (· * stride)

/-- The boxes of a picture, in the order of their seeds. A stride of zero counts as one. -/
def traceBoxes (g : Gray) (stride window : Nat) : List PixelBox :=
  let stride := max stride 1
  let columns := gridLine stride g.width
  let traced := (gridLine stride g.height).foldl
    (fun t y => columns.foldl (fun t x => t.seed g window x y) t) (Tracing.start g)
  traced.boxes.reverse

end WindowSurvey
