import WindowSurvey.Picture.Gray
/-!
# Edges by gradient

Where brightness changes quickly there is an edge. The change is measured by two weighted differences
over the eight neighbours of a pixel; its size is the length of that vector, kept in a byte. Pixels on
the border have too few neighbours and count as flat.

## Main definitions

* `Gray.gradientX`, `Gray.gradientY` — the weighted differences across and down
* `Gray.gradientMagnitude` — the picture of gradient sizes
* `Gray.binarize` — foreground and background by a threshold
-/

namespace WindowSurvey

/-- The greatest byte whose square is at most `n`. Its bits are tried from the highest down. -/
def rootByte (n : Nat) : Nat :=
  [128, 64, 32, 16, 8, 4, 2, 1].foldl
    (fun root bit => if (root + bit) * (root + bit) ≤ n then root + bit else root) 0

namespace Gray

/-- The brightness at a place as an integer. -/
def level (g : Gray) (x y : Nat) : Int := (g.pixel x y).toNat

/-- The change from the left neighbours of a pixel to its right neighbours. The rows above and below
count once and the row of the pixel twice. -/
def gradientX (g : Gray) (x y : Nat) : Int :=
  (g.level (x + 1) (y - 1) + 2 * g.level (x + 1) y + g.level (x + 1) (y + 1))
    - (g.level (x - 1) (y - 1) + 2 * g.level (x - 1) y + g.level (x - 1) (y + 1))

/-- The change from the neighbours above a pixel to those below. -/
def gradientY (g : Gray) (x y : Nat) : Int :=
  (g.level (x - 1) (y + 1) + 2 * g.level x (y + 1) + g.level (x + 1) (y + 1))
    - (g.level (x - 1) (y - 1) + 2 * g.level x (y - 1) + g.level (x + 1) (y - 1))

/-- Whether a pixel has all eight neighbours. -/
def isInterior (g : Gray) (x y : Nat) : Bool :=
  1 ≤ x && x + 1 < g.width && 1 ≤ y && y + 1 < g.height

/-- The size of the gradient at a pixel, cut off at the greatest byte; zero on the border. -/
def magnitudeAt (g : Gray) (x y : Nat) : UInt8 :=
  if g.isInterior x y then
    let gx := g.gradientX x y
    let gy := g.gradientY x y
    UInt8.ofNat (rootByte (gx * gx + gy * gy).toNat)
  else 0

/-- The picture of gradient sizes. -/
def gradientMagnitude (g : Gray) : Gray := build g.width g.height g.magnitudeAt

/-- The byte of a foreground pixel. -/
def foreground : UInt8 := 255

/-- The byte of a background pixel. -/
def background : UInt8 := 0

/-- Pixels brighter than the threshold become foreground, all others background. -/
def binarize (g : Gray) (threshold : UInt8) : Gray :=
  g.map fun v => if threshold < v then foreground else background

end Gray

end WindowSurvey
