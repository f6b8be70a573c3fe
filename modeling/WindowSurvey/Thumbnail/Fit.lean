import WindowSurvey.Decimal.Binary64
import WindowSurvey.Settings.Basic
/-!
# Fitting a picture into a box

A picture is scaled by one ratio for both sides, the greatest with which it still fits, and its sides are
rounded to whole pixels.

## Main definitions

* `Binary64.roundNat` — the nearest natural number, halves up
* `fitWithin` — the sides of the scaled picture
-/

namespace WindowSurvey

namespace Binary64

/-- The nearest natural number; halves go up, negative numbers and numbers without a value go to zero,
and infinity to the greatest 64-bit word. -/
def roundNat : Binary64 → Nat
  | nan => 0
  | infinite negative => if negative then 0 else Nat.pow 2 64 - 1
  | finite true _ _ => 0
  | finite false m e =>
    match e with
    | .ofNat k => m * Nat.pow 2 k
    | .negSucc k => (m + Nat.pow 2 k) / Nat.pow 2 (k + 1)

end Binary64

/-- The lesser of two doubles, where one without a value does not count. -/
def lesser (a b : Float) : Float :=
  if a.isNaN then b else if b.isNaN then a else if b < a then b else a

/-- The sides of a picture of the given sides, scaled to fit the limits. Both keep at least one
pixel. -/
def fitWithin (width height : Nat) (limit : ThumbnailSettings) : Nat × Nat :=
  let ratio := lesser (Float.ofNat limit.width / Float.ofNat width)
    (Float.ofNat limit.height / Float.ofNat height)
  let side (n : Nat) : Nat :=
    max (Binary64.ofFloat (Float.ofNat n * ratio)).roundNat 1
  (side width, side height)

end WindowSurvey
