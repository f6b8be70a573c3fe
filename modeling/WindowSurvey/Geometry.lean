import WindowSurvey.Failure
import WindowSurvey.Json.Decoding
/-!
# Rectangles and sizes on a screen

Bounds are kept in doubles because they may come from scaled displays. A rectangle is only built from
finite components with both sides above zero.

## Main definitions

* `Dimensions` — the sides of a screen in pixels
* `Rect`, `Rect.of?` — a rectangle, and the check that builds one
* `SightingKey.of` — the whole-pixel box by which repeated sightings are recognised
-/

namespace WindowSurvey

/-- The sides of a screen in pixels. -/
structure Dimensions where
  width : Nat
  height : Nat
  deriving DecidableEq, Repr, Inhabited

namespace Dimensions

/-- How many pixels the screen has. -/
def pixelCount (d : Dimensions) : Nat := d.width * d.height

/-- The area as a double, against which the size of a region is measured. -/
def area (d : Dimensions) : Float := Float.ofNat d.width * Float.ofNat d.height

/-- Whether a side is zero. -/
def isEmpty (d : Dimensions) : Bool := d.width == 0 || d.height == 0

/-- The sides as JSON. -/
def toJson (d : Dimensions) : Json :=
  .ofMembers [("width", .ofNat d.width), ("height", .ofNat d.height)]

/-- The fields of the JSON form. -/
def fields : List Json.Field :=
  [.required "width" Json.word32, .required "height" Json.word32]

/-- Read the sides from JSON. -/
def ofJson (j : Json) : Json.Result Dimensions := do
  match ← Json.slots "Dimensions" fields j with
  | [width, height] =>
    return { width := ← Json.slot Json.word32 width, height := ← Json.slot Json.word32 height }
  | _ => .error (.fault .malformed)

end Dimensions

/-- A rectangle parallel to the axes. -/
structure Rect where
  left : Float
  top : Float
  width : Float
  height : Float
  deriving Repr, Inhabited

namespace Rect

/-- Build a rectangle from finite components with both sides above zero. Components without a finite
value are reported before sides that are not positive. -/
def of? (left top width height : Float) : Except Failure Rect :=
  let text := messageLayout.render
  if !(left.isFinite && top.isFinite && width.isFinite && height.isFinite) then
    .error (.invalidRegion ("non-finite bounds (" ++ text left ++ ", " ++ text top ++ ", "
      ++ text width ++ ", " ++ text height ++ ")"))
  else if width ≤ 0.0 || height ≤ 0.0 then
    .error (.invalidRegion ("width and height must be positive, got " ++ text width ++ "x"
      ++ text height))
  else .ok ⟨left, top, width, height⟩

/-- The right edge, which no longer belongs to the rectangle. -/
def right (r : Rect) : Float := r.left + r.width

/-- The bottom edge, which no longer belongs to the rectangle. -/
def bottom (r : Rect) : Float := r.top + r.height

/-- The area. -/
def area (r : Rect) : Float := r.width * r.height

/-- Rectangles are equal when their components are equal numbers, so the sign of zero does not
matter. -/
instance : BEq Rect where
  beq a b := a.left == b.left && a.top == b.top && a.width == b.width && a.height == b.height

/-- The words a hash of the rectangle is made of. Adding zero gives both zeros one word, as equality
demands. -/
def hashWords (r : Rect) : List UInt64 :=
  [r.left, r.top, r.width, r.height].map fun x => (x + 0.0).toBits

/-- The rectangle as JSON. -/
def toJson (r : Rect) : Json :=
  .ofMembers [("left", .ofFloat r.left), ("top", .ofFloat r.top), ("width", .ofFloat r.width),
    ("height", .ofFloat r.height)]

/-- The fields of the JSON form. -/
def fields : List Json.Field :=
  ["left", "top", "width", "height"].map fun name => .required name Json.real

/-- Read a rectangle from JSON: the four numbers first, then the check that builds one. -/
def ofJson (j : Json) : Json.Result Rect := do
  match ← Json.slots "RawRect" fields j with
  | [left, top, width, height] =>
    let left ← Json.slot Json.real left
    let top ← Json.slot Json.real top
    let width ← Json.slot Json.real width
    let height ← Json.slot Json.real height
    match of? left top width height with
    | .ok r => return r
    | .error failure => .error (.data failure.message)
  | _ => .error (.fault .malformed)

/-- The diagnostic form. -/
def debug (r : Rect) : String :=
  let text := debugLayout.render
  "Rect \x7b left: " ++ text r.left ++ ", top: " ++ text r.top ++ ", width: " ++ text r.width
    ++ ", height: " ++ text r.height ++ " \x7d"

end Rect

/-- The whole-pixel box of a rectangle. Two sightings with one key are sightings of one window, so
boxes that differ only in their fractions count as the same. -/
structure SightingKey where
  left : Int
  top : Int
  width : Int
  height : Int
  deriving DecidableEq, Repr, Inhabited, Hashable

namespace SightingKey

/-- A component without its fraction, kept in the 64-bit range. -/
def component (x : Float) : Int := (Binary64.ofFloat x).truncateInt64

/-- The key of a rectangle. -/
def of (r : Rect) : SightingKey :=
  ⟨component r.left, component r.top, component r.width, component r.height⟩

end SightingKey

end WindowSurvey
