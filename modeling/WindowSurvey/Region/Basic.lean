import WindowSurvey.Geometry
import WindowSurvey.Region.Category
/-!
# Regions that look like windows

A region is where a window was seen: its bounds, the round of the detection run that saw it first, its
category, and an encoded thumbnail. The thumbnail is for display only and takes no part in equality.

## Main definitions

* `Region`, `Region.of?` — a region, and the check that builds one
-/

namespace WindowSurvey

/-- A window as it was seen. `cycle` counts the switches from the starting window to this one. -/
structure Region where
  bounds : Rect
  cycle : Nat
  thumbnail : Array UInt8
  category : Category
  deriving Inhabited

namespace Region

/-- Build a region, which needs a thumbnail. -/
def of? (bounds : Rect) (cycle : Nat) (thumbnail : Array UInt8) (category : Category) :
    Except Failure Region :=
  if thumbnail.isEmpty then .error (.invalidRegion "thumbnail is empty")
  else .ok ⟨bounds, cycle, thumbnail, category⟩

/-- The area of the bounds. -/
def area (r : Region) : Float := r.bounds.area

/-- The key by which repeated sightings of the region are recognised. -/
def key (r : Region) : SightingKey := .of r.bounds

/-- The same region in another category. -/
def withCategory (r : Region) (category : Category) : Region := { r with category }

/-- The same region seen first in another round. -/
def withCycle (r : Region) (cycle : Nat) : Region := { r with cycle }

/-- The same region with another thumbnail, which must not be empty. -/
def withThumbnail? (r : Region) (thumbnail : Array UInt8) : Except Failure Region :=
  of? r.bounds r.cycle thumbnail r.category

/-- Regions are equal when bounds, round and category are; the thumbnail does not count. -/
instance : BEq Region where
  beq a b := a.bounds == b.bounds && a.cycle == b.cycle && a.category == b.category

/-- The words a hash of the region is made of. -/
def hashWords (r : Region) : List UInt64 × Nat × Category :=
  (r.bounds.hashWords, r.cycle, r.category)

/-- The region as JSON, without its thumbnail. -/
def toJson (r : Region) : Json :=
  .ofMembers [("bounds", r.bounds.toJson), ("cycle_position", .ofNat r.cycle),
    ("category", r.category.toJson)]

/-- The diagnostic form. -/
def debug (r : Region) : String :=
  "DetectedRegion \x7b bounds: " ++ r.bounds.debug ++ ", cycle_position: " ++ toString r.cycle
    ++ ", thumbnail_len: " ++ toString r.thumbnail.size ++ ", category: " ++ r.category.debug
    ++ " \x7d"

/-- The diagnostic form of a list. -/
def debugList (rs : List Region) : String :=
  "[" ++ String.intercalate ", " (rs.map debug) ++ "]"

end Region

end WindowSurvey
