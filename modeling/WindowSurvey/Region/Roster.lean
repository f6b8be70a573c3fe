import Std.Data.HashSet
import WindowSurvey.Region.Basic
/-!
# The roster of a detection run

Regions are entered as they are found. A region whose key was entered before is another sighting of a
window that is already on the roster and is left out. At the end small regions go, and the others are
shown from large to small; regions that are equally large keep the order in which they were found.

## Main definitions

* `Roster`, `Roster.insert`, `Roster.insertAll` — the regions in the order of their first sighting
* `Region.showsBefore` — the order in which regions are shown
* `Roster.finish` — the regions to show
-/

namespace WindowSurvey

namespace Region

/-- Whether one region may stand before another: its category is greater, or the categories are equal
and its area is not smaller. -/
def showsBefore (a b : Region) : Bool :=
  b.category.rank < a.category.rank
    || (a.category.rank == b.category.rank && Binary64.totalKey b.area ≤ Binary64.totalKey a.area)

/-- The regions that are worth showing, in the order in which they are shown. -/
def arrange (rs : List Region) : List Region :=
  (rs.filter fun r => r.category != .small).mergeSort showsBefore

end Region

/-- The keys seen so far, and the first region of each key in the order of discovery. -/
structure Roster where
  seen : Std.HashSet SightingKey := {}
  found : Array Region := #[]

namespace Roster

/-- The roster before the first sighting. -/
def empty : Roster := {}

/-- The regions in the order of discovery. -/
def regions (r : Roster) : List Region := r.found.toList

/-- How many regions the roster holds. -/
def size (r : Roster) : Nat := r.found.size

/-- Whether nothing was found. -/
def isEmpty (r : Roster) : Bool := r.found.isEmpty

/-- Enter a region unless its key was seen before, and say whether it was entered. -/
def insert : Roster → Region → Bool × Roster
  | ⟨seen, found⟩, x =>
    if seen.contains x.key then (false, ⟨seen, found⟩)
    else (true, ⟨seen.insert x.key, found.push x⟩)

/-- Enter regions in order, and count those that were entered. -/
def insertAll : Roster → List Region → Nat × Roster
  | r, [] => (0, r)
  | r, x :: xs =>
    let (added, r) := r.insert x
    let (count, r) := r.insertAll xs
    ((if added then 1 else 0) + count, r)

/-- The regions to show at the end of a run. -/
def finish (r : Roster) : List Region := Region.arrange r.regions

end Roster

end WindowSurvey
