import WindowSurvey.Phase.Snapshot
import WindowSurvey.RunId
/-!
# Reports

What a run found and where it ended, as it is handed to other programs. Thumbnails are not part of a
report, only their sizes and the places where they were written.

## Main definitions

* `ReportedRegion`, `Report` — a region in a report, and the report
* `Report.ofSnapshot` — the report of a snapshot
* `Report.toJson`, `Report.ofJson` — its JSON form; what is not there is left out
-/

namespace WindowSurvey

/-- A region in a report, with its place in its list. -/
structure ReportedRegion where
  index : Nat
  bounds : Rect
  category : Category
  cycle : Nat
  thumbnailSize : Nat
  thumbnailPath : Option String := none
  deriving BEq, Repr, Inhabited

namespace ReportedRegion

/-- Describe a region. -/
def ofRegion (index : Nat) (r : Region) : ReportedRegion where
  index := index
  bounds := r.bounds
  category := r.category
  cycle := r.cycle
  thumbnailSize := r.thumbnail.size

/-- A member that is left out when there is no value. -/
def member {α : Type} (name : String) (encode : α → Json) : Option α → List (String × Json)
  | some value => [(name, encode value)]
  | none => []

/-- The region as JSON. -/
def toJson (r : ReportedRegion) : Json :=
  .ofMembers ([("index", .ofNat r.index), ("bounds", r.bounds.toJson),
    ("category", r.category.toJson), ("cycle_position", .ofNat r.cycle),
    ("thumbnail_bytes", .ofNat r.thumbnailSize)]
      ++ member "thumbnail_path" Json.ofString r.thumbnailPath)

/-- A path, which is a string but called by its own name in messages. -/
def path : Json → Json.Result String
  | .text (some s) => .ok s
  | value => value.wrongType "path string"

/-- The fields of the JSON form. -/
def fields : List Json.Field :=
  [.required "index" Json.size, .required "bounds" Rect.ofJson,
    .required "category" Category.ofJson, .required "cycle_position" Json.word32,
    .required "thumbnail_bytes" Json.size, .optional "thumbnail_path" path]

/-- Read a region of a report from JSON. -/
def ofJson (j : Json) : Json.Result ReportedRegion := do
  match ← Json.slots "RegionReport" fields j with
  | [index, bounds, category, cycle, thumbnailSize, thumbnailPath] =>
    return {
      index := ← Json.slot Json.size index
      bounds := ← Json.slot Rect.ofJson bounds
      category := ← Json.slot Category.ofJson category
      cycle := ← Json.slot Json.word32 cycle
      thumbnailSize := ← Json.slot Json.size thumbnailSize
      thumbnailPath := ← Json.optionalSlot path thumbnailPath }
  | _ => .error (.fault .malformed)

end ReportedRegion

/-- The report of a run. `error` is there only if something went wrong, and `currentIndex` only while
switching between windows. -/
structure Report where
  runId : RunId
  generatedAt : String
  phase : String
  error : Option String
  detected : List ReportedRegion
  selected : List ReportedRegion
  currentIndex : Option Nat
  deriving Repr, Inhabited

namespace Report

/-- Reports are equal when their parts are. -/
instance : BEq Report where
  beq a b := decide (a.runId = b.runId) && a.generatedAt == b.generatedAt && a.phase == b.phase
    && a.error == b.error && a.detected == b.detected && a.selected == b.selected
    && a.currentIndex == b.currentIndex

/-- Regions with their places in their list. -/
def describe (rs : List Region) : List ReportedRegion :=
  rs.zipIdx.map fun (r, index) => .ofRegion index r

/-- The report of a snapshot. -/
def ofSnapshot (runId : RunId) (generatedAt : String) (s : Snapshot) : Report where
  runId := runId
  generatedAt := generatedAt
  phase := s.phase.name
  error := if s.errorMessage.isEmpty then none else some s.errorMessage
  detected := describe s.detected
  selected := describe s.selected
  currentIndex := if s.phase = .navigating then some s.currentIndex else none

/-- The report as JSON. -/
def toJson (r : Report) : Json :=
  .ofMembers ([("run_id", r.runId.toJson), ("generated_at", .ofString r.generatedAt),
    ("phase", .ofString r.phase)]
      ++ ReportedRegion.member "error" Json.ofString r.error
      ++ [("detected", .ofItems (r.detected.map ReportedRegion.toJson)),
        ("selected", .ofItems (r.selected.map ReportedRegion.toJson))]
      ++ ReportedRegion.member "current_index" Json.ofNat r.currentIndex)

/-- A list of reported regions. -/
def regions : Json → Json.Result (List ReportedRegion) := Json.items ReportedRegion.ofJson

/-- The fields of the JSON form. -/
def fields : List Json.Field :=
  [.required "run_id" RunId.ofJson, .required "generated_at" Json.string,
    .required "phase" Json.string, .optional "error" Json.string,
    .required "detected" regions, .required "selected" regions,
    .optional "current_index" Json.size]

/-- Read a report from JSON. -/
def ofJson (j : Json) : Json.Result Report := do
  match ← Json.slots "DetectionReport" fields j with
  | [runId, generatedAt, phase, error, detected, selected, currentIndex] =>
    return {
      runId := ← Json.slot RunId.ofJson runId
      generatedAt := ← Json.slot Json.string generatedAt
      phase := ← Json.slot Json.string phase
      error := ← Json.optionalSlot Json.string error
      detected := ← Json.slot regions detected
      selected := ← Json.slot regions selected
      currentIndex := ← Json.optionalSlot Json.size currentIndex }
  | _ => .error (.fault .malformed)

end Report

end WindowSurvey
