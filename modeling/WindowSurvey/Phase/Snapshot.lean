import WindowSurvey.Region.Basic
/-!
# Phases of the window flow

The user starts detection, picks windows from what was found, and switches between the picked ones. A
snapshot is all that is known at one moment of that flow.

## Main definitions

* `Phase`, `Snapshot`
* `Snapshot.isConsistent` — the rule that every phase puts on the other fields
-/

namespace WindowSurvey

/-- Where the user is in the flow. -/
inductive Phase where
  /-- The plain view of the remote desktop. -/
  | normal
  /-- A detection run is going on. -/
  | detecting
  /-- The user is picking windows. -/
  | selecting
  /-- The user is switching between the picked windows. -/
  | navigating
  deriving DecidableEq, Repr, Inhabited

namespace Phase

/-- The name in reports. -/
def name : Phase → String
  | normal => "normal"
  | detecting => "detecting"
  | selecting => "selecting"
  | navigating => "navigating"

/-- The name in diagnostic texts. -/
def debug : Phase → String
  | normal => "Normal"
  | detecting => "Detecting"
  | selecting => "Selecting"
  | navigating => "Navigating"

end Phase

/-- What is known at one moment of the flow. `processing` says whether a detection run or a navigation
is going on; `errorMessage` is empty when nothing went wrong. -/
structure Snapshot where
  phase : Phase := .normal
  detected : List Region := []
  selected : List Region := []
  currentIndex : Nat := 0
  processing : Bool := false
  errorMessage : String := ""
  deriving Inhabited

namespace Snapshot

/-- Snapshots are equal when their fields are; thumbnails do not count. -/
instance : BEq Snapshot where
  beq a b := a.phase == b.phase && a.detected == b.detected && a.selected == b.selected
    && a.currentIndex == b.currentIndex && a.processing == b.processing
    && a.errorMessage == b.errorMessage

/-- Whether nothing was picked. -/
def isPristine (s : Snapshot) : Bool := s.selected.isEmpty && s.currentIndex == 0

/-- Whether the fields agree with the phase. -/
def isConsistent (s : Snapshot) : Bool :=
  match s.phase with
  | .normal => s.isPristine && s.detected.isEmpty && !s.processing
  | .detecting => s.isPristine && s.detected.isEmpty && s.processing && s.errorMessage.isEmpty
  | .selecting => s.isPristine && !s.detected.isEmpty && !s.processing && s.errorMessage.isEmpty
  | .navigating => s.currentIndex < s.selected.length

/-- The window in front while the user switches between windows. -/
def currentRegion (s : Snapshot) : Option Region :=
  match s.phase with
  | .navigating => s.selected[s.currentIndex]?
  | _ => none

/-- How many detected regions are in a category. -/
def detectedCount (s : Snapshot) (c : Category) : Nat :=
  (s.detected.filter fun r => r.category == c).length

/-- Whether a switch to the selected window with this index may begin. -/
def canNavigate (s : Snapshot) (index : Nat) : Bool :=
  s.phase == .navigating && !s.processing && index < s.selected.length

/-- The diagnostic form. -/
def debug (s : Snapshot) : String :=
  "PhaseSnapshot \x7b phase: " ++ s.phase.debug ++ ", detected: " ++ Region.debugList s.detected
    ++ ", selected: " ++ Region.debugList s.selected ++ ", current_index: "
    ++ toString s.currentIndex ++ ", processing: " ++ (if s.processing then "true" else "false")
    ++ ", error_message: " ++ debugString s.errorMessage ++ " \x7d"

end Snapshot

end WindowSurvey
