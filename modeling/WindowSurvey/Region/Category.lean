import WindowSurvey.Json.Decoding
/-!
# Size categories

A region is small, medium or large by its share of the screen. Small regions are never shown.

## Main definitions

* `Category` — the three sizes, in ascending order
* `Category.classify` — the category of a share of the screen
-/

namespace WindowSurvey

/-- The size of a region relative to the screen. -/
inductive Category where
  | small
  | medium
  | large
  deriving DecidableEq, Repr, Inhabited

namespace Category

/-- Place in the order from small to large. -/
def rank : Category → Nat
  | small => 0
  | medium => 1
  | large => 2

instance : LE Category where
  le a b := a.rank ≤ b.rank

instance (a b : Category) : Decidable (a ≤ b) := inferInstanceAs (Decidable (a.rank ≤ b.rank))

theorem rank_injective {a b : Category} (h : a.rank = b.rank) : a = b := by
  cases a <;> cases b <;> simp_all [rank]

/-- The share of the screen from which a region is large, unless set otherwise. -/
def defaultLarge : Float := 0.15

/-- The share of the screen from which a region is medium, unless set otherwise. -/
def defaultMedium : Float := 0.05

/-- The category of a share of the screen. A share on a threshold belongs to the greater category; the
large threshold is asked first. -/
def classify (share large medium : Float) : Category :=
  if share ≥ large then .large
  else if share ≥ medium then .medium
  else .small

/-- The name in reports. -/
def name : Category → String
  | small => "small"
  | medium => "medium"
  | large => "large"

/-- The name in diagnostic texts. -/
def debug : Category → String
  | small => "Small"
  | medium => "Medium"
  | large => "Large"

/-- The categories by name, in ascending order. -/
def choices : List (String × Category) :=
  [small, medium, large].map fun c => (c.name, c)

/-- The category as JSON. -/
def toJson (c : Category) : Json := .ofString c.name

/-- Read a category from JSON. -/
def ofJson : Json → Json.Result Category := Json.variant choices

/-- Categories in ascending order. -/
def sort (cs : List Category) : List Category := cs.mergeSort fun a b => a ≤ b

/-- The greatest category of a list. -/
def maximum? (cs : List Category) : Option Category :=
  cs.foldl (fun best c => match best with
    | none => some c
    | some b => if b ≤ c then some c else some b) none

end Category

end WindowSurvey
