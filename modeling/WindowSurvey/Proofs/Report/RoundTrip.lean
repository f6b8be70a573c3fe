import WindowSurvey.Proofs.Report.Rectangles
import WindowSurvey.Proofs.Report.RunIds
import WindowSurvey.Report.Basic
/-!
# A report is read back from its JSON form

A member without a value is left out when a report is written, and a slot without a member is empty when it is read,
so the reader finds in every slot what the writer had. Rectangles pass the check that builds them on the way back, and
a tree is only accepted if they do.

## Main definitions

* `ReportedRegion.Representable`, `Report.Representable` — valid bounds, and numbers that fit their kinds

## Main statements

* `Report.read_back` — what is written is read back, and what is read has bounds that can be built
-/

namespace WindowSurvey

/-! ## Values that are read back -/

namespace Json

variable {α : Type} {decode : Json → Result α} {encode : α → Json} {slot : Option Json} {a : α}

/-- What a reader of optional values finds, it finds in a value that is there and not `null`. -/
theorem decode_of_optionalSlot (h : optionalSlot decode slot = .ok (some a)) :
    ∃ value, slot = some value ∧ decode value = .ok a := by
  cases slot with
  | none => cases h
  | some value =>
    refine ⟨value, rfl, ?_⟩
    rw [optionalSlot] at h
    unfold optional at h
    split at h
    · cases h
    · simpa [map_eq_ok_iff] using h

theorem natural_eq_ok_iff {kind : String} {limit n : Nat} {j : Json} :
    natural kind limit j = .ok n ↔ j = .ofNat n ∧ n ≤ limit := by
  constructor
  · intro h
    match j with
    | .number (.integer m) =>
      rw [natural] at h
      split at h
      · next hm =>
        cases h
        obtain ⟨hpos, hle⟩ := hm
        exact ⟨by rw [ofNat, ofInt, Int.toNat_of_nonneg hpos], by omega⟩
      · cases h
    | .null | .bool _ | .text _ | .array _ _ | .object _ _ | .broken _ | .number (.real _) | .number .outOfRange =>
      rw [natural] at h
      · exact (wrongType_ne_ok h).elim
      all_goals exact nofun
  · rintro ⟨rfl, hn⟩
    rw [ofNat, ofInt, natural, if_pos (by omega), Int.toNat_natCast]

theorem size_ofNat {n : Nat} (h : n < 2 ^ 64) : size (.ofNat n) = .ok n :=
  natural_eq_ok_iff.2 ⟨rfl, Nat.le_sub_one_of_lt h⟩

theorem word32_ofNat {n : Nat} (h : n < 2 ^ 32) : word32 (.ofNat n) = .ok n :=
  natural_eq_ok_iff.2 ⟨rfl, Nat.le_sub_one_of_lt h⟩

theorem lt_of_size {n : Nat} {j : Json} (h : size j = .ok n) : n < 2 ^ 64 :=
  Nat.lt_of_le_pred (by decide) (natural_eq_ok_iff.1 h).2

theorem lt_of_word32 {n : Nat} {j : Json} (h : word32 j = .ok n) : n < 2 ^ 32 :=
  Nat.lt_of_le_pred (by decide) (natural_eq_ok_iff.1 h).2

theorem mapM_eq_ok_iff {values : List Json} {as : List α} :
    values.mapM decode = .ok as ↔ List.Forall₂ (fun value a => decode value = .ok a) values as := by
  induction values generalizing as with
  | nil => simp [pure, Except.pure, eq_comm]
  | cons value values ih =>
    simp only [List.mapM_cons, bind_eq_ok_iff, ih, List.forall₂_cons_left_iff]
    constructor
    · rintro ⟨a, ha, as, has, h⟩
      cases h
      exact ⟨a, as, ha, has, rfl⟩
    · rintro ⟨a, as, ha, has, rfl⟩
      exact ⟨a, ha, as, has, rfl⟩

/-- A list is read item by item. -/
theorem items_eq_ok_iff {j : Json} {as : List α} : items decode j = .ok as ↔
    ∃ values, j = .ofItems values ∧ List.Forall₂ (fun value a => decode value = .ok a) values as := by
  constructor
  · intro h
    match j with
    | .array values cut =>
      simp only [items, bind_eq_ok_iff, mapM_eq_ok_iff, orFault_eq_ok_iff] at h
      obtain ⟨as, has, _, rfl, h⟩ := h
      cases h
      exact ⟨values, rfl, has⟩
    | .null | .bool _ | .text _ | .number _ | .object _ _ | .broken _ =>
      rw [items] at h
      · exact (wrongType_ne_ok h).elim
      all_goals exact nofun
  · rintro ⟨values, rfl, has⟩
    rw [ofItems, items, mapM_eq_ok_iff.2 has]
    rfl

/-- Every item of a list that is read has been read by itself. -/
theorem exists_of_mem_items {j : Json} {as : List α} (h : items decode j = .ok as) (ha : a ∈ as) :
    ∃ value, decode value = .ok a := by
  obtain ⟨values, -, has⟩ := items_eq_ok_iff.1 h
  clear h
  induction has with
  | nil => cases ha
  | cons hhead _ ih =>
    cases ha with
    | head => exact ⟨_, hhead⟩
    | tail _ ha => exact ih ha

theorem items_ofItems_map {as : List α} (h : ∀ a ∈ as, decode (encode a) = .ok a) :
    items decode (.ofItems (as.map encode)) = .ok as :=
  items_eq_ok_iff.2 ⟨_, rfl, List.forall₂_map_left_iff.2 (List.forall₂_same.2 h)⟩

end Json

/-! ## Categories -/

theorem Category.ofJson_toJson (c : Category) : ofJson c.toJson = .ok c := by
  cases c <;> rfl

/-! ## Regions -/

namespace ReportedRegion

variable {r : ReportedRegion} {j : Json}

/-- The bounds can be built, and the numbers fit their kinds. -/
structure Representable (r : ReportedRegion) : Prop where
  bounds : r.bounds.Valid
  index_lt : r.index < 2 ^ 64
  cycle_lt : r.cycle < 2 ^ 32
  thumbnailSize_lt : r.thumbnailSize < 2 ^ 64

/-- What the writer gives for the slots. -/
def slots (r : ReportedRegion) : List (Option Json) :=
  [some (.ofNat r.index), some r.bounds.toJson, some r.category.toJson, some (.ofNat r.cycle),
    some (.ofNat r.thumbnailSize), r.thumbnailPath.map Json.ofString]

theorem toJson_eq_ofMembers (r : ReportedRegion) : r.toJson = .ofMembers (Json.present fields r.slots) := by
  obtain ⟨_, _, _, _, _, _ | _⟩ := r <;> rfl

theorem optionalSlot_path (path? : Option String) :
    Json.optionalSlot path (path?.map Json.ofString) = .ok path? := by
  cases path? <;> rfl

/-- A region whose parts fit is read back. -/
theorem ofJson_toJson (h : r.Representable) : ofJson r.toJson = .ok r := by
  have hindex := Json.size_ofNat h.index_lt
  have hbounds := Rect.ofJson_toJson h.bounds
  have hcategory := r.category.ofJson_toJson
  have hcycle := Json.word32_ofNat h.cycle_lt
  have hsize := Json.size_ofNat h.thumbnailSize_lt
  have hpath := optionalSlot_path r.thumbnailPath
  have htakes : List.Forall₂ Json.Field.Takes fields r.slots := by
    simp only [fields, slots, List.forall₂_cons, Json.takes_required_iff, Json.takes_optional_iff]
    exact ⟨⟨_, _, rfl, hindex⟩, ⟨_, _, rfl, hbounds⟩, ⟨_, _, rfl, hcategory⟩, ⟨_, _, rfl, hcycle⟩,
      ⟨_, _, rfl, hsize⟩, ⟨_, hpath⟩, .nil⟩
  rw [toJson_eq_ofMembers]
  simp only [ofJson, Json.bind_eq_ok_iff]
  refine ⟨_, Json.slots_ofMembers_present (by decide) htakes, ?_⟩
  simp only [slots, Json.bind_eq_ok_iff, Json.slot_eq_ok_iff]
  exact ⟨_, ⟨_, rfl, hindex⟩, _, ⟨_, rfl, hbounds⟩, _, ⟨_, rfl, hcategory⟩, _, ⟨_, rfl, hcycle⟩,
    _, ⟨_, rfl, hsize⟩, _, hpath, rfl⟩

/-- Every region that is accepted has parts that fit. -/
theorem representable_of_ofJson (h : ofJson j = .ok r) : r.Representable := by
  simp only [ofJson, Json.bind_eq_ok_iff] at h
  obtain ⟨vs, -, h⟩ := h
  split at h
  · simp only [Json.bind_eq_ok_iff, Json.slot_eq_ok_iff] at h
    obtain ⟨index, ⟨_, -, hindex⟩, bounds, ⟨_, -, hbounds⟩, category, -, cycle, ⟨_, -, hcycle⟩,
      size, ⟨_, -, hsize⟩, path, -, h⟩ := h
    cases h
    exact ⟨(Rect.ofJson_eq_ok_iff.1 hbounds).2, Json.lt_of_size hindex, Json.lt_of_word32 hcycle,
      Json.lt_of_size hsize⟩
  · cases h

end ReportedRegion

/-! ## Reports -/

namespace Report

variable {r : Report} {j : Json}

/-- All regions have parts that fit, and so does the place of the window in front. -/
structure Representable (r : Report) : Prop where
  detected : ∀ region ∈ r.detected, region.Representable
  selected : ∀ region ∈ r.selected, region.Representable
  currentIndex_lt : ∀ index, r.currentIndex = some index → index < 2 ^ 64

/-- What the writer gives for the slots. -/
def slots (r : Report) : List (Option Json) :=
  [some r.runId.toJson, some (.ofString r.generatedAt), some (.ofString r.phase), r.error.map Json.ofString,
    some (.ofItems (r.detected.map ReportedRegion.toJson)), some (.ofItems (r.selected.map ReportedRegion.toJson)),
    r.currentIndex.map Json.ofNat]

theorem toJson_eq_ofMembers (r : Report) : r.toJson = .ofMembers (Json.present fields r.slots) := by
  obtain ⟨_, _, _, _ | _, _, _, _ | _⟩ := r <;> rfl

theorem regions_ofItems_map {entries : List ReportedRegion} (h : ∀ entry ∈ entries, entry.Representable) :
    regions (.ofItems (entries.map ReportedRegion.toJson)) = .ok entries :=
  Json.items_ofItems_map fun entry hentry => ReportedRegion.ofJson_toJson (h entry hentry)

theorem optionalSlot_string (text? : Option String) :
    Json.optionalSlot Json.string (text?.map Json.ofString) = .ok text? := by
  cases text? <;> rfl

theorem optionalSlot_size {index? : Option Nat} (h : ∀ index, index? = some index → index < 2 ^ 64) :
    Json.optionalSlot Json.size (index?.map Json.ofNat) = .ok index? := by
  cases index? with
  | none => rfl
  | some index =>
    show (Json.size (.ofNat index)).map some = _
    rw [Json.size_ofNat (h index rfl)]
    rfl

/-- A report whose parts fit is read back. -/
theorem ofJson_toJson (h : r.Representable) : ofJson r.toJson = .ok r := by
  have hrun := r.runId.ofJson_toJson
  have herror := optionalSlot_string r.error
  have hdetected := regions_ofItems_map h.detected
  have hselected := regions_ofItems_map h.selected
  have hindex := optionalSlot_size h.currentIndex_lt
  have htakes : List.Forall₂ Json.Field.Takes fields r.slots := by
    simp only [fields, slots, List.forall₂_cons, Json.takes_required_iff, Json.takes_optional_iff]
    exact ⟨⟨_, _, rfl, hrun⟩, ⟨_, _, rfl, rfl⟩, ⟨_, _, rfl, rfl⟩, ⟨_, herror⟩, ⟨_, _, rfl, hdetected⟩,
      ⟨_, _, rfl, hselected⟩, ⟨_, hindex⟩, .nil⟩
  rw [toJson_eq_ofMembers]
  simp only [ofJson, Json.bind_eq_ok_iff]
  refine ⟨_, Json.slots_ofMembers_present (by decide) htakes, ?_⟩
  simp only [slots, Json.bind_eq_ok_iff, Json.slot_eq_ok_iff]
  exact ⟨_, ⟨_, rfl, hrun⟩, _, ⟨_, rfl, rfl⟩, _, ⟨_, rfl, rfl⟩, _, herror, _, ⟨_, rfl, hdetected⟩,
    _, ⟨_, rfl, hselected⟩, _, hindex, rfl⟩

/-- Lists of regions that are accepted have entries whose parts fit. -/
theorem representable_of_mem_regions {entries : List ReportedRegion} (h : regions j = .ok entries) :
    ∀ entry ∈ entries, entry.Representable := by
  intro entry hentry
  obtain ⟨_, hvalue⟩ := Json.exists_of_mem_items h hentry
  exact ReportedRegion.representable_of_ofJson hvalue

/-- Every report that is accepted has parts that fit. -/
theorem representable_of_ofJson (h : ofJson j = .ok r) : r.Representable := by
  simp only [ofJson, Json.bind_eq_ok_iff] at h
  obtain ⟨vs, -, h⟩ := h
  split at h
  · simp only [Json.bind_eq_ok_iff, Json.slot_eq_ok_iff] at h
    obtain ⟨runId, -, generatedAt, -, phase, -, error, -, detected, ⟨_, -, hdetected⟩,
      selected, ⟨_, -, hselected⟩, currentIndex, hindex, h⟩ := h
    cases h
    refine ⟨representable_of_mem_regions hdetected, representable_of_mem_regions hselected, ?_⟩
    rintro index rfl
    obtain ⟨_, -, hsize⟩ := Json.decode_of_optionalSlot hindex
    exact Json.lt_of_size hsize
  · cases h

/-- What is written is read back. A tree is accepted as a rectangle if and only if it spells a valid one, so the
bounds in an accepted report can all be built, and writing what was accepted and reading it again changes nothing. -/
theorem read_back :
    (∀ r : Report, r.Representable → ofJson r.toJson = .ok r) ∧
    (∀ (j : Json) (b : Rect), Rect.ofJson j = .ok b ↔ b.SpelledBy j ∧ b.Valid) ∧
    (∀ (j : Json) (b : Rect), Rect.ofJson j = .ok b → Rect.ofJson b.toJson = .ok b) ∧
    (∀ (j : Json) (entry : ReportedRegion), ReportedRegion.ofJson j = .ok entry →
      ReportedRegion.ofJson entry.toJson = .ok entry) ∧
    ∀ (j : Json) (r : Report), ofJson j = .ok r →
      (∀ entry ∈ r.detected ++ r.selected, Rect.of? entry.bounds.left entry.bounds.top entry.bounds.width
        entry.bounds.height = .ok entry.bounds) ∧ ofJson r.toJson = .ok r := by
  refine ⟨fun _ => ofJson_toJson, fun _ _ => Rect.ofJson_eq_ok_iff,
    fun j b h => Rect.ofJson_toJson (Rect.ofJson_eq_ok_iff.1 h).2,
    fun j entry h => ReportedRegion.ofJson_toJson (ReportedRegion.representable_of_ofJson h), fun j r h => ?_⟩
  have hr := representable_of_ofJson h
  refine ⟨fun entry hentry => Rect.of?_eq_ok_iff.2 ⟨rfl, ?_⟩, ofJson_toJson hr⟩
  rcases List.mem_append.1 hentry with hentry | hentry
  · exact (hr.detected entry hentry).bounds
  · exact (hr.selected entry hentry).bounds

/-- A rectangle in an object with its members out of order, one of them unknown, and its sides whole numbers. -/
def shuffled : Json :=
  .ofMembers [("top", .ofFloat (-0.0)), ("left", .ofFloat (-1.5)), ("scale", .null), ("width", .ofNat 300),
    ("height", .ofNat 200)]

/-- A report whose only region is written as a list, without its last field. -/
def listed : Json :=
  .ofMembers [("detected", .ofItems [.ofItems [.ofNat 0, shuffled, .ofString "large", .ofNat 2, .ofNat 7]]),
    ("error", .null), ("selected", .ofItems []), ("phase", .ofString "selecting"), ("generated_at", .ofString ""),
    ("run_id", .ofString "00000000-0000-0000-0000-00000000000a")]

/-- What the report says of its region. -/
def listedEntry : ReportedRegion := ⟨0, ⟨-1.5, -0.0, 300, 200⟩, .large, 2, 7, none⟩

/-- What the report says. -/
def listedReport : Report where
  runId := ⟨10⟩
  generatedAt := ""
  phase := "selecting"
  error := none
  detected := [listedEntry]
  selected := []
  currentIndex := none

theorem read_back_listed :
    Rect.ofJson shuffled = .ok ⟨-1.5, -0.0, 300, 200⟩ ∧ ofJson listed = .ok listedReport ∧
      ofJson listedReport.toJson = .ok listedReport ∧
      Rect.of? (-1.5) (-0.0) 300 200 = .ok ⟨-1.5, -0.0, 300, 200⟩ := by
  obtain ⟨hwritten, hrect, -, -, haccepted⟩ := read_back
  have hpane : (⟨-1.5, -0.0, 300, 200⟩ : Rect).Valid := by
    constructor <;> decide +kernel
  have hcomponents : (⟨-1.5, -0.0, 300, 200⟩ : Rect).Components (.ofFloat (-1.5)) (.ofFloat (-0.0)) (.ofNat 300)
      (.ofNat 200) := ⟨rfl, rfl, rfl, rfl⟩
  have hshuffled : Rect.ofJson shuffled = .ok ⟨-1.5, -0.0, 300, 200⟩ := by
    refine (hrect _ _).2 ⟨.members ?_ (.swap _ _ _) hcomponents, hpane⟩
    simp [Json.IsPassed, Json.fault?, Json.ofFloat, Json.ofNat, Json.ofInt]
  have hlisted : ofJson listed = .ok listedReport := by
    rfl
  exact ⟨hshuffled, hlisted, hwritten _ (representable_of_ofJson hlisted),
    (haccepted _ _ hlisted).1 listedEntry List.mem_cons_self⟩

end Report

end WindowSurvey
