import WindowSurvey.Geometry
import WindowSurvey.Proofs.Decimal.Root
import WindowSurvey.Proofs.Json.Records
/-!
# Which trees are accepted as rectangles

A rectangle is spelled by a list of its four components, or by an object in which they stand under their names. The
four numbers are read before the check that builds rectangles, so a tree is accepted when it spells a rectangle that
passes the check, and such a rectangle is read back from its own JSON form.

## Main definitions

* `Rect.Valid` — finite components and sides above zero
* `Rect.SpelledBy` — the trees that spell a rectangle, as a list or as an object

## Main statements

* `Rect.of?_eq_ok_iff` — the check builds the valid rectangles
* `Rect.ofJson_eq_ok_iff` — a tree is accepted when it spells a valid rectangle
-/

namespace WindowSurvey

/-! ## Numbers -/

namespace Binary64

open Float.Model (Format UnpackedFloat)
open Float.Model.UnpackedFloat

variable {x : Float}

theorem ne_notANumber_of_isFinite (hx : x.isFinite = true) : x.toModel.unpack ≠ .notANumber := by
  intro hn
  have hfinite : x.toModel.unpack.isFinite = true := hx
  rw [hn] at hfinite
  cases hfinite

/-- Numbers with the sign bit do not exceed zero. -/
theorem zero_compare_ne_lt {b : BitVec Format.binary64.numBits} (h : 2 ^ 63 ≤ b.toNat) :
    UnpackedFloat.compare (.zero .positive) (unpack .binary64 b) ≠ some .lt := by
  simp only [unpack, unpackSign_of_le h]
  split_ifs <;> exact nofun

theorem zero_lt_iff_compare : 0.0 < x ↔
    UnpackedFloat.compare (.zero .positive) x.toModel.unpack = some .lt := by
  have hzero : word 0.0 = 0 := by decide +kernel
  rw [← unpack_of_word_eq_zero hzero, ← beq_iff_eq]
  show decide ((0.0 : Float).toModel < x.toModel) = true ↔ _
  rw [decide_eq_true_iff]
  rfl

/-- A finite double is either greater than zero or at most zero. -/
theorem zero_lt_iff_not_le (hx : x.isFinite = true) : 0.0 < x ↔ ¬ x ≤ 0.0 := by
  have hzero : word 0.0 = 0 := by decide +kernel
  have hle : word 0.0 ≤ topWord := hzero ▸ Nat.zero_le _
  have hnumber := ne_notANumber_of_isFinite hx
  rcases Nat.lt_or_ge (word x) (2 ^ 63) with hs | hs
  · rcases Nat.lt_or_ge topWord (word x) with hl | hl
    · exact absurd (unpack_of_topWord_lt hl hs) hnumber
    · rw [le_iff_word_le hl hle, lt_iff_word_lt hle hl, Nat.not_le]
  · have hbelow : x ≤ 0.0 := le_iff_unpack.2 (compare_of_le hs hnumber hle)
    exact iff_of_false (fun hlt => zero_compare_ne_lt hs (zero_lt_iff_compare.1 hlt)) (not_not_intro hbelow)

end Binary64

/-! ## Rectangles -/

namespace Rect

variable {r : Rect} {j : Json}

/-- All components are finite, and both sides are above zero. -/
structure Valid (r : Rect) : Prop where
  left_finite : r.left.isFinite = true
  top_finite : r.top.isFinite = true
  width_finite : r.width.isFinite = true
  height_finite : r.height.isFinite = true
  width_pos : 0.0 < r.width
  height_pos : 0.0 < r.height

/-- The check that builds rectangles builds the valid ones. -/
theorem of?_eq_ok_iff {left top width height : Float} :
    of? left top width height = .ok r ↔ r = ⟨left, top, width, height⟩ ∧ r.Valid := by
  unfold of?
  constructor
  · intro h
    split at h
    · cases h
    · next hfinite =>
      split at h
      · cases h
      · next hpos =>
        cases h
        simp only [Bool.not_eq_true', Bool.not_eq_false, Bool.and_eq_true] at hfinite
        obtain ⟨⟨⟨hl, ht⟩, hw⟩, hh⟩ := hfinite
        simp only [Bool.or_eq_true, decide_eq_true_eq, not_or] at hpos
        obtain ⟨hwpos, hhpos⟩ := hpos
        exact ⟨rfl, hl, ht, hw, hh, (Binary64.zero_lt_iff_not_le hw).2 hwpos,
          (Binary64.zero_lt_iff_not_le hh).2 hhpos⟩
  · rintro ⟨rfl, hl, ht, hw, hh, hwpos, hhpos⟩
    replace hwpos := (Binary64.zero_lt_iff_not_le hw).1 hwpos
    replace hhpos := (Binary64.zero_lt_iff_not_le hh).1 hhpos
    rw [if_neg (by rw [hl, ht, hw, hh]; decide), if_neg (by simp [hwpos, hhpos])]

/-- The four numbers are the components. -/
structure Components (r : Rect) (left top width height : Json) : Prop where
  left : Json.real left = .ok r.left
  top : Json.real top = .ok r.top
  width : Json.real width = .ok r.width
  height : Json.real height = .ok r.height

/-- The trees that spell a rectangle: a list of its four components, or an object in which they stand under their
names in any order, among members with unknown names. -/
inductive SpelledBy (r : Rect) : Json → Prop
  | items {left top width height : Json} (components : r.Components left top width height) :
      SpelledBy r (.array [left, top, width, height] none)
  | members {members : List (Option String × Json)} {left top width height : Json}
      (passed : ∀ m ∈ members, Json.IsPassed fields m)
      (known : (Json.known fields members).Perm
        [("left", left), ("top", top), ("width", width), ("height", height)])
      (components : r.Components left top width height) : SpelledBy r (.object members none)

theorem nodup_fields : (fields.map Json.Field.name).Nodup := by decide

theorem takes_fields_iff {vs : List (Option Json)} : List.Forall₂ Json.Field.Takes fields vs ↔
    ∃ r : Rect, ∃ left top width height, vs = [some left, some top, some width, some height] ∧
      r.Components left top width height := by
  simp only [fields, List.map_cons, List.map_nil, List.forall₂_cons_left_iff, List.forall₂_nil_left_iff,
    Json.takes_required_iff]
  constructor
  · rintro ⟨_, _, ⟨left, l, rfl, hl⟩, ⟨_, _, ⟨top, t, rfl, ht⟩, ⟨_, _, ⟨width, w, rfl, hw⟩,
      ⟨_, _, ⟨height, h, rfl, hh⟩, rfl, rfl⟩, rfl⟩, rfl⟩, rfl⟩
    exact ⟨⟨l, t, w, h⟩, left, top, width, height, rfl, hl, ht, hw, hh⟩
  · rintro ⟨r, left, top, width, height, rfl, hl, ht, hw, hh⟩
    exact ⟨_, _, ⟨left, _, rfl, hl⟩, ⟨_, _, ⟨top, _, rfl, ht⟩, ⟨_, _, ⟨width, _, rfl, hw⟩,
      ⟨_, _, ⟨height, _, rfl, hh⟩, rfl, rfl⟩, rfl⟩, rfl⟩, rfl⟩

theorem spelledBy_iff : r.SpelledBy j ↔ ∃ left top width height,
    Json.Spells fields j [some left, some top, some width, some height] ∧
      r.Components left top width height := by
  constructor
  · rintro (⟨hc⟩ | ⟨hpassed, hknown, hc⟩)
    · exact ⟨_, _, _, _, @Json.Spells.items fields _ 0 (takes_fields_iff.2 ⟨r, _, _, _, _, rfl, hc⟩), hc⟩
    · exact ⟨_, _, _, _, .members hpassed hknown (takes_fields_iff.2 ⟨r, _, _, _, _, rfl, hc⟩), hc⟩
  · rintro ⟨left, top, width, height, hspells, hc⟩
    generalize hvs : [some left, some top, some width, some height] = vs at hspells
    cases hspells with
    | @items values missing htakes =>
      have hmissing : missing = 0 := by
        by_contra hpos
        have hnone : none ∈ values.map some ++ List.replicate missing none :=
          List.mem_append_right _ (List.mem_replicate.2 ⟨hpos, rfl⟩)
        simp [← hvs] at hnone
      subst hmissing
      obtain rfl : [left, top, width, height] = values :=
        List.map_injective_iff.2 (Option.some_injective _) (hvs.trans (List.append_nil _))
      exact .items hc
    | members hpassed hknown htakes =>
      subst hvs
      exact .members hpassed hknown hc

/-- A tree is accepted as a rectangle when it spells one that is valid. -/
theorem ofJson_eq_ok_iff : ofJson j = .ok r ↔ r.SpelledBy j ∧ r.Valid := by
  simp only [ofJson, Json.bind_eq_ok_iff, Json.slots_eq_ok_iff nodup_fields, spelledBy_iff]
  constructor
  · rintro ⟨vs, hspells, h⟩
    split at h
    · simp only [Json.bind_eq_ok_iff, Json.slot_eq_ok_iff] at h
      obtain ⟨l, ⟨left, rfl, hl⟩, t, ⟨top, rfl, ht⟩, w, ⟨width, rfl, hw⟩, x, ⟨height, rfl, hx⟩, h⟩ := h
      split at h
      · next hr =>
        cases h
        obtain ⟨rfl, hvalid⟩ := of?_eq_ok_iff.1 hr
        exact ⟨⟨left, top, width, height, hspells, hl, ht, hw, hx⟩, hvalid⟩
      · cases h
    · cases h
  · rintro ⟨⟨left, top, width, height, hspells, hl, ht, hw, hx⟩, hvalid⟩
    refine ⟨_, hspells, ?_⟩
    simp only [Json.bind_eq_ok_iff, Json.slot_eq_ok_iff]
    refine ⟨_, ⟨_, rfl, hl⟩, _, ⟨_, rfl, ht⟩, _, ⟨_, rfl, hw⟩, _, ⟨_, rfl, hx⟩, ?_⟩
    rw [of?_eq_ok_iff.2 ⟨rfl, hvalid⟩]
    rfl

theorem spelledBy_toJson (r : Rect) : r.SpelledBy r.toJson :=
  spelledBy_iff.2 ⟨_, _, _, _, Json.spells_ofMembers (takes_fields_iff.2 ⟨r, _, _, _, _, rfl, rfl, rfl, rfl, rfl⟩),
    rfl, rfl, rfl, rfl⟩

/-- A valid rectangle is read back. -/
theorem ofJson_toJson (h : r.Valid) : ofJson r.toJson = .ok r :=
  ofJson_eq_ok_iff.2 ⟨r.spelledBy_toJson, h⟩

end Rect

end WindowSurvey
