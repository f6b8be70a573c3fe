import WindowSurvey.Proofs.Detector.Acceptance
/-!
# What a detector overlooks

No box is larger than the square that is searched from a seed, so no region is in a greater category than that
square is. Where the square is no larger than the least size of a region, nothing is found; where the square is
small on a screen, everything that is found there is small, and small regions are never shown.

## Main definitions

* `Detector.window` — the square that is searched from a seed
* `Detector.Overlooks` — screens on which a detector finds nothing that is shown

## Main statements

* `Detector.detect_of_window_le` — a square that is no larger than the least size
* `Detector.rank_category_le` — a region is in no greater category than the square
* `Detector.classify_window_of_pixelCount` — with the settings that hold unless set otherwise, the square is small
  on screens with more than 800000 pixels
-/

namespace WindowSurvey

open Binary64

namespace Detector

/-! ## The square that is searched -/

/-- The square that is searched from a seed. A side of zero counts as one. -/
def window (d : Detector) : PixelBox :=
  ⟨0, 0, max d.settings.traceWindow 1, max d.settings.traceWindow 1⟩

/-- Nothing that is found on a screen is shown: the square is no larger than the least size of a region, or it
is small on the screen. -/
def Overlooks (d : Detector) (screen : Dimensions) : Prop :=
  d.window.width ≤ d.settings.minRegionSize ∨
    screen.Addressable ∧ d.classify (d.window.area / screen.area) = .small

variable {d : Detector} {frame : Frame} {cycle : Nat} {x : Region}

theorem width_le_window {screen : Dimensions} {g : Gray} {b : PixelBox} (h : b ∈ d.boxes screen g) :
    b.width ≤ d.window.width :=
  (Tracing.le_window_of_mem_traceBoxes (List.mem_filter.1 h).1).1

/-- Where no box can be larger than the least size, nothing is found, whatever a frame shows. -/
theorem detect_of_window_le (h : d.window.width ≤ d.settings.minRegionSize) (frame : Frame)
    (cycle : Nat) : d.detect frame cycle = [] := by
  have hboxes (g : Gray) : d.boxes frame.dimensions g = [] := by
    refine List.eq_nil_iff_forall_not_mem.2 fun b hb => ?_
    have hwindow := width_le_window hb
    have habove := (accepts_iff.1 (List.mem_filter.1 hb).2).1.1
    omega
  rw [detect, detect?]
  cases frame.luminance with
  | error failure => rfl
  | ok g =>
    simp only [bind, Except.bind, hboxes]
    rfl

/-- What is known of a region that is found. -/
theorem finds_of_mem_detect (hs : frame.dimensions.Addressable) (h : x ∈ d.detect frame cycle) :
    ∃ b, d.Finds frame cycle b x := by
  cases hvalid : frame.validate with
  | error failure =>
    rw [detect, d.detect?_of_invalid cycle hvalid] at h
    cases h
  | ok _ =>
    obtain ⟨rs, hrs, hfinds⟩ := d.detect?_finds cycle hvalid hs
    rw [detect, hrs] at h
    obtain ⟨i, hi, rfl⟩ := List.getElem_of_mem h
    obtain ⟨hlength, hall⟩ := List.forall₂_iff_get.1 hfinds
    exact ⟨_, hall i (hlength.symm ▸ hi) hi⟩

/-- No region is in a greater category than the square that is searched, whatever a frame shows. -/
theorem rank_category_le (hwindow : d.settings.traceWindow < 2 ^ 32) (hs : frame.dimensions.Addressable)
    (h : x ∈ d.detect frame cycle) :
    x.category.rank ≤ (d.classify (d.window.area / frame.dimensions.area)).rank := by
  obtain ⟨b, hb⟩ := finds_of_mem_detect hs h
  have hw0 := hb.liesIn.width_pos
  have hh0 := hb.liesIn.height_pos
  have hwindow' : d.window.width < 2 ^ 32 := by
    show max d.settings.traceWindow 1 < _
    omega
  have hsquare := Dimensions.word_area (s := ⟨d.window.width, d.window.height⟩) ⟨hwindow', hwindow'⟩
    (by have := hb.window.1; show 0 < max _ _; omega) (by have := hb.window.2; show 0 < max _ _; omega)
  obtain ⟨hscreen0, hscreen⟩ := frame.dimensions.word_area hs
    (by have := hb.liesIn.right_le; simp only [Frame.width] at this; omega)
    (by have := hb.liesIn.bottom_le; simp only [Frame.height] at this; omega)
  have hle := PixelBox.word_area_le (b := d.window) hw0 hh0 hb.window.1 hb.window.2
    (show d.window.width < _ by omega) (show d.window.width < _ by omega)
  have hshare := word_div_le_word_div hle hsquare.2 hscreen0 hscreen
  rw [hb.category]
  exact Category.rank_classify_le (hshare.1.trans hshare.2) hshare.2 hshare.1

/-- On a screen where the square is small, all that is found is small. -/
theorem category_of_mem_detect (hwindow : d.settings.traceWindow < 2 ^ 32)
    (hover : d.Overlooks frame.dimensions) (h : x ∈ d.detect frame cycle) : x.category = .small := by
  rcases hover with hnone | ⟨hs, hsmall⟩
  · rw [detect_of_window_le hnone] at h
    cases h
  · have hle := rank_category_le hwindow hs h
    rw [hsmall] at hle
    exact Category.rank_injective (Nat.le_zero.1 hle)

/-! ## The usual settings -/

/-- A quotient of less than a twentieth is a double below the least share of a medium region. -/
theorem classify_of_lt {share : Float} {q : ℚ} (hshare : Nearest (word share) q)
    (hq : q < 7205759403792793 / 2 ^ 57) : ({} : Detector).classify share = .small := by
  have hmedium : word 0.05 = 1017 * 2 ^ 52 + 7205759403792794 := by decide +kernel
  have hlarge : word 0.15 = 1019 * 2 ^ 52 + 5404319552844595 := by decide +kernel
  have htop : word share ≤ 1017 * 2 ^ 52 + 7205759403792793 := by
    refine hshare.le_of_lt (nearest_magnitude (by decide +kernel)) ?_
    rw [magnitude_mul_add (.inr (by norm_num)) (by norm_num)]
    norm_num at hq ⊢
    exact hq
  have hlt {threshold : Float} (ht : word threshold ≤ topWord) (h : word share < word threshold) :
      ¬ share ≥ threshold := by
    rw [ge_iff_le, le_iff_word_le ht (h.le.trans ht)]
    exact Nat.not_le.2 h
  show Category.classify share 0.15 0.05 = .small
  rw [Category.classify, if_neg (hlt (by decide +kernel) (by omega)),
    if_neg (hlt (by decide +kernel) (by omega))]

/-- With the settings that hold unless set otherwise, the square is small on every screen with more than 800000
pixels. -/
theorem classify_window_of_pixelCount {screen : Dimensions} (hs : screen.Addressable)
    (h : 800000 < screen.pixelCount) :
    ({} : Detector).classify (({} : Detector).window.area / screen.area) = .small := by
  have hpixels : 0 < screen.width ∧ 0 < screen.height := by
    rw [Dimensions.pixelCount] at h
    constructor <;> refine Nat.pos_of_ne_zero fun h0 => ?_ <;> simp [h0] at h
  obtain ⟨hscreen0, hscreen⟩ := screen.word_area hs hpixels.1 hpixels.2
  have hsquare : word ({} : Detector).window.area = word (Float.ofNat 40000) := by decide +kernel
  obtain ⟨hword, hvalue⟩ := word_ofNat (n := 40000) (by norm_num)
  have hnear : Nearest (word screen.area) (screen.pixelCount : ℕ) :=
    nearest_ofNat_mul hpixels.1 (by have := hs.width_lt; omega) hpixels.2
      (by have := hs.height_lt; omega)
  -- half a pixel more than the bound is a double, and less than the area of the screen
  have hhalf := nearest_magnitude (b := 1041 * 2 ^ 52 + 6871951968567296) (by decide +kernel)
  have hmagnitude : magnitude (1041 * 2 ^ 52 + 6871951968567296) = 1600001 / 2 := by
    rw [magnitude_mul_add (.inr (by norm_num)) (by norm_num)]
    norm_num
  have harea : (1600001 / 2 : ℚ) ≤ magnitude (word screen.area) := by
    rw [hmagnitude] at hhalf
    rw [← hmagnitude]
    refine magnitude_strictMono.monotone (hhalf.le_of_lt hnear ?_)
    have : (800001 : ℚ) ≤ screen.pixelCount := by exact_mod_cast h
    linarith
  generalize ({} : Detector).window.area = square at hsquare ⊢
  have hshare := nearest_div (u := square) (by rw [hsquare]; exact hword) hscreen0 hscreen
  rw [hsquare, hvalue] at hshare
  refine classify_of_lt hshare ?_
  calc ((40000 : ℕ) : ℚ) / magnitude (word screen.area) ≤ 40000 / (1600001 / 2) := by
        push_cast
        gcongr
    _ < 7205759403792793 / 2 ^ 57 := by norm_num

end Detector

end WindowSurvey
