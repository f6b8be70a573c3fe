import WindowSurvey.Outline.PixelBox
import WindowSurvey.Proofs.Decimal.Rounding
import WindowSurvey.Proofs.Outline.Boxes
import WindowSurvey.Region.Category
/-!
# Boxes of pixels as rectangles

On a screen whose sides are words of 32 bits the doubles of a box are exact. So its rectangle can be built, its
key is the box itself, and greater boxes have no lesser category.

## Main definitions

* `Dimensions.Addressable` — screens whose sides are words of 32 bits
* `PixelBox.rect` — the rectangle of a box
-/

namespace WindowSurvey

/-! ## Exact doubles -/

namespace Binary64

variable {n : Nat}

theorem isFinite_ofNat (hn : n < 2 ^ 53) : (Float.ofNat n).isFinite = true := by
  have hlt := (word_ofNat hn).1
  show (Float.ofNat n).toModel.unpack.isFinite = true
  rcases Nat.eq_zero_or_pos (word (Float.ofNat n)) with h0 | h0
  · rw [unpack_of_word_eq_zero h0]
    rfl
  · rw [unpack_of_word_lt h0 hlt]
    rfl

theorem word_ofNat_pos (h0 : 0 < n) (hn : n < 2 ^ 53) : 0 < word (Float.ofNat n) := by
  have hzero : word (Float.ofNat 0) = 0 := by decide +kernel
  rw [← hzero, word_ofNat_lt_iff (by omega) hn]
  exact h0

theorem not_ofNat_le_zero (h0 : 0 < n) (hn : n < 2 ^ 53) : ¬ Float.ofNat n ≤ 0.0 := by
  have hzero : word 0.0 = 0 := by decide +kernel
  rw [le_iff_word_le (word_ofNat hn).1.le (hzero ▸ Nat.zero_le _), hzero]
  have := word_ofNat_pos h0 hn
  omega

/-- A number that is not negative is equal to itself. -/
theorem beq_self_of_word_le {x : Float} (h : word x ≤ topWord) : (x == x) = true := by
  show (x.toModel.unpack.compare x.toModel.unpack == some .eq) = true
  rw [compare_eq_compare_word h h, Nat.compare_eq_eq.2 rfl]
  rfl

/-- A product of natural numbers is rounded once. -/
theorem nearest_ofNat_mul {m : Nat} (hm0 : 0 < m) (hm : m < 2 ^ 53) (hn0 : 0 < n) (hn : n < 2 ^ 53) :
    Nearest (word (Float.ofNat m * Float.ofNat n)) (m * n : ℕ) := by
  have h := nearest_mul (word_ofNat_pos hm0 hm) (word_ofNat hm).1 (word_ofNat_pos hn0 hn)
    (word_ofNat hn).1
  rw [(word_ofNat hm).2, (word_ofNat hn).2] at h
  exact_mod_cast h

end Binary64

/-! ## Screens -/

open Binary64

/-- The sides of the screen are words of 32 bits. -/
structure Dimensions.Addressable (s : Dimensions) : Prop where
  width_lt : s.width < 2 ^ 32
  height_lt : s.height < 2 ^ 32

/-- The area of a screen with pixels is a positive double. -/
theorem Dimensions.word_area {s : Dimensions} (hs : s.Addressable) (hw : 0 < s.width)
    (hh : 0 < s.height) : 0 < word s.area ∧ word s.area < topWord := by
  have h : Nearest (word s.area) (s.width * s.height : ℕ) :=
    nearest_ofNat_mul hw (by have := hs.width_lt; omega) hh (by have := hs.height_lt; omega)
  have hlow : (1 : ℚ) ≤ (s.width * s.height : ℕ) := by exact_mod_cast Nat.mul_pos hw hh
  have hhigh : s.width * s.height < 2 ^ 32 * 2 ^ 32 := Nat.mul_lt_mul'' hs.width_lt hs.height_lt
  generalize s.width * s.height = pixels at h hlow hhigh
  have hhalf := nearest_magnitude (b := 1021 * 2 ^ 52 + 2 ^ 52) (by decide +kernel)
  have hgreat := nearest_magnitude (b := 1086 * 2 ^ 52 + 2 ^ 52) (by decide +kernel)
  rw [magnitude_mul_add (.inr (le_refl _)) (by norm_num)] at hhalf hgreat
  have h₁ := hhalf.le_of_lt h (by norm_num; linarith)
  have h₂ := h.le_of_lt hgreat (by norm_num; omega)
  refine ⟨by omega, lt_of_le_of_lt h₂ (by decide +kernel)⟩

/-! ## Boxes -/

namespace PixelBox

/-- The rectangle of a box. -/
def rect (b : PixelBox) : Rect :=
  ⟨Float.ofNat b.x, Float.ofNat b.y, Float.ofNat b.width, Float.ofNat b.height⟩

variable {a b : PixelBox} {s : Dimensions}

/-- A box on an addressable screen has a rectangle. -/
theorem toRect?_eq (hb : b.LiesIn s.width s.height) (hs : s.Addressable) : b.toRect? = .ok b.rect := by
  obtain ⟨hw0, hh0, hw, hh⟩ := hb
  have hx : b.x + b.width < 2 ^ 53 := by have := hs.width_lt; omega
  have hy : b.y + b.height < 2 ^ 53 := by have := hs.height_lt; omega
  have hwidth := not_ofNat_le_zero hw0 (show b.width < 2 ^ 53 by omega)
  have hheight := not_ofNat_le_zero hh0 (show b.height < 2 ^ 53 by omega)
  have hfinite : ¬ (!((Float.ofNat b.x).isFinite && (Float.ofNat b.y).isFinite &&
      (Float.ofNat b.width).isFinite && (Float.ofNat b.height).isFinite)) = true := by
    simp only [isFinite_ofNat (show b.x < 2 ^ 53 by omega),
      isFinite_ofNat (show b.y < 2 ^ 53 by omega), isFinite_ofNat (show b.width < 2 ^ 53 by omega),
      isFinite_ofNat (show b.height < 2 ^ 53 by omega)]
    decide
  rw [toRect?, Rect.of?, if_neg hfinite, if_neg (by simp [hwidth, hheight])]
  rfl

/-- The rectangle of a box on an addressable screen is equal to itself. -/
theorem rect_beq_self (hb : b.LiesIn s.width s.height) (hs : s.Addressable) :
    (b.rect == b.rect) = true := by
  obtain ⟨-, -, hw, hh⟩ := hb
  have hx : b.x + b.width < 2 ^ 53 := by have := hs.width_lt; omega
  have hy : b.y + b.height < 2 ^ 53 := by have := hs.height_lt; omega
  have hself {n : Nat} (hn : n < 2 ^ 53) : (Float.ofNat n == Float.ofNat n) = true :=
    beq_self_of_word_le (word_ofNat hn).1.le
  show (Float.ofNat b.x == Float.ofNat b.x && Float.ofNat b.y == Float.ofNat b.y &&
    Float.ofNat b.width == Float.ofNat b.width && Float.ofNat b.height == Float.ofNat b.height) = true
  rw [hself (show b.x < _ by omega), hself (show b.y < _ by omega), hself (show b.width < _ by omega),
    hself (show b.height < _ by omega)]
  rfl

/-- The key of a box on an addressable screen is the box itself. -/
theorem key_rect (hb : b.LiesIn s.width s.height) (hs : s.Addressable) :
    SightingKey.of b.rect = ⟨b.x, b.y, b.width, b.height⟩ := by
  obtain ⟨-, -, hw, hh⟩ := hb
  have hx : b.x + b.width < 2 ^ 53 := by have := hs.width_lt; omega
  have hy : b.y + b.height < 2 ^ 53 := by have := hs.height_lt; omega
  simp only [SightingKey.of, SightingKey.component, rect,
    truncateInt64_ofNat (show b.x < 2 ^ 53 by omega), truncateInt64_ofNat (show b.y < 2 ^ 53 by omega),
    truncateInt64_ofNat (show b.width < 2 ^ 53 by omega),
    truncateInt64_ofNat (show b.height < 2 ^ 53 by omega)]

/-- Boxes with one key are one box. -/
theorem eq_of_key_eq (ha : a.LiesIn s.width s.height) (hb : b.LiesIn s.width s.height)
    (hs : s.Addressable) (h : SightingKey.of a.rect = SightingKey.of b.rect) : a = b := by
  rw [key_rect ha hs, key_rect hb hs] at h
  cases a
  cases b
  simp_all

/-- A box whose sides are no longer has no greater area. -/
theorem word_area_le (hw0 : 0 < a.width) (hh0 : 0 < a.height) (hw : a.width ≤ b.width)
    (hh : a.height ≤ b.height) (hbw : b.width < 2 ^ 53) (hbh : b.height < 2 ^ 53) :
    word a.area ≤ word b.area := by
  rcases Nat.lt_or_eq_of_le (Nat.mul_le_mul hw hh) with hlt | heq
  · have ha := nearest_ofNat_mul hw0 (hw.trans_lt hbw) hh0 (hh.trans_lt hbh)
    have hb := nearest_ofNat_mul (hw0.trans_le hw) hbw (hh0.trans_le hh) hbh
    exact ha.le_of_lt hb (by exact_mod_cast hlt)
  · -- boxes with one product of sides have the same sides
    have hwidth : a.width = b.width := by nlinarith
    have hheight : a.height = b.height := by nlinarith
    rw [area, area, hwidth, hheight]

/-- The area of a box is a double that is not negative. -/
theorem word_area_lt (hb : b.LiesIn s.width s.height) (hs : s.Addressable) :
    word b.area < topWord := by
  have h := Dimensions.word_area (s := ⟨b.width, b.height⟩)
    ⟨by have := hb.right_le; have := hs.width_lt; show b.width < _; omega,
      by have := hb.bottom_le; have := hs.height_lt; show b.height < _; omega⟩ hb.width_pos hb.height_pos
  exact h.2

end PixelBox

/-! ## Categories -/

/-- A greater share of the screen is in no lesser category, whatever the thresholds are. -/
theorem Category.rank_classify_le {x y large medium : Float} (hx : word x ≤ topWord)
    (hy : word y ≤ topWord) (hxy : word x ≤ word y) :
    (classify x large medium).rank ≤ (classify y large medium).rank := by
  have hstep (l : Float) : x ≥ l → y ≥ l := le_of_le_of_word_le hx hy hxy
  unfold classify
  split_ifs with h₁ h₂ h₃ h₄ h₅ h₆ <;> simp_all [rank]

/-- On one screen a box in a greater category has a greater area. -/
theorem PixelBox.area_le_of_rank_lt {a b : PixelBox} {s : Dimensions} {large medium : Float}
    (ha : a.LiesIn s.width s.height) (hb : b.LiesIn s.width s.height) (hs : s.Addressable)
    (h : (Category.classify (a.area / s.area) large medium).rank <
      (Category.classify (b.area / s.area) large medium).rank) : a.area ≤ b.area := by
  have hw0 : 0 < s.width := by have := ha.width_pos; have := ha.right_le; omega
  have hh0 : 0 < s.height := by have := ha.height_pos; have := ha.bottom_le; omega
  obtain ⟨hs0, hslt⟩ := s.word_area hs hw0 hh0
  have hwa := word_area_lt ha hs
  have hwb := word_area_lt hb hs
  rw [le_iff_word_le hwa.le hwb.le]
  by_contra hlt
  have hdiv := word_div_le_word_div (Nat.le_of_not_le hlt) hwa hs0 hslt
  exact absurd h (Nat.not_lt.2
    (Category.rank_classify_le (hdiv.1.trans hdiv.2) hdiv.2 hdiv.1))

end WindowSurvey
