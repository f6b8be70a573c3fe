import WindowSurvey.Proofs.Decimal.Root
import WindowSurvey.Proofs.Region.Bounds
import WindowSurvey.Thumbnail.Fit
/-!
# The sides of a scaled picture

With the lesser of the two ratios one side of the picture becomes its limit, and the other side stays within its own.
This is plain in exact arithmetic, where a side is off by the half pixel that rounding costs. The two divisions and
the product in doubles add a relative error that is too small to move the first side from its limit or the second
one beyond, and with sides of usual length too small to matter at all.

## Main definitions

* `roundSide` — the nearest whole number of pixels, which is at least one
* `fitExact` — the rule of `fitWithin` in exact arithmetic
* `Fits` — sides within the limits, one of them at its limit and the other as the ratio asks

## Main statements

* `fits_fitExact` — what the rule gives in exact arithmetic
* `fits_fitWithin` — what it gives in doubles
-/

namespace WindowSurvey

/-! ## Relative errors of doubles -/

namespace Binary64

variable {b : Nat} {p q : ℚ} {u v : Float}

/-- The last place of a number with a full mantissa is a small part of it. -/
theorem two_zpow_scale_le (h : 0 < scale b) : (2 : ℚ) ^ ((scale b : ℤ) - 1074) ≤ magnitude b / 2 ^ 52 := by
  have hm : (2 ^ 52 : ℚ) ≤ mantissa b := by exact_mod_cast le_mantissa h
  have hpos : (0 : ℚ) < 2 ^ ((scale b : ℤ) - 1074) := by positivity
  rw [magnitude, le_div_iff₀ (by positivity)]
  nlinarith

/-- The number after a number is one last place away. -/
theorem magnitude_succ_sub (a : Nat) : magnitude (a + 1) - magnitude a = 2 ^ ((scale a : ℤ) - 1074) := by
  rw [magnitude_succ, magnitude]
  ring

/-- The nearest double is at most half a last place off. -/
theorem Nearest.abs_sub_le (h : Nearest b q) (hscale : 0 < scale b) (hb : b < topWord) :
    |magnitude b - q| ≤ magnitude b / 2 ^ 53 := by
  have hplace := two_zpow_scale_le hscale
  have hsucc := magnitude_succ_sub b
  have hupper := h.upper hb
  obtain ⟨a, rfl⟩ : ∃ a, b = a + 1 := by
    unfold scale at hscale
    exact ⟨b - 1, by omega⟩
  have hlower := h.lower a rfl
  have hpred := magnitude_succ_sub a
  have hmono : (2 : ℚ) ^ ((scale a : ℤ) - 1074) ≤ 2 ^ ((scale (a + 1) : ℤ) - 1074) :=
    zpow_le_zpow_right₀ one_le_two (by unfold scale; omega)
  rw [abs_le]
  constructor <;> linarith

/-- A number that is neither very small nor very great has a nearest double with a small relative error. -/
theorem Nearest.error (h : Nearest b q) (hlow : 1 / 2 ^ 64 < q) (hhigh : q < 2 ^ 65) :
    0 < b ∧ b < topWord ∧ |magnitude b - q| ≤ q / 2 ^ 52 := by
  have hleast : 958 * 2 ^ 52 + 2 ^ 52 ≤ b := by
    refine (nearest_magnitude (by decide)).le_of_lt h ?_
    rw [magnitude_mul_add (.inr (le_refl _)) (by norm_num)]
    norm_num at hlow ⊢
    exact hlow
  have hmost : b ≤ 1087 * 2 ^ 52 + 2 ^ 52 := by
    refine h.le_of_lt (nearest_magnitude (by decide)) ?_
    rw [magnitude_mul_add (.inr (le_refl _)) (by norm_num)]
    norm_num at hhigh ⊢
    exact hhigh
  have htop : b < topWord := by
    unfold topWord
    omega
  have herror := h.abs_sub_le (by unfold scale; omega) htop
  refine ⟨by omega, htop, herror.trans ?_⟩
  have hupper := (abs_le.1 herror).2
  linarith

/-- The lesser of two nearest doubles is nearest to the lesser number. -/
theorem nearest_lesser (hu : Nearest (word u) p) (hv : Nearest (word v) q) :
    Nearest (word (lesser u v)) (min p q) := by
  rw [lesser_eq hu.le_topWord hv.le_topWord]
  split
  · next hlt =>
    rw [min_eq_right (not_lt.1 fun h => absurd (hu.le_of_lt hv h) (Nat.not_le.2 hlt))]
    exact hv
  · next hle =>
    rcases le_or_gt p q with hpq | hqp
    · rw [min_eq_left hpq]
      exact hu
    · have heq : word u = word v := Nat.le_antisymm (Nat.not_lt.1 hle) (hv.le_of_lt hu hqp)
      rw [min_eq_right hqp.le, heq]
      exact hv

/-- Rounding goes to the nearest natural number, halves up. -/
theorem roundNat_ofFloat (h : word u < topWord) :
    (ofFloat u).roundNat = ⌊magnitude (word u) + 1 / 2⌋₊ := by
  have hfloat : ofFloat u = ofBits (word u) := rfl
  rw [hfloat, ofBits_of_lt h, magnitude]
  generalize mantissa (word u) = m
  cases (scale (word u) : ℤ) - 1074 with
  | ofNat k =>
    have hvalue : ((m : ℚ) * 2 ^ (Int.ofNat k) + 1 / 2) = ((m * 2 ^ k : ℕ) : ℚ) + 1 / 2 := by
      push_cast
      simp
    rw [hvalue, add_comm, Nat.floor_add_natCast (by norm_num)]
    norm_num [roundNat]
  | negSucc k =>
    have hvalue : (m : ℚ) * 2 ^ (Int.negSucc k) + 1 / 2 = ((m + 2 ^ k : ℕ) : ℚ) / ((2 ^ (k + 1) : ℕ) : ℚ) := by
      rw [zpow_negSucc]
      push_cast
      field_simp
      ring
    rw [hvalue, Nat.floor_div_natCast, Nat.floor_natCast]
    rfl

end Binary64

/-! ## Rounded sides -/

/-- A side as a whole number of pixels: the nearest one, halves up, but at least one. -/
def roundSide (x : ℚ) : Nat := max ⌊x + 1 / 2⌋₊ 1

/-- A side is off by the half pixel that rounding costs and a share of its length, unless it is kept at one pixel. -/
def IsNear (slack : ℚ) (side : Nat) (x : ℚ) : Prop := side = 1 ∨ |(side : ℚ) - x| ≤ 1 / 2 + slack * x

section Rounding

variable {v x slack : ℚ} {limit : Nat}

theorem one_le_roundSide (x : ℚ) : 1 ≤ roundSide x := Nat.le_max_right _ _

/-- What is less than half a pixel off a limit is rounded to it. -/
theorem roundSide_eq_limit (hlimit : 1 ≤ limit) (h : |v - limit| ≤ slack * limit) (hslack : slack * limit < 1 / 2) :
    roundSide v = limit := by
  obtain ⟨hlow, hhigh⟩ := abs_le.1 h
  have hfloor : ⌊v + 1 / 2⌋₊ = limit := by
    rw [Nat.floor_eq_iff (by linarith [(Nat.cast_nonneg limit : (0 : ℚ) ≤ limit)])]
    constructor <;> linarith
  rw [roundSide, hfloor, Nat.max_eq_left hlimit]

/-- What is less than half a pixel above a limit is not rounded beyond. -/
theorem roundSide_le_limit (hlimit : 1 ≤ limit) (hx : x ≤ limit) (h : |v - x| ≤ slack * x) (hslack0 : 0 ≤ slack)
    (hslack : slack * limit < 1 / 2) : roundSide v ≤ limit := by
  have hv : v < limit + 1 / 2 := by
    have hshare : slack * x ≤ slack * limit := mul_le_mul_of_nonneg_left hx hslack0
    linarith [(abs_le.1 h).2]
  refine Nat.max_le.2 ⟨Nat.lt_succ_iff.1 ((Nat.floor_lt' (Nat.succ_ne_zero _)).2 ?_), hlimit⟩
  push_cast
  linarith

theorem isNear_roundSide (hv : 0 ≤ v) (h : |v - x| ≤ slack * x) : IsNear slack (roundSide v) x := by
  rcases Nat.eq_zero_or_pos ⌊v + 1 / 2⌋₊ with h0 | hpos
  · exact .inl (by rw [roundSide, h0]; rfl)
  · right
    have hlow := Nat.floor_le (show 0 ≤ v + 1 / 2 by linarith)
    have hhigh := Nat.lt_floor_add_one (v + 1 / 2)
    obtain ⟨hl, hh⟩ := abs_le.1 h
    rw [roundSide, Nat.max_eq_left hpos, abs_le]
    constructor <;> linarith

/-- A fraction whose denominator is small enough is not between half a pixel and that with the share. -/
theorem IsNear.sharpen {side p q : Nat} (hq : 0 < q) (h : IsNear slack side (p / q : ℚ)) (hslack : 2 * slack * p < 1) :
    IsNear 0 side (p / q : ℚ) := by
  refine h.imp_right fun h => ?_
  have hq' : (0 : ℚ) < q := by exact_mod_cast hq
  -- over the denominator both bounds are whole numbers
  have hwhole : |2 * ((side : ℤ) * q - p)| < (q : ℤ) + 1 := by
    have hscaled : |2 * ((side : ℚ) * q - p)| = 2 * q * |(side : ℚ) - p / q| := by
      rw [show 2 * ((side : ℚ) * q - p) = 2 * q * (side - p / q) by field_simp, abs_mul,
        abs_of_pos (by positivity)]
    have hbound : |2 * ((side : ℚ) * q - p)| < q + 1 := by
      calc |2 * ((side : ℚ) * q - p)| = 2 * q * |(side : ℚ) - p / q| := hscaled
        _ ≤ 2 * q * (1 / 2 + slack * (p / q)) := by gcongr
        _ = q + 2 * slack * p := by field_simp
        _ < q + 1 := by linarith
    exact_mod_cast hbound
  have hle : |2 * ((side : ℚ) * q - p)| ≤ q := by exact_mod_cast Int.lt_add_one_iff.1 hwhole
  rw [zero_mul, add_zero, show (side : ℚ) - p / q = 2 * (side * q - p) / (2 * q) by field_simp, abs_div,
    abs_of_pos (show (0 : ℚ) < 2 * q by positivity), div_le_iff₀ (by positivity)]
  linarith

end Rounding

/-! ## Fitting -/

/-- The rule in exact arithmetic: both sides are scaled by the lesser ratio, and rounded. -/
def fitExact (width height : Nat) (limit : ThumbnailSettings) : Nat × Nat :=
  let ratio : ℚ := min (limit.width / width) (limit.height / height)
  (roundSide (width * ratio), roundSide (height * ratio))

theorem fitExact_pos (width height : Nat) (limit : ThumbnailSettings) :
    0 < (fitExact width height limit).1 ∧ 0 < (fitExact width height limit).2 :=
  ⟨one_le_roundSide _, one_le_roundSide _⟩

/-- The sides of a scaled picture are within their limits, and one is at its limit. The other is as the ratio of the
sides asks, to half a pixel and a share of its length, or it is one pixel. -/
structure Fits (slack : ℚ) (width height : Nat) (limit : ThumbnailSettings) (width' height' : Nat) : Prop where
  one_le_width : 1 ≤ width'
  one_le_height : 1 ≤ height'
  width_le : width' ≤ limit.width
  height_le : height' ≤ limit.height
  touches : (width' = limit.width ∧ IsNear slack height' ((limit.width * height : ℕ) / width : ℚ)) ∨
    (height' = limit.height ∧ IsNear slack width' ((limit.height * width : ℕ) / height : ℚ))

variable {width height : Nat} {limit : ThumbnailSettings}

/-- With the lesser of two ratios, up to a relative error, one side is rounded to its limit, and the other one stays
within its own. -/
theorem rounds_of_le {slack v v' : ℚ} {m n l l' : Nat} (hm : 0 < m) (hn : 0 < n) (hl : 1 ≤ l) (hl' : 1 ≤ l')
    (hslack : 0 ≤ slack) (hslackl : slack * l < 1 / 2) (hslackl' : slack * l' < 1 / 2) (hv0' : 0 ≤ v')
    (hle : (l / m : ℚ) ≤ l' / n) (hv : |v - m * (l / m : ℚ)| ≤ slack * (m * (l / m : ℚ)))
    (hv' : |v' - n * (l / m : ℚ)| ≤ slack * (n * (l / m : ℚ))) :
    roundSide v = l ∧ roundSide v' ≤ l' ∧ IsNear slack (roundSide v') ((l * n : ℕ) / m : ℚ) := by
  have hmq : (m : ℚ) ≠ 0 := by exact_mod_cast hm.ne'
  have hnq : (0 : ℚ) < n := by exact_mod_cast hn
  have hother : (n : ℚ) * (l / m) = (l * n : ℕ) / m := by
    push_cast
    ring
  have hwithin : ((l * n : ℕ) / m : ℚ) ≤ l' := by
    rw [← hother, mul_comm]
    exact (le_div_iff₀ hnq).1 hle
  rw [mul_div_cancel₀ _ hmq] at hv
  rw [hother] at hv'
  exact ⟨roundSide_eq_limit hl hv hslackl, roundSide_le_limit hl' hwithin hv' hslack hslackl',
    isNear_roundSide hv0' hv'⟩

/-- Sides that are scaled by the lesser ratio, up to a relative error, fit when they are rounded. -/
theorem fits_of_approx {slack v v' : ℚ} (hw : 0 < width) (hh : 0 < height) (hlw : 1 ≤ limit.width)
    (hlh : 1 ≤ limit.height) (hslack : 0 ≤ slack) (hslackw : slack * limit.width < 1 / 2)
    (hslackh : slack * limit.height < 1 / 2) (hv0 : 0 ≤ v) (hv0' : 0 ≤ v')
    (hv : |v - width * min (limit.width / width : ℚ) (limit.height / height)| ≤
      slack * (width * min (limit.width / width : ℚ) (limit.height / height)))
    (hv' : |v' - height * min (limit.width / width : ℚ) (limit.height / height)| ≤
      slack * (height * min (limit.width / width : ℚ) (limit.height / height))) :
    Fits slack width height limit (roundSide v) (roundSide v') := by
  rcases le_total (limit.width / width : ℚ) (limit.height / height) with hle | hle
  · rw [min_eq_left hle] at hv hv'
    obtain ⟨hwidth, hheight, hnear⟩ := rounds_of_le hw hh hlw hlh hslack hslackw hslackh hv0' hle hv hv'
    exact ⟨one_le_roundSide _, one_le_roundSide _, hwidth.le, hheight, .inl ⟨hwidth, hnear⟩⟩
  · rw [min_eq_right hle] at hv hv'
    obtain ⟨hheight, hwidth, hnear⟩ := rounds_of_le hh hw hlh hlw hslack hslackh hslackw hv0 hle hv' hv
    exact ⟨one_le_roundSide _, one_le_roundSide _, hwidth, hheight.le, .inr ⟨hheight, hnear⟩⟩

/-- In exact arithmetic the rule fits, whatever the sides. -/
theorem fits_fitExact (hw : 0 < width) (hh : 0 < height) (hlw : 1 ≤ limit.width) (hlh : 1 ≤ limit.height) :
    Fits 0 width height limit (fitExact width height limit).1 (fitExact width height limit).2 :=
  fits_of_approx hw hh hlw hlh le_rfl (by norm_num) (by norm_num) (by positivity) (by positivity) (by simp) (by simp)

/-- Sides as they are fit limits that are equal to them. -/
theorem fits_self (hw : 0 < width) (hh : 0 < height) (hlw : width = limit.width) (hlh : height = limit.height) :
    Fits 0 width height limit width height where
  one_le_width := hw
  one_le_height := hh
  width_le := hlw.le
  height_le := hlh.le
  touches := .inl ⟨hlw, .inr (by
    have hwq : (width : ℚ) ≠ 0 := by exact_mod_cast hw.ne'
    rw [← hlw]
    push_cast
    rw [mul_div_cancel_left₀ _ hwq]
    norm_num)⟩

theorem IsNear.mono {slack slack' x : ℚ} {side : Nat} (hx : 0 ≤ x) (h : IsNear slack side x) (hle : slack ≤ slack') :
    IsNear slack' side x :=
  h.imp_right fun h => h.trans (by gcongr)

theorem Fits.mono {slack slack' : ℚ} {w h : Nat} (hfits : Fits slack width height limit w h) (hle : slack ≤ slack') :
    Fits slack' width height limit w h where
  one_le_width := hfits.one_le_width
  one_le_height := hfits.one_le_height
  width_le := hfits.width_le
  height_le := hfits.height_le
  touches := hfits.touches.imp (.imp_right fun h => h.mono (by positivity) hle)
    (.imp_right fun h => h.mono (by positivity) hle)

/-- With sides of usual length, the share of the length makes no difference. -/
theorem Fits.sharpen {slack : ℚ} {w h : Nat} (hfits : Fits slack width height limit w h) (hw : 0 < width)
    (hh : 0 < height) (hcross : 2 * slack * (limit.width * height : ℕ) < 1)
    (hcross' : 2 * slack * (limit.height * width : ℕ) < 1) : Fits 0 width height limit w h where
  one_le_width := hfits.one_le_width
  one_le_height := hfits.one_le_height
  width_le := hfits.width_le
  height_le := hfits.height_le
  touches := hfits.touches.imp (.imp_right fun h => h.sharpen hw hcross) (.imp_right fun h => h.sharpen hh hcross')

/-! ## Doubles -/

section Doubles

open Binary64

variable {m n : Nat}

/-- A ratio of sides is rounded once. -/
theorem nearest_ratio (hm : m < 2 ^ 32) (hn0 : 0 < n) (hn : n < 2 ^ 32) :
    Nearest (word (Float.ofNat m / Float.ofNat n)) (m / n) := by
  obtain ⟨htop, hvalue⟩ := word_ofNat (n := m) (by omega)
  obtain ⟨htop', hvalue'⟩ := word_ofNat (n := n) (by omega)
  have h := nearest_div htop (word_ofNat_pos hn0 (by omega)) htop'
  rwa [hvalue, hvalue'] at h

/-- A ratio of sides is neither very small nor very great. -/
theorem ratio_bounds (hm0 : 1 ≤ m) (hm : m < 2 ^ 32) (hn0 : 0 < n) (hn : n < 2 ^ 32) :
    1 / 2 ^ 32 < (m / n : ℚ) ∧ (m / n : ℚ) < 2 ^ 32 := by
  have hmq : (1 : ℚ) ≤ m := by exact_mod_cast hm0
  have hmq' : (m : ℚ) < 2 ^ 32 := by exact_mod_cast hm
  have hnq : (1 : ℚ) ≤ n := by exact_mod_cast hn0
  have hnq' : (n : ℚ) < 2 ^ 32 := by exact_mod_cast hn
  constructor
  · rw [div_lt_div_iff₀ (by positivity) (by linarith)]
    linarith
  · rw [div_lt_iff₀ (by linarith)]
    linarith

/-- The product of a side with a ratio has a small relative error, and is rounded as in exact arithmetic. -/
theorem exists_roundNat_mul {ratio : Float} {r : ℚ} (hn0 : 0 < n) (hn : n < 2 ^ 32)
    (hratio : Nearest (word ratio) r) (hlow : 1 / 2 ^ 32 < r) (hhigh : r < 2 ^ 32) :
    ∃ v : ℚ, 0 ≤ v ∧ |v - n * r| ≤ 1 / 2 ^ 50 * (n * r) ∧
      max (ofFloat (Float.ofNat n * ratio)).roundNat 1 = roundSide v := by
  obtain ⟨hpos, htop, herror⟩ := hratio.error (by linarith) (by linarith)
  obtain ⟨hntop, hnvalue⟩ := word_ofNat (n := n) (by omega)
  have hnear := nearest_mul (word_ofNat_pos hn0 (by omega)) hntop hpos htop
  rw [hnvalue] at hnear
  have hnq : (1 : ℚ) ≤ n := by exact_mod_cast hn0
  have hnq' : (n : ℚ) < 2 ^ 32 := by exact_mod_cast hn
  obtain ⟨hl, hh⟩ := abs_le.1 herror
  have ha : 1 / 2 ^ 33 < magnitude (word ratio) := by linarith
  have ha' : magnitude (word ratio) < 2 ^ 33 := by linarith
  have htwice : magnitude (word ratio) ≤ 2 * r := by linarith
  obtain ⟨-, hvtop, hverror⟩ := hnear.error
    (by calc (1 / 2 ^ 64 : ℚ) < 1 / 2 ^ 33 := by norm_num
          _ < magnitude (word ratio) := ha
          _ ≤ n * magnitude (word ratio) := le_mul_of_one_le_left (by linarith) hnq)
    (by calc (n : ℚ) * magnitude (word ratio) < 2 ^ 32 * 2 ^ 33 := mul_lt_mul'' hnq' ha' (by linarith) (by linarith)
          _ = 2 ^ 65 := by norm_num)
  refine ⟨magnitude (word (Float.ofNat n * ratio)), ?_, ?_, by rw [roundNat_ofFloat hvtop]; rfl⟩
  · rw [← magnitude_zero]
    exact magnitude_strictMono.monotone (Nat.zero_le _)
  · -- one error is made by the ratio, and one by the product
    have hproduct : |n * magnitude (word ratio) - n * r| ≤ n * r / 2 ^ 52 := by
      rw [← mul_sub, abs_mul, abs_of_pos (by linarith), mul_div_assoc]
      gcongr
    calc |magnitude (word (Float.ofNat n * ratio)) - n * r|
        ≤ |magnitude (word (Float.ofNat n * ratio)) - n * magnitude (word ratio)| +
            |n * magnitude (word ratio) - n * r| := abs_sub_le _ _ _
      _ ≤ n * (2 * r) / 2 ^ 52 + n * r / 2 ^ 52 := by
          refine add_le_add (hverror.trans ?_) hproduct
          gcongr
      _ ≤ 1 / 2 ^ 50 * (n * r) := by
          have hnr : 0 < n * r := mul_pos (by linarith) (by linarith)
          linarith

/-- In doubles the rule fits up to a small share of the length. -/
theorem fits_fitWithin (hw : 0 < width) (hw' : width < 2 ^ 32) (hh : 0 < height) (hh' : height < 2 ^ 32)
    (hlw : 1 ≤ limit.width) (hlw' : limit.width < 2 ^ 32) (hlh : 1 ≤ limit.height) (hlh' : limit.height < 2 ^ 32) :
    Fits (1 / 2 ^ 50) width height limit (fitWithin width height limit).1 (fitWithin width height limit).2 := by
  have hratio := nearest_lesser (nearest_ratio hlw' hw hw') (nearest_ratio hlh' hh hh')
  obtain ⟨hlow, hhigh⟩ := ratio_bounds hlw hlw' hw hw'
  obtain ⟨hlow', -⟩ := ratio_bounds hlh hlh' hh hh'
  replace hlow := lt_min hlow hlow'
  replace hhigh := (min_le_left _ (limit.height / height : ℚ)).trans_lt hhigh
  obtain ⟨v, hv0, hv, hvround⟩ := exists_roundNat_mul hw hw' hratio hlow hhigh
  obtain ⟨v', hv0', hv', hvround'⟩ := exists_roundNat_mul hh hh' hratio hlow hhigh
  have hsmall {n : Nat} (hn : n < 2 ^ 32) : 1 / 2 ^ 50 * (n : ℚ) < 1 / 2 := by
    have hnq : (n : ℚ) < 2 ^ 32 := by exact_mod_cast hn
    linarith
  have hfits := fits_of_approx hw hh hlw hlh (by norm_num) (hsmall hlw') (hsmall hlh') hv0 hv0' hv hv'
  rwa [← hvround, ← hvround'] at hfits

end Doubles

end WindowSurvey
