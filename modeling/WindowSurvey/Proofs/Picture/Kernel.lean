import WindowSurvey.Proofs.Decimal.Root
import WindowSurvey.Proofs.Picture.Gradient
/-!
# The edges of a picture, pixel by pixel

The two differences are sums over the pixels around a pixel with whole numbers as weights: along an edge the
weights smooth, across it they tell one side from the other. So the buffers of the gradient and of the
foreground can be written down in whole numbers, at every place and for every size.

## Main definitions

* `Gray.weighted` — a weighted sum over the three by three pixels around a pixel
* `Gray.slopeSquare` — the square of the gradient's length by such sums

## Main statements

* `Gray.pixels_binarize_gradientMagnitude` — both buffers at every place
-/

namespace WindowSurvey

/-- The root found bit by bit is the root in whole numbers, cut off at the greatest byte. -/
theorem rootByte_eq_sqrt (n : Nat) : rootByte n = min (Nat.sqrt n) 255 := by
  obtain ⟨hlow, hle, hhigh⟩ := rootByte_spec n
  have hroot : rootByte n ≤ Nat.sqrt n := Nat.le_sqrt.2 hlow
  rcases hhigh with h255 | hlt
  · omega
  · have hroot' : Nat.sqrt n < rootByte n + 1 := Nat.sqrt_lt.2 hlt
    omega

namespace Gray

variable {g : Gray} {x y : Nat}

/-! ## Weighted sums -/

/-- The weights along an edge. -/
def smoothing : Fin 3 → Int := ![1, 2, 1]

/-- The weights across an edge. -/
def difference : Fin 3 → Int := ![-1, 0, 1]

/-- The sum over the three by three pixels around a pixel, with a weight for each column and each row. -/
def weighted (g : Gray) (columns rows : Fin 3 → Int) (x y : Nat) : Int :=
  ∑ i, ∑ j, columns i * rows j * g.level (x + i - 1) (y + j - 1)

/-- The square of the gradient's length. -/
def slopeSquare (g : Gray) (x y : Nat) : Int :=
  g.weighted difference smoothing x y ^ 2 + g.weighted smoothing difference x y ^ 2

theorem gradientX_eq_weighted (hx : 1 ≤ x) (hy : 1 ≤ y) :
    g.gradientX x y = g.weighted difference smoothing x y := by
  obtain ⟨x, rfl⟩ := Nat.exists_eq_add_of_le' hx
  obtain ⟨y, rfl⟩ := Nat.exists_eq_add_of_le' hy
  simp [weighted, Fin.sum_univ_three, difference, smoothing, gradientX]
  ring

theorem gradientY_eq_weighted (hx : 1 ≤ x) (hy : 1 ≤ y) :
    g.gradientY x y = g.weighted smoothing difference x y := by
  obtain ⟨x, rfl⟩ := Nat.exists_eq_add_of_le' hx
  obtain ⟨y, rfl⟩ := Nat.exists_eq_add_of_le' hy
  simp [weighted, Fin.sum_univ_three, difference, smoothing, gradientY]
  ring

theorem gradientSquare_eq_slopeSquare (hx : 1 ≤ x) (hy : 1 ≤ y) :
    g.gradientSquare x y = g.slopeSquare x y := by
  rw [gradientSquare, slopeSquare, gradientX_eq_weighted hx hy, gradientY_eq_weighted hx hy, sq, sq]

/-- A difference of weighted sums of three levels each. -/
theorem sq_le_of_levels {a b c d e f : UInt8} :
    ((a.toNat + 2 * b.toNat + c.toNat : Int) - (d.toNat + 2 * e.toNat + f.toNat)) ^ 2 ≤ 1020 ^ 2 := by
  have ha := a.toNat_lt
  have hb := b.toNat_lt
  have hc := c.toNat_lt
  have hd := d.toNat_lt
  have he := e.toNat_lt
  have hf := f.toNat_lt
  exact sq_le_sq' (by omega) (by omega)

/-- The number of which the root is taken is small. -/
theorem slopeSquare_le (hx : 1 ≤ x) (hy : 1 ≤ y) : g.slopeSquare x y ≤ 2 * 1020 ^ 2 := by
  have hacross : g.gradientX x y ^ 2 ≤ 1020 ^ 2 := sq_le_of_levels
  have hdown : g.gradientY x y ^ 2 ≤ 1020 ^ 2 := sq_le_of_levels
  rw [slopeSquare, ← gradientX_eq_weighted hx hy, ← gradientY_eq_weighted hx hy]
  linarith

/-! ## Both buffers -/

/-- A pixel has all eight neighbours. -/
def HasNeighbours (g : Gray) (x y : Nat) : Prop :=
  1 ≤ x ∧ x + 2 ≤ g.width ∧ 1 ≤ y ∧ y + 2 ≤ g.height

instance (g : Gray) (x y : Nat) : Decidable (g.HasNeighbours x y) :=
  inferInstanceAs (Decidable (_ ∧ _))

theorem isInterior_iff_hasNeighbours : g.isInterior x y = true ↔ g.HasNeighbours x y := isInterior_iff

theorem magnitudeAt_eq (g : Gray) (x y : Nat) : g.magnitudeAt x y =
    if g.HasNeighbours x y then UInt8.ofNat (min (Nat.sqrt (g.slopeSquare x y).toNat) 255) else 0 := by
  rw [magnitudeAt]
  by_cases h : g.HasNeighbours x y
  · rw [if_pos h, if_pos (isInterior_iff_hasNeighbours.2 h), ← rootByte_eq_sqrt,
      ← gradientSquare_eq_slopeSquare h.1 h.2.2.1]
    rfl
  · rw [if_neg h, if_neg (isInterior_iff_hasNeighbours.not.2 h)]

/-- There are two bytes only in a picture that was binarized. -/
theorem pixel_binarize (g : Gray) (threshold : UInt8) (x y : Nat) :
    (g.binarize threshold).pixel x y =
      if (g.binarize threshold).IsForeground x y then foreground else background := by
  by_cases h : (g.binarize threshold).IsForeground x y
  · rw [if_pos h]
    rw [IsForeground, binarize, pixel_map] at h
    rw [binarize, pixel_map]
    split_ifs at h ⊢
    · rfl
    · exact absurd rfl h
    · exact absurd rfl h
  · rw [if_neg h]
    exact not_not.1 h

/-- The buffers of the gradient and of the foreground, for pictures of every size and every threshold. The size
of the gradient is the root of the square of its length, as it is found in doubles too; a pixel is foreground
when that square reaches the square of the step above the threshold. -/
theorem pixels_binarize_gradientMagnitude (g : Gray) (threshold : UInt8) :
    (g.gradientMagnitude.width = g.width ∧ g.gradientMagnitude.height = g.height) ∧
      ((g.gradientMagnitude.binarize threshold).width = g.width ∧
        (g.gradientMagnitude.binarize threshold).height = g.height) ∧
      ∀ x < g.width, ∀ y < g.height,
        g.gradientMagnitude.pixels[y * g.width + x]? = some (if g.HasNeighbours x y
          then UInt8.ofNat (min (Nat.sqrt (g.slopeSquare x y).toNat) 255) else 0) ∧
        (g.HasNeighbours x y → g.gradientMagnitude.pixels[y * g.width + x]? =
          some (lesser (Float.ofNat (g.slopeSquare x y).toNat).sqrt 255).toUInt8) ∧
        (g.gradientMagnitude.binarize threshold).pixels[y * g.width + x]? =
          some (if g.HasNeighbours x y ∧ threshold < 255 ∧
            ((threshold.toNat : Int) + 1) ^ 2 ≤ g.slopeSquare x y then foreground else background) := by
  refine ⟨⟨rfl, rfl⟩, ⟨rfl, rfl⟩, fun x hx y hy => ?_⟩
  have hmagnitude : g.gradientMagnitude.pixels[y * g.width + x]? = some (g.magnitudeAt x y) := by
    have h := g.gradientMagnitude.getElem?_pixels (x := x) (y := y) hx hy
    rw [gradientMagnitude, pixel_build, if_pos ⟨hx, hy⟩] at h
    exact h
  have hstrong : (g.gradientMagnitude.binarize threshold).pixels[y * g.width + x]? =
      some (if (g.gradientMagnitude.binarize threshold).IsForeground x y
        then foreground else background) := by
    rw [← pixel_binarize]
    exact (g.gradientMagnitude.binarize threshold).getElem?_pixels hx hy
  rw [hmagnitude, magnitudeAt_eq, hstrong]
  refine ⟨rfl, fun hin => ?_, ?_⟩
  · have hsmall := slopeSquare_le (g := g) hin.1 hin.2.2.1
    rw [if_pos hin, Binary64.toUInt8_lesser_sqrt (by omega)]
  · simp only [isForeground_binarize_iff, isInterior_iff_hasNeighbours]
    by_cases hin : g.HasNeighbours x y
    · have hsquare : ((threshold.toNat + 1) * (threshold.toNat + 1) : Nat) =
          ((threshold.toNat : Int) + 1) ^ 2 := by
        push_cast
        ring
      rw [hsquare, gradientSquare_eq_slopeSquare hin.1 hin.2.2.1]
    · simp only [hin, false_and]

/-! ### A ledge at the threshold -/

/-- A ledge whose gradient is as long as one of the thresholds. -/
def ledge : Gray := build 4 3 fun x _ => if x = 2 then 25 else 0

/-- A gradient of length one hundred exceeds the threshold below it and not its own. -/
theorem pixels_binarize_ledge :
    ledge.gradientMagnitude.pixels[5]? = some 100 ∧
      (ledge.gradientMagnitude.binarize 99).pixels[5]? = some foreground ∧
      (ledge.gradientMagnitude.binarize 100).pixels[5]? = some background ∧
      (ledge.gradientMagnitude.binarize 99).pixels[7]? = some background := by
  have hsquare : ledge.slopeSquare 1 1 = 10000 := by decide +kernel
  have hin : ledge.HasNeighbours 1 1 := by decide
  have hborder : ¬ ledge.HasNeighbours 3 1 := by decide
  obtain ⟨-, -, hbelow⟩ := pixels_binarize_gradientMagnitude ledge 99
  obtain ⟨-, -, hat⟩ := pixels_binarize_gradientMagnitude ledge 100
  obtain ⟨hmagnitude, -, hforeground⟩ := hbelow 1 (by decide) 1 (by decide)
  obtain ⟨-, -, hbackground⟩ := hat 1 (by decide) 1 (by decide)
  obtain ⟨-, -, hflat⟩ := hbelow 3 (by decide) 1 (by decide)
  rw [hsquare, if_pos hin] at hmagnitude
  rw [hsquare, if_pos ⟨hin, by decide, by decide⟩] at hforeground
  rw [hsquare, if_neg fun h => absurd h.2.2 (by decide)] at hbackground
  rw [if_neg fun h => hborder h.1] at hflat
  exact ⟨hmagnitude.trans (by decide +kernel), hforeground, hbackground, hflat⟩

end Gray

end WindowSurvey
