import WindowSurvey.Proofs.Picture.Gradient
/-!
# Symmetries of the gradient

The size of a gradient does not depend on which of two sides is the brighter one, nor on where left and up are.
So it is the same for the inverse of a picture and for a picture that is brighter by a constant, and it turns
with the picture. At a pixel with all its neighbours each of these changes is one of levels; the two differences
keep their sizes or trade places, and the square of the length stays what it is.

## Main definitions

* `Gray.invert`, `Gray.brighten` — a picture with other levels
* `Gray.transpose`, `Gray.mirrorAcross`, `Gray.mirrorDown` — a picture turned over

## Main statements

* `Gray.gradientMagnitude_invert`, `Gray.gradientMagnitude_brighten`
* `Gray.gradientMagnitude_transpose`, `Gray.gradientMagnitude_mirrorAcross`,
  `Gray.gradientMagnitude_mirrorDown`
-/

namespace WindowSurvey

namespace Gray

variable {g g' : Gray} {x y x' y' : Nat}

/-! ## Pictures with other levels, and pictures turned over -/

/-- The inverse of a picture: dark where it is bright. -/
def invert (g : Gray) : Gray := g.map fun v => 255 - v

/-- A picture with a constant added to every pixel, cut off at both ends. -/
def brighten (g : Gray) (c : Int) : Gray := g.map fun v => UInt8.ofNat (min (v.toNat + c).toNat 255)

/-- No pixel is cut off when a constant is added. -/
def HasRoom (g : Gray) (c : Int) : Prop := ∀ v ∈ g.pixels, 0 ≤ v.toNat + c ∧ v.toNat + c ≤ 255

instance (g : Gray) (c : Int) : Decidable (g.HasRoom c) :=
  inferInstanceAs (Decidable (∀ v ∈ g.pixels, _))

/-- Columns become rows. -/
def transpose (g : Gray) : Gray := build g.height g.width fun x y => g.pixel y x

/-- Left and right change places. -/
def mirrorAcross (g : Gray) : Gray := build g.width g.height fun x y => g.pixel (g.width - 1 - x) y

/-- Top and bottom change places. -/
def mirrorDown (g : Gray) : Gray := build g.width g.height fun x y => g.pixel x (g.height - 1 - y)

/-! ## Levels -/

theorem pixel_mem (hx : x < g.width) (hy : y < g.height) : g.pixel x y ∈ g.pixels :=
  Array.mem_of_getElem? (g.getElem?_pixels hx hy)

theorem level_invert (hx : x < g.width) (hy : y < g.height) :
    g.invert.level x y = 255 - g.level x y := by
  have hlt := (g.pixel x y).toNat_lt
  have hle : g.pixel x y ≤ 255 := UInt8.le_iff_toNat_le.2 (by simpa using Nat.le_of_lt_succ hlt)
  rw [level, level, invert, pixel_map, if_pos ⟨hx, hy⟩, UInt8.toNat_sub_of_le _ _ hle]
  simp
  omega

theorem level_brighten {c : Int} (h : g.HasRoom c) (hx : x < g.width) (hy : y < g.height) :
    (g.brighten c).level x y = g.level x y + c := by
  obtain ⟨hlow, hhigh⟩ := h _ (pixel_mem hx hy)
  rw [level, level, brighten, pixel_map, if_pos ⟨hx, hy⟩, UInt8.toNat_ofNat']
  omega

theorem level_transpose (g : Gray) (x y : Nat) : g.transpose.level x y = g.level y x := by
  rw [level, level, transpose, pixel_build]
  split
  · rfl
  · next h =>
    rcases Nat.lt_or_ge x g.height with hx | hx
    · rw [g.pixel_of_le_width (Nat.le_of_not_lt fun hy => h ⟨hx, hy⟩)]
    · rw [g.pixel_of_le_height hx]

theorem level_mirrorAcross (hx : x < g.width) (hy : y < g.height) :
    g.mirrorAcross.level x y = g.level (g.width - 1 - x) y := by
  rw [level, mirrorAcross, pixel_build, if_pos ⟨hx, hy⟩, level]

theorem level_mirrorDown (hx : x < g.width) (hy : y < g.height) :
    g.mirrorDown.level x y = g.level x (g.height - 1 - y) := by
  rw [level, mirrorDown, pixel_build, if_pos ⟨hx, hy⟩, level]

/-! ## Lengths -/

/-- The size of a gradient is known by the square of its length. -/
theorem magnitudeAt_congr (hin : g'.isInterior x' y' = g.isInterior x y)
    (hsquare : g.isInterior x y = true → g'.gradientSquare x' y' = g.gradientSquare x y) :
    g'.magnitudeAt x' y' = g.magnitudeAt x y := by
  unfold magnitudeAt
  rw [hin]
  split
  · next h =>
    show UInt8.ofNat (rootByte (g'.gradientSquare x' y').toNat) =
      UInt8.ofNat (rootByte (g.gradientSquare x y).toNat)
    rw [hsquare h]
  · rfl

theorem gradientSquare_invert (h : g.isInterior x y = true) :
    g.invert.gradientSquare x y = g.gradientSquare x y := by
  obtain ⟨-, hx, -, hy⟩ := isInterior_iff.1 h
  have hacross : g.invert.gradientX x y = -g.gradientX x y := by
    simp (disch := omega) only [gradientX, level_invert]
    omega
  have hdown : g.invert.gradientY x y = -g.gradientY x y := by
    simp (disch := omega) only [gradientY, level_invert]
    omega
  rw [gradientSquare, gradientSquare, hacross, hdown, Int.neg_mul_neg, Int.neg_mul_neg]

theorem gradientSquare_brighten {c : Int} (hc : g.HasRoom c) (h : g.isInterior x y = true) :
    (g.brighten c).gradientSquare x y = g.gradientSquare x y := by
  obtain ⟨-, hx, -, hy⟩ := isInterior_iff.1 h
  have hacross : (g.brighten c).gradientX x y = g.gradientX x y := by
    simp (disch := omega) only [gradientX, level_brighten hc]
    omega
  have hdown : (g.brighten c).gradientY x y = g.gradientY x y := by
    simp (disch := omega) only [gradientY, level_brighten hc]
    omega
  rw [gradientSquare, gradientSquare, hacross, hdown]

/-- The two differences trade places. -/
theorem gradientSquare_transpose (g : Gray) (x y : Nat) :
    g.transpose.gradientSquare x y = g.gradientSquare y x := by
  have hacross : g.transpose.gradientX x y = g.gradientY y x := by
    simp only [gradientX, gradientY, level_transpose]
  have hdown : g.transpose.gradientY x y = g.gradientX y x := by
    simp only [gradientX, gradientY, level_transpose]
  rw [gradientSquare, gradientSquare, hacross, hdown, Int.add_comm]

theorem gradientSquare_mirrorAcross (h : g.isInterior x y = true) :
    g.mirrorAcross.gradientSquare x y = g.gradientSquare (g.width - 1 - x) y := by
  obtain ⟨hx1, hx, -, hy⟩ := isInterior_iff.1 h
  have hright : g.width - 1 - (x + 1) = g.width - 1 - x - 1 := by omega
  have hleft : g.width - 1 - (x - 1) = g.width - 1 - x + 1 := by omega
  have hacross : g.mirrorAcross.gradientX x y = -g.gradientX (g.width - 1 - x) y := by
    simp (disch := omega) only [gradientX, level_mirrorAcross, hright, hleft]
    omega
  have hdown : g.mirrorAcross.gradientY x y = g.gradientY (g.width - 1 - x) y := by
    simp (disch := omega) only [gradientY, level_mirrorAcross, hright, hleft]
    omega
  rw [gradientSquare, gradientSquare, hacross, hdown, Int.neg_mul_neg]

theorem gradientSquare_mirrorDown (h : g.isInterior x y = true) :
    g.mirrorDown.gradientSquare x y = g.gradientSquare x (g.height - 1 - y) := by
  obtain ⟨-, hx, hy1, hy⟩ := isInterior_iff.1 h
  have hbelow : g.height - 1 - (y + 1) = g.height - 1 - y - 1 := by omega
  have habove : g.height - 1 - (y - 1) = g.height - 1 - y + 1 := by omega
  have hacross : g.mirrorDown.gradientX x y = g.gradientX x (g.height - 1 - y) := by
    simp (disch := omega) only [gradientX, level_mirrorDown, hbelow, habove]
    omega
  have hdown : g.mirrorDown.gradientY x y = -g.gradientY x (g.height - 1 - y) := by
    simp (disch := omega) only [gradientY, level_mirrorDown, hbelow, habove]
    omega
  rw [gradientSquare, gradientSquare, hacross, hdown, Int.neg_mul_neg]

/-! ## Pictures of gradient sizes -/

theorem gradientMagnitude_invert (g : Gray) : g.invert.gradientMagnitude = g.gradientMagnitude :=
  build_congr fun _ _ _ _ => magnitudeAt_congr rfl gradientSquare_invert

theorem gradientMagnitude_brighten {c : Int} (hc : g.HasRoom c) :
    (g.brighten c).gradientMagnitude = g.gradientMagnitude :=
  build_congr fun _ _ _ _ => magnitudeAt_congr rfl (gradientSquare_brighten hc)

theorem gradientMagnitude_transpose (g : Gray) :
    g.transpose.gradientMagnitude = g.gradientMagnitude.transpose := by
  refine build_congr fun x hx y hy => ?_
  rw [gradientMagnitude, pixel_build, if_pos ⟨hy, hx⟩]
  refine magnitudeAt_congr ?_ fun _ => g.gradientSquare_transpose x y
  rw [Bool.eq_iff_iff, isInterior_iff, isInterior_iff]
  show 1 ≤ x ∧ x + 1 < g.height ∧ 1 ≤ y ∧ y + 1 < g.width ↔ _
  omega

theorem gradientMagnitude_mirrorAcross (g : Gray) :
    g.mirrorAcross.gradientMagnitude = g.gradientMagnitude.mirrorAcross := by
  refine build_congr fun x hx y hy => ?_
  have hx : x < g.width := hx
  have hin : g.mirrorAcross.isInterior x y = g.isInterior (g.width - 1 - x) y := by
    rw [Bool.eq_iff_iff, isInterior_iff, isInterior_iff]
    show 1 ≤ x ∧ x + 1 < g.width ∧ 1 ≤ y ∧ y + 1 < g.height ↔ _
    omega
  rw [gradientMagnitude, width_build, pixel_build, if_pos ⟨by omega, hy⟩]
  exact magnitudeAt_congr hin fun h => gradientSquare_mirrorAcross (hin.trans h)

theorem gradientMagnitude_mirrorDown (g : Gray) :
    g.mirrorDown.gradientMagnitude = g.gradientMagnitude.mirrorDown := by
  refine build_congr fun x hx y hy => ?_
  have hy : y < g.height := hy
  have hin : g.mirrorDown.isInterior x y = g.isInterior x (g.height - 1 - y) := by
    rw [Bool.eq_iff_iff, isInterior_iff, isInterior_iff]
    show 1 ≤ x ∧ x + 1 < g.width ∧ 1 ≤ y ∧ y + 1 < g.height ↔ _
    omega
  rw [gradientMagnitude, height_build, pixel_build, if_pos ⟨hx, by omega⟩]
  exact magnitudeAt_congr hin fun h => gradientSquare_mirrorDown (hin.trans h)

end Gray

end WindowSurvey
