import WindowSurvey.Proofs.Outline.Tracing
/-!
# Which pixels are edges

The size of a gradient is compared in whole numbers: a pixel is foreground when the square of the gradient's
length reaches the square of the step above the threshold. No root has to be taken to tell.

## Main statements

* `rootByte_spec` — the byte found bit by bit is the root, cut off at the greatest byte
* `Gray.isForeground_binarize_iff` — the foreground in terms of the two differences
-/

namespace WindowSurvey

/-! ## The root -/

/-- One bit of the search for the root. -/
def rootStep (n root bit : Nat) : Nat :=
  if (root + bit) * (root + bit) ≤ n then root + bit else root

/-- The search has narrowed the root down to `span` values, the first of which is not too large. -/
def RootWithin (n root span : Nat) : Prop :=
  root * root ≤ n ∧ root + span ≤ 256 ∧ (root + span = 256 ∨ n < (root + span) * (root + span))

/-- A bit halves the span. -/
theorem rootWithin_step {n root bit : Nat} (h : RootWithin n root (2 * bit)) :
    RootWithin n (rootStep n root bit) bit := by
  obtain ⟨hlow, hle, hhigh⟩ := h
  have hsum : root + 2 * bit = root + bit + bit := by omega
  rw [hsum] at hle hhigh
  unfold rootStep
  split
  · next h => exact ⟨h, hle, hhigh⟩
  · next h => exact ⟨hlow, by omega, .inr (Nat.lt_of_not_le h)⟩

/-- The root of a number, cut off at the greatest byte. -/
theorem rootByte_spec (n : Nat) :
    rootByte n * rootByte n ≤ n ∧ rootByte n ≤ 255 ∧
      (rootByte n = 255 ∨ n < (rootByte n + 1) * (rootByte n + 1)) := by
  have h₀ : RootWithin n 0 256 := ⟨Nat.zero_le n, by decide, .inl (by decide)⟩
  have h₁ : RootWithin n _ 128 := rootWithin_step h₀
  have h₂ : RootWithin n _ 64 := rootWithin_step h₁
  have h₃ : RootWithin n _ 32 := rootWithin_step h₂
  have h₄ : RootWithin n _ 16 := rootWithin_step h₃
  have h₅ : RootWithin n _ 8 := rootWithin_step h₄
  have h₆ : RootWithin n _ 4 := rootWithin_step h₅
  have h₇ : RootWithin n _ 2 := rootWithin_step h₆
  have h₈ : RootWithin n (rootByte n) 1 := rootWithin_step h₇
  obtain ⟨hlow, hle, hhigh⟩ := h₈
  exact ⟨hlow, by omega, hhigh.imp_left fun h => by omega⟩

/-- The root exceeds a byte when the number reaches the square of the next one. -/
theorem lt_rootByte_iff {n t : Nat} (ht : t < 255) : t < rootByte n ↔ (t + 1) * (t + 1) ≤ n := by
  obtain ⟨hlow, hle, hhigh⟩ := rootByte_spec n
  constructor
  · intro h
    exact Nat.le_trans (Nat.mul_le_mul h h) hlow
  · intro h
    refine Nat.lt_of_not_le fun hroot => ?_
    rcases hhigh with h255 | hlt
    · omega
    · exact Nat.lt_irrefl _ (Nat.lt_of_lt_of_le hlt (Nat.le_trans
        (Nat.mul_le_mul (Nat.succ_le_succ hroot) (Nat.succ_le_succ hroot)) h))

namespace Gray

variable {g : Gray} {threshold : UInt8} {x y : Nat}

/-! ## The foreground -/

theorem isInterior_iff :
    g.isInterior x y = true ↔ 1 ≤ x ∧ x + 1 < g.width ∧ 1 ≤ y ∧ y + 1 < g.height := by
  simp only [isInterior, Bool.and_eq_true, decide_eq_true_eq, and_assoc]

/-- The square of the gradient's length. -/
def gradientSquare (g : Gray) (x y : Nat) : Int :=
  g.gradientX x y * g.gradientX x y + g.gradientY x y * g.gradientY x y

theorem isForeground_binarize_iff : (g.gradientMagnitude.binarize threshold).IsForeground x y ↔
    g.isInterior x y = true ∧ threshold < 255 ∧
      ((threshold.toNat + 1) * (threshold.toNat + 1) : Nat) ≤ g.gradientSquare x y := by
  have hforeground : (g.gradientMagnitude.binarize threshold).IsForeground x y ↔
      (x < g.width ∧ y < g.height) ∧ threshold < g.magnitudeAt x y := by
    rw [IsForeground, binarize, pixel_map, gradientMagnitude, pixel_build, width_build, height_build]
    by_cases hxy : x < g.width ∧ y < g.height
    · rw [if_pos hxy, if_pos hxy]
      by_cases ht : threshold < g.magnitudeAt x y
      · simp [ht, hxy, foreground, background]
      · simp [ht]
    · simp [hxy, background]
  rw [hforeground, magnitudeAt]
  by_cases hin : g.isInterior x y = true
  · have hxy : x < g.width ∧ y < g.height := by
      have := isInterior_iff.1 hin
      omega
    have hnonneg (a : Int) : 0 ≤ a * a := by
      rw [← Int.natAbs_mul_self]
      exact Int.natCast_nonneg _
    have hsquare : 0 ≤ g.gradientSquare x y := Int.add_nonneg (hnonneg _) (hnonneg _)
    have hroot := (rootByte_spec (g.gradientSquare x y).toNat).2.1
    have hbyte : (UInt8.ofNat (rootByte (g.gradientSquare x y).toNat)).toNat =
        rootByte (g.gradientSquare x y).toNat := by
      rw [UInt8.toNat_ofNat']
      omega
    have ht : threshold < 255 ↔ threshold.toNat < 255 := UInt8.lt_iff_toNat_lt
    rw [if_pos hin]
    simp only [hin, hxy, true_and, ht]
    show threshold < UInt8.ofNat (rootByte (g.gradientSquare x y).toNat) ↔ _
    rw [UInt8.lt_iff_toNat_lt, hbyte]
    by_cases hlt : threshold.toNat < 255
    · rw [lt_rootByte_iff hlt]
      omega
    · omega
  · rw [if_neg hin]
    simp [hin]

end Gray

end WindowSurvey
