import WindowSurvey.Proofs.Checked.Basic
import WindowSurvey.Proofs.Outline.Tracing
/-!
# Tracing boxes on a machine

Every seed and every square that is searched from one lies in the picture, whatever stride and window are set, since
squares end at the border. So all places that are read are places in the buffers. A box covers its seed first and only
grows, so its last column and row are not before its first ones.

## Main definitions

* `Checked.traceBoxes` — the boxes of a picture, with a stop at what a machine cannot do
* `Claim.Bounded` — an extent in the picture, and a buffer of the right length

## Main statements

* `Checked.traceBoxes_eq` — tracing is carried out, and gives the boxes it should
-/

namespace WindowSurvey

/-! ## Extents in the picture -/

/-- There is a mark for every pixel, and the extent is not empty and lies in the picture. -/
structure Claim.Bounded (g : Gray) (c : Claim) : Prop where
  size : c.claimed.size = g.pixels.size
  minX_le : c.extent.minX ≤ c.extent.maxX
  minY_le : c.extent.minY ≤ c.extent.maxY
  maxX_lt : c.extent.maxX < g.width
  maxY_lt : c.extent.maxY < g.height

theorem Claim.bounded_point {g : Gray} {claimed : Array Bool} {x y : Nat} (hsize : claimed.size = g.pixels.size)
    (hx : x < g.width) (hy : y < g.height) : Claim.Bounded g ⟨claimed, Extent.point x y⟩ :=
  ⟨hsize, Nat.le_refl _, Nat.le_refl _, hx, hy⟩

/-- An extent that covers one more pixel of the picture stays in it. -/
theorem Claim.Bounded.pixel {g : Gray} {c : Claim} {x y : Nat} (h : c.Bounded g) (hx : x < g.width)
    (hy : y < g.height) : (c.pixel g x y).Bounded g := by
  obtain ⟨claimed, extent⟩ := c
  obtain ⟨hsize, hminX, hminY, hmaxX, hmaxY⟩ := h
  rw [Claim.pixel]
  split
  · exact ⟨hsize, hminX, hminY, hmaxX, hmaxY⟩
  · refine ⟨by rw [Array.size_setIfInBounds, hsize], ?_, ?_, ?_, ?_⟩ <;> simp only [Extent.cover] at * <;> omega

namespace Checked

/-! ## Programs -/

/-- Whether a place is claimed or background. The pixel is read only if there is no mark. -/
def isTaken (g : Gray) (claimed : Array Bool) (i : Nat) : Checked Bool := do
  if ← read claimed i then return true
  return (← read g.pixels i) == Gray.background

/-- Claim a pixel of the row that begins at `base`. -/
def claimPixel (g : Gray) (base y : Nat) (c : Claim) (x : Nat) : Checked Claim := do
  let i ← size (base + x)
  if ← isTaken g c.claimed i then return c
  let claimed ← write c.claimed i true
  return ⟨claimed, c.extent.cover x y⟩

/-- Claim the pixels of a row from one column up to another. -/
def claimRow (g : Gray) (fromX toX : Nat) (c : Claim) (y : Nat) : Checked Claim := do
  let base ← size (y * g.width)
  (List.range' fromX (toX - fromX)).foldlM (claimPixel g base y) c

/-- Claim the pixels of all rows from one up to another. -/
def claimSquare (g : Gray) (fromX toX fromY toY : Nat) (c : Claim) : Checked Claim :=
  (List.range' fromY (toY - fromY)).foldlM (claimRow g fromX toX) c

/-- The box of an extent, in words of 32 bits. -/
def toBox (e : Extent) : Checked PixelBox := do
  let width ← word32 ((← minus e.maxX e.minX) + 1)
  let height ← word32 ((← minus e.maxY e.minY) + 1)
  return ⟨e.minX, e.minY, width, height⟩

/-- A sum that is cut off at the greatest word of 32 bits. -/
def saturatingAdd (m n : Nat) : Nat := min (m + n) (2 ^ 32 - 1)

/-- Try a seed. -/
def seed (g : Gray) (window y : Nat) (t : Tracing) (x : Nat) : Checked Tracing := do
  let i ← size ((← size (y * g.width)) + x)
  if ← isTaken g t.claimed i then return t
  let toX := min (saturatingAdd x window) g.width
  let toY := min (saturatingAdd y window) g.height
  let c ← claimSquare g x toX y toY ⟨t.claimed, Extent.point x y⟩
  return ⟨c.claimed, (← toBox c.extent) :: t.boxes⟩

/-- The boxes of a picture, in the order of their seeds. -/
def traceBoxes (g : Gray) (stride window : Nat) : Checked (List PixelBox) := do
  let stride := max stride 1
  let traced ← (gridLine stride g.height).foldlM
    (fun t y => (gridLine stride g.width).foldlM (seed g window y) t) (Tracing.start g)
  return traced.boxes.reverse

/-! ## What they do -/

variable {g : Gray} {c : Claim} {x y : Nat}

theorem isTaken_eq {claimed : Array Bool} (hsize : claimed.size = g.pixels.size) (hx : x < g.width)
    (hy : y < g.height) : isTaken g claimed (y * g.width + x) =
      .ok (g.pixel x y == Gray.background || claimed.getD (y * g.width + x) true) := by
  have hmark : y * g.width + x < claimed.size := by
    rw [hsize, g.size_eq]
    exact Gray.index_lt hx hy
  have hget : claimed.getD (y * g.width + x) true = claimed[y * g.width + x] := by simp [hmark]
  rw [isTaken, read_eq (Array.getElem?_eq_getElem hmark), ok_bind, hget]
  cases claimed[y * g.width + x] with
  | true => rw [if_pos rfl, Bool.or_true]; rfl
  | false => rw [if_neg (by decide), read_eq (g.getElem?_pixels hx hy), Bool.or_false]; rfl

variable (hg : g.width * g.height < 2 ^ 64)
include hg

/-- A pixel is claimed as it should be. -/
theorem claimPixel_eq (h : c.Bounded g) (hx : x < g.width) (hy : y < g.height) :
    claimPixel g (y * g.width) y c x = .ok (c.pixel g x y) := by
  obtain ⟨claimed, extent⟩ := c
  have hlt := Gray.index_lt hx hy
  rw [claimPixel, size_eq (hlt.trans hg), ok_bind, isTaken_eq h.size hx hy, ok_bind, Claim.pixel]
  split
  · rfl
  · rw [write_eq (by rw [h.size, g.size_eq]; exact hlt)]
    rfl

/-- The rest of a row is claimed as it should be. -/
theorem foldlM_claimPixel {count : Nat} (h : c.Bounded g) (hx : x + count ≤ g.width) (hy : y < g.height) :
    (List.range' x count).foldlM (claimPixel g (y * g.width) y) c = .ok (Claim.row g y count x c) ∧
      (Claim.row g y count x c).Bounded g := by
  induction count generalizing x c with
  | zero => exact ⟨rfl, h⟩
  | succ count ih =>
    rw [List.range'_succ, List.foldlM_cons, claimPixel_eq hg h (by omega) hy, ok_bind, Claim.row]
    exact ih (h.pixel (by omega) hy) (by omega)

theorem claimRow_eq {toX : Nat} (h : c.Bounded g) (hx : toX ≤ g.width) (hxto : x ≤ toX) (hy : y < g.height) :
    claimRow g x toX c y = .ok (Claim.row g y (toX - x) x c) ∧ (Claim.row g y (toX - x) x c).Bounded g := by
  have hbase : y * g.width < 2 ^ 64 := by
    rcases Nat.eq_zero_or_pos g.width with h0 | hpos
    · rw [h0, Nat.mul_zero]
      norm_num
    · have := Gray.index_lt hpos hy
      omega
  rw [claimRow, size_eq hbase, ok_bind]
  exact foldlM_claimPixel hg h (by omega) hy

/-- The rest of a square is claimed as it should be. -/
theorem foldlM_claimRow {toX rows : Nat} (h : c.Bounded g) (hx : toX ≤ g.width) (hxto : x ≤ toX)
    (hy : y + rows ≤ g.height) :
    (List.range' y rows).foldlM (claimRow g x toX) c = .ok (Claim.square g x (toX - x) rows y c) ∧
      (Claim.square g x (toX - x) rows y c).Bounded g := by
  induction rows generalizing y c with
  | zero => exact ⟨rfl, h⟩
  | succ rows ih =>
    obtain ⟨hrow, hbounded⟩ := claimRow_eq hg h hx hxto (show y < g.height by omega)
    rw [List.range'_succ, List.foldlM_cons, hrow, ok_bind, Claim.square]
    exact ih hbounded (by omega)

omit hg

/-- The sides of an extent in a picture are words of 32 bits. -/
theorem toBox_eq (hw : g.width < 2 ^ 32) (hh : g.height < 2 ^ 32) (h : c.Bounded g) :
    toBox c.extent = .ok c.extent.toBox := by
  obtain ⟨-, hminX, hminY, hmaxX, hmaxY⟩ := h
  rw [toBox, minus_eq hminX, ok_bind, word32_eq (by omega), ok_bind, minus_eq hminY, ok_bind, word32_eq (by omega),
    ok_bind]
  rfl

/-- Squares end at the border, so it does not matter where a sum is cut off. -/
theorem min_saturatingAdd {m n limit : Nat} (h : limit < 2 ^ 32) :
    min (saturatingAdd m n) limit = min (m + n) limit := by
  rw [saturatingAdd]
  omega

/-- A seed is tried as it should be. -/
theorem seed_eq {window : Nat} {t : Tracing} (hw : g.width < 2 ^ 32) (hh : g.height < 2 ^ 32)
    (ht : t.claimed.size = g.pixels.size) (hx : x < g.width) (hy : y < g.height) :
    seed g window y t x = .ok (t.seed g window x y) ∧ (t.seed g window x y).claimed.size = g.pixels.size := by
  obtain ⟨claimed, boxes⟩ := t
  have hg := mul_lt_of_words hw hh
  have hlt := Gray.index_lt hx hy
  rw [seed, size_eq (by omega), ok_bind, size_eq (by omega), ok_bind, isTaken_eq ht hx hy, ok_bind, Tracing.seed]
  split
  · exact ⟨rfl, ht⟩
  · have hsquare := foldlM_claimRow hg (Claim.bounded_point ht hx hy) (Nat.min_le_right (x + window) g.width)
      (show x ≤ min (x + window) g.width by omega)
      (show y + (min (y + window) g.height - y) ≤ g.height by omega)
    simp only [claimSquare, min_saturatingAdd hw, min_saturatingAdd hh, hsquare.1, ok_bind, toBox_eq hw hh hsquare.2]
    exact ⟨rfl, hsquare.2.size⟩

/-- The boxes are traced as they should be. -/
theorem traceBoxes_eq (hw : g.width < 2 ^ 32) (hh : g.height < 2 ^ 32) (stride window : Nat) :
    traceBoxes g stride window = .ok (WindowSurvey.traceBoxes g stride window) := by
  have hstride : 0 < max stride 1 := Nat.le_max_right _ _
  have hrow (t : Tracing) (y : Nat) (hy : y ∈ gridLine (max stride 1) g.height)
      (ht : t.claimed.size = g.pixels.size) :=
    foldlM_eq_foldl (f := seed g window y) (fun t x => t.seed g window x y)
      (fun t => t.claimed.size = g.pixels.size) (gridLine (max stride 1) g.width)
      (fun t x hx ht => seed_eq hw hh ht ((Tracing.mem_gridLine hstride).1 hx).2
        ((Tracing.mem_gridLine hstride).1 hy).2) ht
  have hall := foldlM_eq_foldl _ _ (gridLine (max stride 1) g.height) hrow
    (show (Tracing.start g).claimed.size = g.pixels.size by simp [Tracing.start])
  rw [traceBoxes, hall.1]
  rfl

end Checked

end WindowSurvey
