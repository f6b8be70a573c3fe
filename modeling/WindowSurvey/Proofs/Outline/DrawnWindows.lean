import WindowSurvey.Proofs.Outline.Boxes
import WindowSurvey.Proofs.Picture.Gradient
import WindowSurvey.Proofs.Picture.Screens
/-!
# Tracing drawn windows

The edge pixels of a flat window lie on its outline, which is one pixel wider than the window on every side.
When windows stand on the grid and neither touch nor lie in each other's squares, the corner of each window is
the corner of one box, and that box spans the window with its right and lower outline.

## Main definitions

* `DrawnWindow.Outlines` — the rectangle of a window with its outline
* `DrawnWindow.Traceable`, `DrawnWindow.Apart` — windows that tracing finds, and that do not disturb each
  other
* `DrawnWindow.box` — the box in which a window is found
* `Gray.Depicts` — the brightness of a screen
-/

namespace WindowSurvey

open Tracing (InSquare Before)

namespace DrawnWindow

/-- The pixels of the window and of the line around it. -/
def Outlines (w : DrawnWindow) (x y : Nat) : Prop :=
  (w.x ≤ x + 1 ∧ x ≤ w.x + w.width) ∧ w.y ≤ y + 1 ∧ y ≤ w.y + w.height

/-- The upper left pixel. -/
def corner (w : DrawnWindow) : Nat × Nat := (w.x, w.y)

/-- The box in which the window is found: the outline on the left and above is not part of it. -/
def box (w : DrawnWindow) : PixelBox := ⟨w.x, w.y, w.width + 1, w.height + 1⟩

/-- The window stands on the grid inside the screen, fits into the square that is searched, and stands out
against the background. -/
structure Traceable (s : Screen) (settings : DetectionSettings) (w : DrawnWindow) : Prop where
  x_pos : 0 < w.x
  y_pos : 0 < w.y
  dvd_x : settings.gridStride ∣ w.x
  dvd_y : settings.gridStride ∣ w.y
  three_le_width : 3 ≤ w.width
  three_le_height : 3 ≤ w.height
  width_lt : w.width < settings.traceWindow
  height_lt : w.height < settings.traceWindow
  right_le : w.x + w.width + 2 ≤ s.width
  bottom_le : w.y + w.height + 2 ≤ s.height
  contrast : settings.edgeThreshold.toNat <
    4 * ((w.colour.luma.toNat : Int) - s.background.luma.toNat).natAbs

/-- The outlines of two windows have no pixel in common, and neither reaches into the square that is searched
from the other's corner. -/
structure Apart (window : Nat) (a b : DrawnWindow) : Prop where
  outlines : ∀ x y, a.Outlines x y → ¬ b.Outlines x y
  left_square : ∀ x y, a.Outlines x y → ¬ InSquare window b.corner x y
  right_square : ∀ x y, b.Outlines x y → ¬ InSquare window a.corner x y

variable {w a b : DrawnWindow} {window x y : Nat}

theorem Apart.symm (h : Apart window a b) : Apart window b a where
  outlines x y hb ha := h.outlines x y ha hb
  left_square := h.right_square
  right_square := h.left_square

instance (window : Nat) : Std.Symm (Apart window) := ⟨fun _ _ h => h.symm⟩

theorem covers_iff : w.covers x y = true ↔
    (w.x ≤ x ∧ w.y ≤ y) ∧ x < w.x + w.width ∧ y < w.y + w.height := by
  simp [covers, and_assoc]

end DrawnWindow

/-! ## Screens with separate windows -/

/-- All windows are found by tracing, and none disturbs another. -/
structure Screen.Separate (s : Screen) (settings : DetectionSettings) : Prop where
  traceable : ∀ w ∈ s.windows, w.Traceable s settings
  apart : s.windows.Pairwise (DrawnWindow.Apart settings.traceWindow)

/-- The picture is the brightness of the screen. -/
structure Gray.Depicts (g : Gray) (s : Screen) : Prop where
  width_eq : g.width = s.width
  height_eq : g.height = s.height
  pixel_eq : ∀ {x y}, x < s.width → y < s.height → g.pixel x y = (s.colourAt x y).luma

namespace Screen

variable {s : Screen} {settings : DetectionSettings} {g : Gray} {w : DrawnWindow} {x y u v : Nat}

/-- The brightness of the background. -/
def ground (s : Screen) : Int := s.background.luma.toNat

/-- How much brighter a window is than the background. -/
def contrast (s : Screen) (w : DrawnWindow) : Int := (w.colour.luma.toNat : Int) - s.background.luma.toNat

theorem Separate.apart_of_ne (h : s.Separate settings) {a b : DrawnWindow} (ha : a ∈ s.windows)
    (hb : b ∈ s.windows) (hab : a ≠ b) : DrawnWindow.Apart settings.traceWindow a b :=
  h.apart.forall ha hb hab

theorem colourAt_of_forall (h : ∀ w ∈ s.windows, ¬ w.covers x y = true) :
    s.colourAt x y = s.background := by
  rw [colourAt, seen, List.find?_eq_none.2 fun w hw => h w (List.mem_reverse.1 hw)]

theorem colourAt_of_unique (hw : w ∈ s.windows) (hc : w.covers x y = true)
    (honly : ∀ w' ∈ s.windows, w'.covers x y = true → w' = w) : s.colourAt x y = w.colour := by
  have hsome : (s.windows.reverse.find? fun w => w.covers x y).isSome := by
    rw [List.find?_isSome]
    exact ⟨w, List.mem_reverse.2 hw, hc⟩
  obtain ⟨w', hw'⟩ := Option.isSome_iff_exists.1 hsome
  have hmem := List.mem_reverse.1 (List.mem_of_find?_eq_some hw')
  have hcovers : w'.covers x y = true := by simpa using List.find?_some hw'
  rw [colourAt, seen, hw', honly w' hmem hcovers]

/-- Around a pixel that no window outlines only the background is seen. -/
theorem level_of_forall (hg : g.Depicts s) (hp : ∀ w ∈ s.windows, ¬ w.Outlines x y)
    (hu : u ≤ x + 1 ∧ x ≤ u + 1) (hv : v ≤ y + 1 ∧ y ≤ v + 1) (huv : u < s.width ∧ v < s.height) :
    g.level u v = s.ground := by
  have hnone : ∀ w ∈ s.windows, ¬ w.covers u v = true := fun w hw hc => hp w hw (by
    rw [DrawnWindow.covers_iff] at hc
    simp only [DrawnWindow.Outlines]
    omega)
  rw [Gray.level, hg.pixel_eq huv.1 huv.2, colourAt_of_forall hnone, ground]

/-- One where the window is and zero elsewhere. -/
def shade (w : DrawnWindow) (x y : Nat) : Int := if w.covers x y then 1 else 0

theorem shade_inside (h : (w.x ≤ x ∧ w.y ≤ y) ∧ x < w.x + w.width ∧ y < w.y + w.height) :
    shade w x y = 1 := if_pos (DrawnWindow.covers_iff.2 h)

theorem shade_outside (h : ¬ ((w.x ≤ x ∧ w.y ≤ y) ∧ x < w.x + w.width ∧ y < w.y + w.height)) :
    shade w x y = 0 := if_neg fun hc => h (DrawnWindow.covers_iff.1 hc)

/-- Around a pixel of an outline nothing is seen but its window and the background. -/
theorem level_of_outlines (hg : g.Depicts s) (hs : s.Separate settings) (hw : w ∈ s.windows)
    (hp : w.Outlines x y) (hu : u ≤ x + 1 ∧ x ≤ u + 1) (hv : v ≤ y + 1 ∧ y ≤ v + 1)
    (huv : u < s.width ∧ v < s.height) : g.level u v = s.ground + s.contrast w * shade w u v := by
  have hown : ∀ w' ∈ s.windows, w'.covers u v = true → w' = w := fun w' hw' hc => by
    by_contra hne
    refine (hs.apart_of_ne hw' hw hne).outlines x y ?_ hp
    rw [DrawnWindow.covers_iff] at hc
    simp only [DrawnWindow.Outlines]
    omega
  rw [Gray.level, hg.pixel_eq huv.1 huv.2]
  by_cases hc : w.covers u v = true
  · rw [colourAt_of_unique hw hc hown, shade, if_pos hc, ground, contrast]
    omega
  · have hnone : ∀ w' ∈ s.windows, ¬ w'.covers u v = true := fun w' hw' hc' =>
      hc (hown w' hw' hc' ▸ hc')
    rw [colourAt_of_forall hnone, shade, if_neg hc, ground]
    omega

/-- Far from all outlines the picture is flat. -/
theorem gradientSquare_of_forall (hg : g.Depicts s) (hp : ∀ w ∈ s.windows, ¬ w.Outlines x y)
    (hin : g.isInterior x y = true) : g.gradientSquare x y = 0 := by
  simp only [Gray.isInterior, Bool.and_eq_true, decide_eq_true_eq, hg.width_eq, hg.height_eq] at hin
  have hlevel (u v : Nat) (hu : u ≤ x + 1 ∧ x ≤ u + 1) (hv : v ≤ y + 1 ∧ y ≤ v + 1) :
      g.level u v = s.ground := level_of_forall hg hp hu hv (by omega)
  simp (disch := omega) only [Gray.gradientSquare, Gray.gradientX, Gray.gradientY, hlevel]
  ring

/-- The change across a pixel, when a window counts as one and all else as nothing. -/
def slopeX (w : DrawnWindow) (x y : Nat) : Int :=
  (shade w (x + 1) (y - 1) + 2 * shade w (x + 1) y + shade w (x + 1) (y + 1))
    - (shade w (x - 1) (y - 1) + 2 * shade w (x - 1) y + shade w (x - 1) (y + 1))

/-- The change down a pixel, when a window counts as one and all else as nothing. -/
def slopeY (w : DrawnWindow) (x y : Nat) : Int :=
  (shade w (x - 1) (y + 1) + 2 * shade w x (y + 1) + shade w (x + 1) (y + 1))
    - (shade w (x - 1) (y - 1) + 2 * shade w x (y - 1) + shade w (x + 1) (y - 1))

/-- The change at a pixel of an outline comes from its window alone. -/
theorem gradientSquare_of_outlines (hg : g.Depicts s) (hs : s.Separate settings) (hw : w ∈ s.windows)
    (hp : w.Outlines x y) (hin : g.isInterior x y = true) :
    g.gradientSquare x y = s.contrast w * s.contrast w *
      (slopeX w x y * slopeX w x y + slopeY w x y * slopeY w x y) := by
  simp only [Gray.isInterior, Bool.and_eq_true, decide_eq_true_eq, hg.width_eq, hg.height_eq] at hin
  have hlevel (u v : Nat) (hu : u ≤ x + 1 ∧ x ≤ u + 1) (hv : v ≤ y + 1 ∧ y ≤ v + 1) :
      g.level u v = s.ground + s.contrast w * shade w u v :=
    level_of_outlines hg hs hw hp hu hv (by omega)
  have hx : g.gradientX x y = s.contrast w * slopeX w x y := by
    simp (disch := omega) only [Gray.gradientX, slopeX, hlevel]
    ring
  have hy : g.gradientY x y = s.contrast w * slopeY w x y := by
    simp (disch := omega) only [Gray.gradientY, slopeY, hlevel]
    ring
  rw [Gray.gradientSquare, hx, hy]
  ring

/-! ## The foreground of a screen -/

variable {d : Detector}

/-- Every edge pixel lies on an outline. -/
theorem outlines_of_isForeground (hg : g.Depicts s) (h : (d.foreground g).IsForeground x y) :
    ∃ w ∈ s.windows, w.Outlines x y := by
  obtain ⟨hin, -, hsquare⟩ := Gray.isForeground_binarize_iff.1 h
  by_contra hnone
  rw [gradientSquare_of_forall hg (fun w hw hp => hnone ⟨w, hw, hp⟩) hin] at hsquare
  have : 0 < (d.settings.edgeThreshold.toNat + 1) * (d.settings.edgeThreshold.toNat + 1) := by positivity
  omega

section

variable (hg : g.Depicts s) (hs : s.Separate d.settings) (ht : d.settings.edgeThreshold ≤ 254)
  (hw : w ∈ s.windows)

include hg hs ht hw

/-- A pixel of an outline is an edge when its window makes a change of four steps there. -/
theorem isForeground_of_outlines (hp : w.Outlines x y)
    (hin : (1 ≤ x ∧ x + 1 < s.width) ∧ 1 ≤ y ∧ y + 1 < s.height)
    (hslope : 16 ≤ slopeX w x y * slopeX w x y + slopeY w x y * slopeY w x y) :
    (d.foreground g).IsForeground x y := by
  have hin : g.isInterior x y = true := by
    simp only [Gray.isInterior, Bool.and_eq_true, decide_eq_true_eq, hg.width_eq, hg.height_eq]
    omega
  refine Gray.isForeground_binarize_iff.2 ⟨hin, ?_, ?_⟩
  · rw [UInt8.lt_iff_toNat_lt]
    rw [UInt8.le_iff_toNat_le] at ht
    exact Nat.lt_of_le_of_lt ht (by decide)
  · have hcontrast : d.settings.edgeThreshold.toNat + 1 ≤ 4 * (s.contrast w).natAbs :=
      (hs.traceable w hw).contrast
    have hmul := Nat.mul_le_mul hcontrast hcontrast
    rw [gradientSquare_of_outlines hg hs hw hp hin]
    calc (((d.settings.edgeThreshold.toNat + 1) * (d.settings.edgeThreshold.toNat + 1) : Nat) : Int)
        ≤ ((4 * (s.contrast w).natAbs * (4 * (s.contrast w).natAbs) : Nat) : Int) := by
          exact_mod_cast hmul
      _ = s.contrast w * s.contrast w * 16 := by
          push_cast
          rw [← abs_mul_abs_self (s.contrast w)]
          ring
      _ ≤ _ := mul_le_mul_of_nonneg_left hslope (mul_self_nonneg _)

/-- The upper left pixel of a window is an edge. -/
theorem isForeground_corner : (d.foreground g).IsForeground w.x w.y := by
  obtain ⟨hx, hy, -, -, hwidth, hheight, -, -, hright, hbottom, -⟩ := hs.traceable w hw
  have hslope : slopeX w w.x w.y = 3 ∧ slopeY w w.x w.y = 3 := by
    simp (disch := omega) only [slopeX, slopeY, shade_inside, shade_outside]
    decide
  refine isForeground_of_outlines hg hs ht hw ?_ (by omega) (by rw [hslope.1, hslope.2]; decide)
  simp only [DrawnWindow.Outlines]
  omega

/-- The outline on the right of a window is an edge beside the second row. -/
theorem isForeground_right : (d.foreground g).IsForeground (w.x + w.width) (w.y + 1) := by
  obtain ⟨hx, hy, -, -, hwidth, hheight, -, -, hright, hbottom, -⟩ := hs.traceable w hw
  have hslope : slopeX w (w.x + w.width) (w.y + 1) = -4 ∧ slopeY w (w.x + w.width) (w.y + 1) = 0 := by
    simp (disch := omega) only [slopeX, slopeY, shade_inside, shade_outside]
    decide
  refine isForeground_of_outlines hg hs ht hw ?_ (by omega) (by rw [hslope.1, hslope.2]; decide)
  simp only [DrawnWindow.Outlines]
  omega

/-- The outline below a window is an edge beneath the second column. -/
theorem isForeground_below : (d.foreground g).IsForeground (w.x + 1) (w.y + w.height) := by
  obtain ⟨hx, hy, -, -, hwidth, hheight, -, -, hright, hbottom, -⟩ := hs.traceable w hw
  have hslope : slopeX w (w.x + 1) (w.y + w.height) = 0 ∧
      slopeY w (w.x + 1) (w.y + w.height) = -4 := by
    simp (disch := omega) only [slopeX, slopeY, shade_inside, shade_outside]
    decide
  refine isForeground_of_outlines hg hs ht hw ?_ (by omega) (by rw [hslope.1, hslope.2]; decide)
  simp only [DrawnWindow.Outlines]
  omega

end

/-! ## The boxes of a screen -/

/-- The square searched from the corner of a window holds all grid pixels of the outline, since the outline on
the left and above is off the grid. -/
theorem inSquare_of_outlines (hstride : 2 ≤ settings.gridStride) (hw : w.Traceable s settings)
    (hp : w.Outlines x y) (hx : settings.gridStride ∣ x) (hy : settings.gridStride ∣ y) :
    InSquare settings.traceWindow w.corner x y := by
  have hstep {n m : Nat} (hn : settings.gridStride ∣ n) (hm : settings.gridStride ∣ m)
      (h : m ≤ n + 1) : m ≤ n := by
    refine Nat.le_of_not_lt fun hlt => ?_
    obtain rfl : m = n + 1 := by omega
    have := Nat.le_of_dvd Nat.one_pos ((Nat.dvd_add_right hn).1 hm)
    omega
  obtain ⟨⟨hx1, hx2⟩, hy1, hy2⟩ := hp
  have hleft := hstep hx hw.dvd_x hx1
  have htop := hstep hy hw.dvd_y hy1
  have hwidth := hw.width_lt
  have hheight := hw.height_lt
  simp only [InSquare, DrawnWindow.corner]
  omega

/-- The hull of a window's share spans the window with its right and lower outline. -/
theorem isHull_share (hg : g.Depicts s) (hs : s.Separate d.settings)
    (ht : d.settings.edgeThreshold ≤ 254) (hw : w ∈ s.windows) {before : List DrawnWindow}
    (hother : ∀ w' ∈ before, w' ∈ s.windows ∧ w' ≠ w) :
    Extent.IsHull ⟨w.x, w.y, w.x + w.width, w.y + w.height⟩ fun x y =>
      (x = w.corner.1 ∧ y = w.corner.2) ∨ Tracing.Share (d.foreground g) d.settings.traceWindow
        (before.map DrawnWindow.corner) w.corner x y := by
  obtain ⟨-, -, -, -, hwidth, hheight, hwidth', hheight', -, -, -⟩ := hs.traceable w hw
  have hshare {x y : Nat} (hf : (d.foreground g).IsForeground x y) (hp : w.Outlines x y)
      (hsquare : InSquare d.settings.traceWindow w.corner x y) :
      Tracing.Share (d.foreground g) d.settings.traceWindow (before.map DrawnWindow.corner) w.corner
        x y := by
    refine ⟨hf, hsquare, ?_⟩
    rintro ⟨c, hc, hcsquare⟩
    obtain ⟨w', hw', rfl⟩ := List.mem_map.1 hc
    obtain ⟨hmem, hne⟩ := hother w' hw'
    exact (hs.apart_of_ne hw hmem hne.symm).left_square x y hp hcsquare
  exact {
    covers := fun {x y} hxy => by
      rcases hxy with ⟨rfl, rfl⟩ | ⟨hf, hsquare, -⟩
      · simp only [DrawnWindow.corner]
        omega
      · obtain ⟨w', hw', hout⟩ := outlines_of_isForeground hg hf
        obtain rfl : w' = w := by
          by_contra hne
          exact (hs.apart_of_ne hw' hw hne).left_square x y hout hsquare
        simp only [DrawnWindow.Outlines, InSquare, DrawnWindow.corner] at hout hsquare ⊢
        omega
    left := ⟨w.y, .inl ⟨rfl, rfl⟩⟩
    top := ⟨w.x, .inl ⟨rfl, rfl⟩⟩
    right := ⟨w.y + 1, .inr (hshare (isForeground_right hg hs ht hw)
      (by simp only [DrawnWindow.Outlines]; omega)
      (by simp only [InSquare, DrawnWindow.corner]; omega))⟩
    bottom := ⟨w.x + 1, .inr (hshare (isForeground_below hg hs ht hw)
      (by simp only [DrawnWindow.Outlines]; omega)
      (by simp only [InSquare, DrawnWindow.corner]; omega))⟩ }

section

variable (hg : g.Depicts s) (hs : s.Separate d.settings) (ht : d.settings.edgeThreshold ≤ 254)
  (hstride : 2 ≤ d.settings.gridStride) {ws : List DrawnWindow} (hws : ws.Perm s.windows)
  (hbefore : ws.Pairwise fun a b => Before a.corner b.corner)

include hg hs ht hstride hws hbefore

/-- The corners of the windows are the corners that tracing chooses. -/
theorem corners_eq :
    Tracing.corners (d.foreground g) d.settings.gridStride d.settings.traceWindow =
      ws.reverse.map DrawnWindow.corner := by
  have hmem {p : Nat × Nat} : decide (p ∈ ws.map DrawnWindow.corner) = true ↔
      ∃ w ∈ s.windows, w.corner = p := by
    simp [hws.mem_iff]
  have hgrid {x y : Nat} : (x, y) ∈ Tracing.grid (d.foreground g) d.settings.gridStride ↔
      (d.settings.gridStride ∣ x ∧ x < s.width) ∧ d.settings.gridStride ∣ y ∧ y < s.height := by
    rw [Tracing.mem_grid (by omega), ← hg.width_eq, ← hg.height_eq]
    rfl
  have hcorner {w : DrawnWindow} (hw : w ∈ s.windows) :
      w.corner ∈ Tracing.grid (d.foreground g) d.settings.gridStride := by
    have h := hs.traceable w hw
    have := h.right_le
    have := h.bottom_le
    exact hgrid.2 ⟨⟨h.dvd_x, by omega⟩, h.dvd_y, by omega⟩
  have hpairwise := Tracing.pairwise_grid (show 0 < d.settings.gridStride by omega) (d.foreground g)
  have hfilter : (Tracing.grid (d.foreground g) d.settings.gridStride).filter
      (fun p => decide (p ∈ ws.map DrawnWindow.corner)) = ws.map DrawnWindow.corner := by
    refine (hpairwise.filter _).eq_of_mem_iff (List.pairwise_map.2 hbefore) fun p => ?_
    rw [List.mem_filter, decide_eq_true_eq]
    refine ⟨And.right, fun hp => ⟨?_, hp⟩⟩
    obtain ⟨w, hw, rfl⟩ := List.mem_map.1 hp
    exact hcorner (hws.mem_iff.1 hw)
  rw [Tracing.corners, Tracing.foldl_addCorner_eq_filter hpairwise
    (fun p => decide (p ∈ ws.map DrawnWindow.corner)) ?_, hfilter, List.map_reverse]
  rintro ⟨x, y⟩ hp
  obtain ⟨⟨hx, -⟩, hy, -⟩ := hgrid.1 hp
  simp only [hmem]
  constructor
  · rintro ⟨w, hw, hwp⟩
    obtain ⟨rfl, rfl⟩ : w.x = x ∧ w.y = y := by simpa [DrawnWindow.corner] using hwp
    refine ⟨isForeground_corner hg hs ht hw, fun c _ hc hcw => ?_⟩
    obtain ⟨w', hw', rfl⟩ := hcw
    have hne : w ≠ w' := by
      rintro rfl
      exact hc.asymm hc
    refine (hs.apart_of_ne hw hw' hne).left_square w.x w.y ?_
    simp only [DrawnWindow.Outlines]
    omega
  · rintro ⟨hf, hfree⟩
    obtain ⟨w, hw, hout⟩ := outlines_of_isForeground hg hf
    refine ⟨w, hw, ?_⟩
    have hsquare := inSquare_of_outlines hstride (hs.traceable w hw) hout hx hy
    by_contra hne
    refine hfree w.corner (hcorner hw) ?_ ⟨w, hw, rfl⟩ hsquare
    simp only [InSquare, DrawnWindow.corner, Prod.mk.injEq, Before] at hsquare hne ⊢
    omega

/-- Tracing finds each window in its box, in the order of their corners. -/
theorem traced_eq : d.traced g = ws.map DrawnWindow.box := by
  have h := Tracing.boxed_traceBoxes (d.foreground g) d.settings.gridStride d.settings.traceWindow
  rw [show max d.settings.gridStride 1 = d.settings.gridStride by omega,
    corners_eq hg hs ht hstride hws hbefore] at h
  have hboxes : (traceBoxes (d.foreground g) d.settings.gridStride d.settings.traceWindow).reverse =
      ws.reverse.map DrawnWindow.box := h.eq_map fun w before hsuffix e he => by
    have hpairwise : (w :: before).Pairwise fun a b => Before b.corner a.corner :=
      (List.pairwise_reverse.2 hbefore).sublist hsuffix.sublist
    have hmem {w' : DrawnWindow} (h : w' ∈ w :: before) : w' ∈ s.windows :=
      hws.mem_iff.1 (List.mem_reverse.1 (hsuffix.subset h))
    have hother : ∀ w' ∈ before, w' ∈ s.windows ∧ w' ≠ w := fun w' hw' => by
      have hlt := (List.pairwise_cons.1 hpairwise).1 w' hw'
      refine ⟨hmem (List.mem_cons_of_mem _ hw'), ?_⟩
      rintro rfl
      exact hlt.asymm hlt
    obtain rfl := he.unique (isHull_share hg hs ht (hmem List.mem_cons_self) hother)
    simp [Extent.toBox, DrawnWindow.box]
  rw [Detector.traced, ← List.reverse_reverse (traceBoxes _ _ _), hboxes, List.map_reverse,
    List.reverse_reverse]

end

end Screen

end WindowSurvey
