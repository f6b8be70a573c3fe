import WindowSurvey.Proofs.Outline.DrawnWindows
/-!
# Detection on drawn screens

On a drawn screen whose windows stand on the grid, stand out against the background and keep apart from each
other, detection finds the windows and nothing else.

## Main statements

* `Screen.exists_inOrder` — the windows in the order in which they are read
* `Detector.finds_drawn_windows` — one region for each window whose box is accepted, in that order
-/

namespace WindowSurvey

open Tracing (Before)

namespace Screen

variable {s : Screen} {settings : DetectionSettings} {format : PixelFormat}

theorem depicts_render (hs : s.Shows format) : (s.render format).gray.Depicts s where
  width_eq := rfl
  height_eq := rfl
  pixel_eq := pixel_gray_render hs

/-- A screen without pixels has no valid frame. -/
theorem validate_render_of_empty (s : Screen) (format : PixelFormat) (h : s.width = 0 ∨ s.height = 0) :
    ∃ text, (s.render format).validate = .error (.invalidFrame text) := by
  have hempty : (s.render format).dimensions.isEmpty = true := by
    simpa [render, Dimensions.isEmpty] using h
  exact ⟨_, by rw [Frame.validate, if_pos hempty]⟩

/-- Windows that keep apart have one order in which their corners are read. -/
theorem exists_inOrder (hs : s.Separate settings) :
    ∃ ws : List DrawnWindow, ws.Perm s.windows ∧ ws.Pairwise fun a b => Before a.corner b.corner := by
  let le (a b : DrawnWindow) : Bool := a.y < b.y || (a.y == b.y && a.x ≤ b.x)
  have hle {a b : DrawnWindow} : le a b = true ↔ a.y < b.y ∨ a.y = b.y ∧ a.x ≤ b.x := by simp [le]
  have htrans (a b c : DrawnWindow) (hab : le a b = true) (hbc : le b c = true) : le a c = true := by
    rw [hle] at *
    omega
  have htotal (a b : DrawnWindow) : (le a b || le b a) = true := by
    rw [Bool.or_eq_true, hle, hle]
    omega
  have hperm := List.mergeSort_perm s.windows le
  refine ⟨_, hperm, ?_⟩
  have hapart := (hperm.pairwise_iff fun h => h.symm).2 hs.apart
  refine ((List.pairwise_mergeSort htrans htotal s.windows).and hapart).imp fun {a b} h => ?_
  -- windows with one corner would have a common pixel
  have hne : ¬ (a.x = b.x ∧ a.y = b.y) := fun he => by
    refine h.2.outlines a.x a.y ?_ ?_ <;> simp only [DrawnWindow.Outlines] <;> omega
  have hab := hle.1 h.1
  simp only [Before, DrawnWindow.corner]
  omega

end Screen

namespace Detector

/-- The regions of a drawn screen are those of its windows whose boxes are accepted. -/
theorem detect?_render {d : Detector} {s : Screen} {format : PixelFormat} (cycle : Nat)
    (hw : 0 < s.width) (hh : 0 < s.height) (hsize : s.dimensions.Addressable)
    (hformat : s.Shows format) (hstride : 2 ≤ d.settings.gridStride)
    (hthreshold : d.settings.edgeThreshold ≤ 254) (hs : s.Separate d.settings)
    {ws : List DrawnWindow} (hws : ws.Perm s.windows)
    (hbefore : ws.Pairwise fun a b => Before a.corner b.corner) :
    ∃ rs, d.detect? (s.render format) cycle = .ok rs ∧ rs.map Region.record =
      (ws.filter fun w => d.accepts s.dimensions w.box).map fun w =>
        d.record s.dimensions cycle w.box := by
  obtain ⟨rs, hrs, hrecords⟩ := d.detect?_of_valid cycle (Screen.validate_render hw hh) hsize
  refine ⟨rs, hrs, hrecords.trans ?_⟩
  show ((d.traced (s.render format).gray).filter (d.accepts s.dimensions)).map
    (d.record s.dimensions cycle) = _
  rw [Screen.traced_eq (Screen.depicts_render hformat) hs hthreshold hstride hws hbefore,
    List.filter_map, List.map_map]
  rfl

/-- On a screen with pixels detection finds the windows whose boxes are accepted, each in its box, in the order
in which their corners are read, and nothing else. The frame of a screen without pixels is refused. -/
theorem finds_drawn_windows (d : Detector) (s : Screen) (format : PixelFormat) (cycle : Nat)
    (hsize : s.dimensions.Addressable) (hformat : s.Shows format)
    (hstride : 2 ≤ d.settings.gridStride) (hthreshold : d.settings.edgeThreshold ≤ 254)
    (hs : s.Separate d.settings) :
    if 0 < s.width ∧ 0 < s.height then
      ∃ (ws : List DrawnWindow) (rs : List Region),
        ws.Perm s.windows ∧ ws.Pairwise (fun a b => Before a.corner b.corner) ∧
        d.detect? (s.render format) cycle = .ok rs ∧
        rs.map Region.record =
          (ws.filter fun w => d.accepts s.dimensions w.box).map fun w =>
            d.record s.dimensions cycle w.box
    else ∃ text, d.detect? (s.render format) cycle = .error (.invalidFrame text) := by
  split_ifs with h
  · obtain ⟨ws, hws, hbefore⟩ := s.exists_inOrder hs
    obtain ⟨rs, hrs, hrecords⟩ :=
      detect?_render cycle h.1 h.2 hsize hformat hstride hthreshold hs hws hbefore
    exact ⟨ws, rs, hws, hbefore, hrs, hrecords⟩
  · obtain ⟨text, hvalid⟩ := s.validate_render_of_empty format (by omega)
    exact ⟨text, d.detect?_of_invalid cycle hvalid⟩

/-! ### A screen without pixels -/

namespace Drawn

def nothing : Screen := ⟨0, 0, .gray 16, []⟩

end Drawn

/-- A screen without pixels meets all conditions, but its frame has no list of regions, not even the empty
one. -/
theorem refuses_screen_without_pixels :
    Drawn.nothing.dimensions.Addressable ∧ Drawn.nothing.Shows .rgba8 ∧
    2 ≤ ({} : Detector).settings.gridStride ∧ ({} : Detector).settings.edgeThreshold ≤ 254 ∧
    Drawn.nothing.Separate ({} : Detector).settings ∧
    ∀ rs, ({} : Detector).detect? (Drawn.nothing.render .rgba8) 0 ≠ .ok rs := by
  have hseparate : Drawn.nothing.Separate ({} : Detector).settings :=
    ⟨fun w hw => absurd hw List.not_mem_nil, .nil⟩
  have hshows : Drawn.nothing.Shows .rgba8 := nofun
  refine ⟨⟨by decide, by decide⟩, hshows, by decide, by decide, hseparate, fun rs h => ?_⟩
  obtain ⟨text, hvalid⟩ := Drawn.nothing.validate_render_of_empty .rgba8 (.inl rfl)
  rw [detect?_of_invalid _ 0 hvalid] at h
  cases h

/-! ### Three windows -/

namespace Drawn

def broad : DrawnWindow := ⟨50, 50, 150, 130, ⟨200, 40, 40, 255⟩⟩

def slim : DrawnWindow := ⟨255, 60, 70, 90, .gray 235⟩

def speck : DrawnWindow := ⟨50, 255, 20, 20, .gray 90⟩

def screen : Screen := ⟨400, 300, .gray 16, [slim, speck, broad]⟩

theorem separate : screen.Separate ({} : DetectionSettings) where
  traceable w hw := by
    simp only [screen, List.mem_cons, List.not_mem_nil, or_false] at hw
    rcases hw with rfl | rfl | rfl <;> constructor <;> decide
  apart := by
    simp only [screen, List.pairwise_cons, List.mem_cons, List.not_mem_nil, or_false, forall_eq_or_imp,
      forall_eq, IsEmpty.forall_iff, implies_true, List.Pairwise.nil, and_true]
    refine ⟨⟨?_, ?_⟩, ?_⟩ <;> constructor <;> intro x y h <;>
      simp only [DrawnWindow.Outlines, Tracing.InSquare, DrawnWindow.corner, slim, speck, broad] at h ⊢ <;>
      omega

end Drawn

/-- Two of three windows are found, in the order of their corners; the box of the third one is too small. -/
theorem finds_two_of_three_windows :
    ∃ rs, ({} : Detector).detect? (Drawn.screen.render .bgra8) 3 = .ok rs ∧
      rs.map Region.record = [((⟨50, 50, 151, 131⟩ : PixelBox).rect, 3, .large),
        ((⟨255, 60, 71, 91⟩ : PixelBox).rect, 3, .medium)] := by
  have h := finds_drawn_windows {} Drawn.screen .bgra8 3 ⟨by decide, by decide⟩ (fun h => by cases h)
    (by decide) (by decide) Drawn.separate
  rw [if_pos (by decide)] at h
  obtain ⟨ws, rs, hws, hbefore, hrs, hrecords⟩ := h
  have horder : ws = [Drawn.broad, Drawn.slim, Drawn.speck] := by
    refine List.Perm.eq_of_pairwise (fun a b _ _ hab hba => absurd hba hab.asymm) hbefore ?_
      (hws.trans (by decide))
    simp [Before, DrawnWindow.corner, Drawn.broad, Drawn.slim, Drawn.speck]
  have hbroad : ({} : Detector).accepts Drawn.screen.dimensions Drawn.broad.box = true := by
    decide +kernel
  have hslim : ({} : Detector).accepts Drawn.screen.dimensions Drawn.slim.box = true := by
    decide +kernel
  have hspeck : ({} : Detector).accepts Drawn.screen.dimensions Drawn.speck.box = false := by
    decide +kernel
  have hlarge : ({} : Detector).classify (Drawn.broad.box.area / Drawn.screen.dimensions.area) =
      .large := by decide +kernel
  have hmedium : ({} : Detector).classify (Drawn.slim.box.area / Drawn.screen.dimensions.area) =
      .medium := by decide +kernel
  refine ⟨rs, hrs, ?_⟩
  rw [hrecords, horder]
  simp only [List.filter, hbroad, hslim, hspeck, List.map, record, hlarge, hmedium]
  rfl

end Detector

end WindowSurvey
