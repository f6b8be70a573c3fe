import WindowSurvey.Detector
import WindowSurvey.Proofs.Region.Bounds
/-!
# Detection in valid frames

In a valid frame detection cannot fail: every traced box lies on the screen, so it has a rectangle and a
thumbnail, and each accepted box becomes a region. A frame that is not valid is refused.

## Main definitions

* `Frame.gray` — the brightness of a frame
* `Region.record`, `Detector.record` — what a report tells of a region, and of the region of a box
* `Detector.Renders` — a region is that of a box
-/

namespace WindowSurvey

/-! ## Valid frames -/

namespace Frame

variable {f : Frame}

/-- The brightness of a frame. -/
def gray (f : Frame) : Gray := .build f.width f.height fun x y => (f.colour (y * f.width + x)).luma

theorem luminance_of_valid (h : f.validate = .ok ()) : f.luminance = .ok f.gray := by
  rw [luminance, h]
  show Except.ok _ = Except.ok _
  simp only [gray, Gray.build, Nat.mul_comm _ f.width, Nat.div_add_mod]

theorem toRgba_of_valid (h : f.validate = .ok ()) :
    ∃ source, f.toRgba = .ok source ∧ source.width = f.width ∧ source.height = f.height := by
  rw [toRgba, h]
  exact ⟨_, rfl, rfl, rfl⟩

theorem luminance_of_invalid {failure : Failure} (h : f.validate = .error failure) :
    f.luminance = .error failure := by
  rw [luminance, h]
  rfl

end Frame

/-! ## Thumbnails -/

namespace Thumbnail

/-- A box whose part in a picture has pixels has a thumbnail. -/
theorem render_of_clampTo {source : Rgba} {b part : PixelBox} (library : ImageLibrary)
    (hpart : b.clampTo source.width source.height = .ok part) (hw : 0 < part.width) (hh : 0 < part.height)
    (limit : ThumbnailSettings) : ∃ bytes, render source b limit library = .ok bytes ∧
      library.encode? (library.scale source part limit) = .ok bytes ∧ bytes.isEmpty = false := by
  obtain ⟨hsw, hsh⟩ := library.scale_pos source part limit hw hh
  obtain ⟨bytes, hbytes, hsome⟩ := library.encode_ok _ hsw hsh
  have hpicture : picture source b limit library = .ok (library.scale source part limit) := by
    rw [picture, hpart]
    rfl
  refine ⟨bytes, ?_, hbytes, hsome⟩
  rw [render, hpicture]
  simp only [bind, Except.bind, hbytes]
  rfl

/-- A box that lies in a picture has a thumbnail. -/
theorem render_of_liesIn {source : Rgba} {b : PixelBox} (library : ImageLibrary)
    (hb : b.LiesIn source.width source.height) (limit : ThumbnailSettings) :
    ∃ bytes, render source b limit library = .ok bytes ∧ bytes.isEmpty = false := by
  obtain ⟨hw0, hh0, hw, hh⟩ := hb
  have hclamp : b.clampTo source.width source.height = .ok b := by
    rw [PixelBox.clampTo, if_neg (by omega), Nat.min_eq_left (by omega), Nat.min_eq_left (by omega)]
  obtain ⟨bytes, hbytes, -, hsome⟩ := render_of_clampTo library hclamp hw0 hh0 limit
  exact ⟨bytes, hbytes, hsome⟩

end Thumbnail

/-! ## Regions of boxes -/

/-- What a report tells of a region: all but its thumbnail. -/
def Region.record (r : Region) : Rect × Nat × Category := (r.bounds, r.cycle, r.category)

namespace Detector

variable (d : Detector)

/-- What a report tells of the region of a box. -/
def record (screen : Dimensions) (cycle : Nat) (b : PixelBox) : Rect × Nat × Category :=
  (b.rect, cycle, d.classify (b.area / screen.area))

/-- A region tells of a box what a report tells, and shows what a picture has there. -/
structure Renders (screen : Dimensions) (source : Rgba) (cycle : Nat) (b : PixelBox) (r : Region) :
    Prop where
  record : r.record = d.record screen cycle b
  thumbnail : Thumbnail.render source b d.thumbnail d.library = .ok r.thumbnail
  nonempty : r.thumbnail.isEmpty = false

/-- A box on the screen becomes a region. -/
theorem region?_of_liesIn {screen : Dimensions} {source : Rgba} {b : PixelBox} (cycle : Nat)
    (hs : screen.Addressable) (hw : source.width = screen.width) (hh : source.height = screen.height)
    (hb : b.LiesIn screen.width screen.height) :
    ∃ r, d.region? screen source cycle b = .ok (some r) ∧ d.Renders screen source cycle b r := by
  obtain ⟨bytes, hrender, hbytes⟩ := Thumbnail.render_of_liesIn d.library (hw ▸ hh ▸ hb) d.thumbnail
  rw [region?, hrender]
  simp only [PixelBox.toRect?_eq hb hs, bind, Except.bind, Region.of?, hbytes]
  exact ⟨_, rfl, rfl, hrender, hbytes⟩

/-- Boxes on the screen become regions, one for each and in their order. -/
theorem mapM_region? {screen : Dimensions} {source : Rgba} (cycle : Nat) {bs : List PixelBox}
    (hs : screen.Addressable) (hw : source.width = screen.width) (hh : source.height = screen.height)
    (hbs : ∀ b ∈ bs, b.LiesIn screen.width screen.height) :
    ∃ rs : List Region, bs.mapM (d.region? screen source cycle) = .ok (rs.map some) ∧
      List.Forall₂ (d.Renders screen source cycle) bs rs := by
  induction bs with
  | nil => exact ⟨[], rfl, .nil⟩
  | cons b bs ih =>
    obtain ⟨r, hr, hrenders⟩ := d.region?_of_liesIn cycle hs hw hh (hbs b List.mem_cons_self)
    obtain ⟨rs, hrs, hall⟩ := ih fun b hb => hbs b (List.mem_cons_of_mem _ hb)
    refine ⟨r :: rs, ?_, .cons hrenders hall⟩
    rw [List.mapM_cons, hr, hrs]
    rfl

theorem map_record_of_renders {screen : Dimensions} {source : Rgba} {cycle : Nat} {bs : List PixelBox}
    {rs : List Region} (h : List.Forall₂ (d.Renders screen source cycle) bs rs) :
    rs.map Region.record = bs.map (d.record screen cycle) := by
  induction h with
  | nil => rfl
  | cons hr _ ih => rw [List.map_cons, List.map_cons, hr.record, ih]

theorem liesIn_of_mem_boxes {screen : Dimensions} {g : Gray} {b : PixelBox}
    (h : b ∈ d.boxes screen g) : b.LiesIn g.width g.height := by
  have htraced : b ∈ traceBoxes (d.foreground g) d.settings.gridStride d.settings.traceWindow :=
    (List.mem_filter.1 h).1
  have hin : b.LiesIn (d.foreground g).width (d.foreground g).height :=
    Tracing.liesIn_of_mem_traceBoxes htraced
  exact hin

variable {frame : Frame}

/-- In a valid frame every accepted box is found, and nothing else. -/
theorem detect?_renders (cycle : Nat) (hvalid : frame.validate = .ok ())
    (hs : frame.dimensions.Addressable) :
    ∃ source rs, frame.toRgba = .ok source ∧ d.detect? frame cycle = .ok rs ∧
      List.Forall₂ (d.Renders frame.dimensions source cycle) (d.boxes frame.dimensions frame.gray)
        rs := by
  obtain ⟨source, hsource, hw, hh⟩ := Frame.toRgba_of_valid hvalid
  have hboxes : ∀ b ∈ d.boxes frame.dimensions frame.gray,
      b.LiesIn frame.dimensions.width frame.dimensions.height := fun b => d.liesIn_of_mem_boxes
  obtain ⟨rs, hrs, hrenders⟩ := d.mapM_region? cycle hs hw hh hboxes
  refine ⟨source, rs, hsource, ?_, hrenders⟩
  rw [detect?, Frame.luminance_of_valid hvalid]
  simp only [bind, Except.bind, hsource]
  split
  next hnone =>
    rw [hnone] at hrenders
    cases hrenders
    rfl
  next =>
    simp only [hrs, pure, Except.pure, List.filterMap_map]
    simp

/-- What a report tells of the regions of a valid frame. -/
theorem detect?_of_valid (cycle : Nat) (hvalid : frame.validate = .ok ())
    (hs : frame.dimensions.Addressable) :
    ∃ rs, d.detect? frame cycle = .ok rs ∧
      rs.map Region.record =
        (d.boxes frame.dimensions frame.gray).map (d.record frame.dimensions cycle) := by
  obtain ⟨source, rs, -, hrs, hrenders⟩ := d.detect?_renders cycle hvalid hs
  exact ⟨rs, hrs, d.map_record_of_renders hrenders⟩

theorem detect?_of_invalid (cycle : Nat) {failure : Failure} (h : frame.validate = .error failure) :
    d.detect? frame cycle = .error failure := by
  rw [detect?, Frame.luminance_of_invalid h]
  rfl

/-- A frame shows the boxes that are accepted in it. A frame that is not valid shows none. -/
theorem mem_detect {cycle : Nat} (hs : frame.dimensions.Addressable) {r : Region}
    (h : r ∈ d.detect frame cycle) : ∃ b : PixelBox,
      b.LiesIn frame.width frame.height ∧ r.record = d.record frame.dimensions cycle b := by
  cases hvalid : frame.validate with
  | error failure =>
    rw [detect, detect?_of_invalid d cycle hvalid] at h
    cases h
  | ok _ =>
    obtain ⟨rs, hrs, hrecords⟩ := d.detect?_of_valid cycle hvalid hs
    rw [detect, hrs] at h
    have hr : r.record ∈ rs.map Region.record := List.mem_map_of_mem h
    rw [hrecords, List.mem_map] at hr
    obtain ⟨b, hb, hrecord⟩ := hr
    exact ⟨b, d.liesIn_of_mem_boxes hb, hrecord.symm⟩

end Detector

end WindowSurvey
