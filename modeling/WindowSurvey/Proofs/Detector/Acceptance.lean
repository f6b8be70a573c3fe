import WindowSurvey.Proofs.Detector.Frames
import WindowSurvey.Proofs.Outline.Claims
import WindowSurvey.Proofs.Region.Roster
/-!
# What detection answers

Detection refuses a frame exactly when the frame is not valid. In a valid frame it finds one region for each
accepted box, in the order in which the boxes are traced: nothing that may fail on the way can fail for a box
that was traced. The boxes begin at different pixels, so no two regions of a frame have one key.

## Main definitions

* `Detector.Finds` — what is known of the region of an accepted box

## Main statements

* `Detector.detect?_answers` — every frame is answered, a valid one with a region for each accepted box
-/

namespace WindowSurvey.Detector

variable {d : Detector} {frame : Frame} {cycle : Nat} {b : PixelBox} {r : Region} {rs : List Region}

/-- A region was found in a frame for a box that is accepted there. Its bounds are the box itself, which lies in
the frame, begins on the grid, and has sides within all limits. -/
structure Finds (d : Detector) (frame : Frame) (cycle : Nat) (b : PixelBox) (r : Region) : Prop where
  bounds : r.bounds = b.rect
  key : r.key = ⟨b.x, b.y, b.width, b.height⟩
  liesIn : b.LiesIn frame.width frame.height
  onGrid : max d.settings.gridStride 1 ∣ b.x ∧ max d.settings.gridStride 1 ∣ b.y
  above : d.settings.minRegionSize < b.width ∧ d.settings.minRegionSize < b.height
  below : Float.ofNat b.width < d.settings.maxScreenFraction * Float.ofNat frame.width ∧
    Float.ofNat b.height < d.settings.maxScreenFraction * Float.ofNat frame.height
  window : b.width ≤ max d.settings.traceWindow 1 ∧ b.height ≤ max d.settings.traceWindow 1
  category : r.category = d.classify (b.area / frame.dimensions.area)
  cycle : r.cycle = cycle
  thumbnail : ∃ source, frame.toRgba = .ok source ∧
    Thumbnail.render source b d.thumbnail d.library = .ok r.thumbnail
  nonempty : 0 < r.thumbnail.size

/-! ## Accepted boxes -/

theorem accepts_iff {screen : Dimensions} : d.accepts screen b = true ↔
    (d.settings.minRegionSize < b.width ∧ d.settings.minRegionSize < b.height) ∧
      Float.ofNat b.width < d.settings.maxScreenFraction * Float.ofNat screen.width ∧
      Float.ofNat b.height < d.settings.maxScreenFraction * Float.ofNat screen.height := by
  simp [accepts, PixelBox.fits, and_assoc]

/-- What is said of the region of an accepted box is so. -/
theorem finds_of_renders {source : Rgba} (hs : frame.dimensions.Addressable)
    (hsource : frame.toRgba = .ok source) (hb : b ∈ d.boxes frame.dimensions frame.gray)
    (hr : d.Renders frame.dimensions source cycle b r) : d.Finds frame cycle b r := by
  obtain ⟨htraced, haccepts⟩ := List.mem_filter.1 hb
  have hin : b.LiesIn frame.width frame.height := d.liesIn_of_mem_boxes hb
  obtain ⟨habove, hbelow⟩ := accepts_iff.1 haccepts
  have hrecord := hr.record
  simp only [Region.record, record, Prod.mk.injEq] at hrecord
  obtain ⟨hbounds, hcycle, hcategory⟩ := hrecord
  exact {
    bounds := hbounds
    key := by rw [Region.key, hbounds, PixelBox.key_rect hin hs]
    liesIn := hin
    onGrid := (Tracing.seeded_of_mem_traceBoxes htraced).2
    above := habove
    below := hbelow
    window := Tracing.le_window_of_mem_traceBoxes htraced
    category := hcategory
    cycle := hcycle
    thumbnail := ⟨source, hsource, hr.thumbnail⟩
    nonempty := by simpa [Array.size_pos_iff, Array.isEmpty_iff] using hr.nonempty }

/-- In a valid frame a region is found for every accepted box. -/
theorem detect?_finds (d : Detector) (cycle : Nat) (hvalid : frame.validate = .ok ())
    (hs : frame.dimensions.Addressable) :
    ∃ rs, d.detect? frame cycle = .ok rs ∧
      List.Forall₂ (d.Finds frame cycle) (d.boxes frame.dimensions frame.gray) rs := by
  obtain ⟨source, rs, hsource, hrs, hrenders⟩ := d.detect?_renders cycle hvalid hs
  refine ⟨rs, hrs, ((List.forall₂_and_left _ _).2 ⟨fun b hb => hb, hrenders⟩).imp fun b r h => ?_⟩
  exact finds_of_renders hs hsource h.1 h.2

/-! ## Keys -/

theorem map_key_of_finds {bs : List PixelBox} (h : List.Forall₂ (d.Finds frame cycle) bs rs) :
    rs.map Region.key = bs.map fun b => ⟨b.x, b.y, b.width, b.height⟩ := by
  induction h with
  | nil => rfl
  | cons hb _ ih => rw [List.map_cons, List.map_cons, hb.key, ih]

/-- Boxes that begin at different pixels have regions with different keys. -/
theorem pairwise_key_of_finds {bs : List PixelBox} (h : List.Forall₂ (d.Finds frame cycle) bs rs)
    (hbs : bs.Pairwise fun a b => a.corner ≠ b.corner) : rs.Pairwise fun a b => a.key ≠ b.key := by
  rw [← List.pairwise_map (R := (· ≠ ·)), map_key_of_finds h, List.pairwise_map]
  refine hbs.imp fun hne hkey => hne ?_
  rw [SightingKey.mk.injEq] at hkey
  exact Prod.ext (by exact_mod_cast hkey.1) (by exact_mod_cast hkey.2.1)

/-- Accepted boxes begin at different pixels. -/
theorem pairwise_boxes (d : Detector) (screen : Dimensions) (g : Gray) :
    (d.boxes screen g).Pairwise fun a b => a.corner ≠ b.corner := by
  refine (List.Pairwise.filter _ (Tracing.pairwise_traceBoxes _ _ _)).imp fun hbefore he => ?_
  rw [he] at hbefore
  exact hbefore.asymm hbefore

/-! ## All frames -/

/-- Every frame is answered. A frame that is not valid is refused with the failure that its check names. In a
valid frame there is a region for each accepted box and none besides, in the order in which the boxes are
traced; no two of them have one key, so an empty roster takes in all of them. -/
theorem detect?_answers (d : Detector) (frame : Frame) (cycle : Nat)
    (hs : frame.dimensions.Addressable) :
    match frame.validate with
    | .error failure => d.detect? frame cycle = .error failure ∧ d.detect frame cycle = []
    | .ok () => ∃ g rs, frame.luminance = .ok g ∧ d.detect? frame cycle = .ok rs ∧
        List.Forall₂ (d.Finds frame cycle) (d.boxes frame.dimensions g) rs ∧
        (rs.Pairwise fun a b => a.key ≠ b.key) ∧
        (Roster.empty.insertAll rs).1 = rs.length ∧ (Roster.empty.insertAll rs).2.regions = rs := by
  cases hvalid : frame.validate with
  | error failure =>
    have hrefused := d.detect?_of_invalid cycle hvalid
    exact ⟨hrefused, by rw [detect, hrefused]⟩
  | ok _ =>
    obtain ⟨rs, hrs, hfinds⟩ := d.detect?_finds cycle hvalid hs
    have hkeys := pairwise_key_of_finds hfinds (d.pairwise_boxes frame.dimensions frame.gray)
    obtain ⟨hcount, hregions⟩ := Roster.insertAll_empty_of_pairwise hkeys
    exact ⟨frame.gray, rs, Frame.luminance_of_valid hvalid, hrs, hfinds, hkeys, hcount, hregions⟩

/-! ### A bar in one frame -/

namespace Bar

/-- A bright bar on black, which reaches down to the border. -/
def shade (x y : Nat) : UInt8 := if x = 3 ∧ 3 ≤ y then 255 else 0

def picture : Frame := ⟨(Gray.build 7 8 shade).pixels, ⟨7, 8⟩, .gray8⟩

def detector : Detector where
  settings := { edgeThreshold := 200, gridStride := 0, traceWindow := 3, minRegionSize := 1 }

end Bar

/-- The square that is searched is shorter than the bar, so the bar is found in two boxes. -/
theorem detect?_bar :
    ∃ rs, Bar.detector.detect? Bar.picture 3 = .ok rs ∧
      List.Forall₂ (Bar.detector.Finds Bar.picture 3) [⟨2, 2, 3, 3⟩, ⟨2, 5, 3, 2⟩] rs ∧
      (Roster.empty.insertAll rs).1 = 2 := by
  have h := detect?_answers Bar.detector Bar.picture 3 ⟨by decide, by decide⟩
  have hvalid : Bar.picture.validate = .ok () := by rfl
  have hboxes : Bar.detector.boxes Bar.picture.dimensions Bar.picture.gray =
      [⟨2, 2, 3, 3⟩, ⟨2, 5, 3, 2⟩] := by decide +kernel
  rw [hvalid] at h
  obtain ⟨g, rs, hg, hrs, hfinds, -, hcount, -⟩ := h
  rw [Frame.luminance_of_valid hvalid] at hg
  cases hg
  rw [hboxes] at hfinds
  exact ⟨rs, hrs, hfinds, hcount.trans hfinds.length_eq.symm⟩

end WindowSurvey.Detector
