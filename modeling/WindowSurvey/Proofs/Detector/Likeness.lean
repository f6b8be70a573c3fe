import WindowSurvey.Proofs.Checked.Pictures
import WindowSurvey.Proofs.Detector.Acceptance
import WindowSurvey.Proofs.Picture.Symmetry
/-!
# Frames that look alike

A detector sees of a frame its strong edges only, and shows of it the colours in its thumbnails. Frames of one
size with the same strong edges have equal regions; frames that also have the same colours have the same
thumbnails. So neither the format of a frame nor its opacity matters, and of a gray frame it does not matter
whether it is light on dark or dark on light.

Formats agree on a machine as long as it can count the bytes of a frame and of its colours.

## Main definitions

* `Frame.HasPictures`, `Frame.IsRefused` — what the two conversions of a frame say, also on a machine
* `Frame.invert` — a frame with every byte taken from the greatest one

## Main statements

* `Detector.detect?_of_foreground` — frames with the same strong edges have equal regions
* `Detector.formats_agree` — a frame and its colour picture, and frames of equal brightness
* `Detector.gradient_symmetric` — pictures with other levels or turned over, and inverse frames
-/

namespace WindowSurvey

/-! ## Equal regions -/

/-- Regions of which a report tells the same are equal. -/
theorem Region.beq_of_record_eq {rs rs' : List Region}
    (hself : ∀ r ∈ rs, (r.bounds == r.bounds) = true)
    (h : rs'.map Region.record = rs.map Region.record) : (rs' == rs) = true := by
  induction rs generalizing rs' with
  | nil =>
    rw [List.map_nil, List.map_eq_nil_iff] at h
    rw [h]
    rfl
  | cons r rs ih =>
    obtain ⟨r', rs', rfl, hr, hrs⟩ := List.map_eq_cons_iff.1 h
    simp only [Region.record, Prod.mk.injEq] at hr
    have hbounds := hself r List.mem_cons_self
    have hrest := ih (fun r hr => hself r (List.mem_cons_of_mem _ hr)) hrs
    have hhead : (r' == r) = true := by
      show (r'.bounds == r.bounds && r'.cycle == r.cycle && r'.category == r.category) = true
      rw [hr.1, hr.2.1, hr.2.2, hbounds, beq_self_eq_true, beq_self_eq_true]
      rfl
    rw [List.cons_beq_cons, hhead, hrest]
    rfl

namespace Detector

variable {d : Detector} {frame other : Frame} {cycle : Nat}

/-- The bounds of a region that was found are equal to themselves. -/
theorem bounds_beq_self {r : Region} (hs : frame.dimensions.Addressable)
    (h : r ∈ d.detect frame cycle) : (r.bounds == r.bounds) = true := by
  obtain ⟨b, hb, hrecord⟩ := d.mem_detect hs h
  have hbounds : r.bounds = b.rect := congrArg Prod.fst hrecord
  rw [hbounds]
  exact PixelBox.rect_beq_self hb hs

/-- Detection looks at size, brightness and colours, and at nothing else of a frame. -/
theorem detect?_congr (hdim : other.dimensions = frame.dimensions)
    (hgray : other.luminance = frame.luminance) (hrgba : other.toRgba = frame.toRgba) (cycle : Nat) :
    d.detect? other cycle = d.detect? frame cycle := by
  simp only [detect?, hdim, hgray, hrgba]

/-- There are as many regions as accepted boxes. -/
theorem length_of_detect? (hvalid : frame.validate = .ok ()) (hs : frame.dimensions.Addressable)
    {rs : List Region} (hrs : d.detect? frame cycle = .ok rs) :
    rs.length = (d.boxes frame.dimensions frame.gray).length := by
  obtain ⟨rs₀, hrs₀, hrecords⟩ := d.detect?_of_valid cycle hvalid hs
  rw [hrs, Except.ok.injEq] at hrs₀
  rw [hrs₀, ← List.length_map Region.record, hrecords, List.length_map]

/-- Frames of one size with the same strong edges have equal regions. -/
theorem detect?_of_foreground (hvalid : frame.validate = .ok ()) (hother : other.validate = .ok ())
    (hdim : other.dimensions = frame.dimensions) (hs : frame.dimensions.Addressable)
    (h : d.foreground other.gray = d.foreground frame.gray) {rs : List Region}
    (hrs : d.detect? frame cycle = .ok rs) :
    ∃ rs', d.detect? other cycle = .ok rs' ∧ (rs' == rs) = true := by
  have hboxes : d.boxes other.dimensions other.gray = d.boxes frame.dimensions frame.gray := by
    simp only [boxes, traced, h, hdim]
  obtain ⟨rs₀, hrs₀, hrecords⟩ := d.detect?_of_valid cycle hvalid hs
  obtain ⟨rs', hrs', hrecords'⟩ := d.detect?_of_valid cycle hother (hdim ▸ hs)
  rw [hrs, Except.ok.injEq] at hrs₀
  rw [← hrs₀] at hrecords
  have hself : ∀ r ∈ rs, (r.bounds == r.bounds) = true := fun r hr => by
    have hmem : r ∈ d.detect frame cycle := by
      rw [detect, hrs]
      exact hr
    exact bounds_beq_self hs hmem
  refine ⟨rs', hrs', Region.beq_of_record_eq hself ?_⟩
  rw [hrecords', hrecords, hboxes, hdim]

/-! ## Formats -/

end Detector

namespace Frame

variable {frame : Frame}

/-- The brightness and the colours of a frame. A machine finds them as well. -/
structure HasPictures (frame : Frame) (g : Gray) (p : Rgba) : Prop where
  luminance : frame.luminance = .ok g
  toRgba : frame.toRgba = .ok p
  found_luminance : Checked.luminance frame = .ok (.ok g)
  found_toRgba : Checked.toRgba frame = .ok (.ok p)

/-- Brightness and colours of a frame are refused for one reason. A machine refuses them for it as well. -/
structure IsRefused (frame : Frame) (failure : Failure) : Prop where
  luminance : frame.luminance = .error failure
  toRgba : frame.toRgba = .error failure
  found_luminance : Checked.luminance frame = .ok (.error failure)
  found_toRgba : Checked.toRgba frame = .ok (.error failure)

theorem hasPictures (hf : Checked.Sized frame) (hvalid : frame.validate = .ok ())
    (hcount : frame.width * frame.height * 4 < 2 ^ 64) : frame.HasPictures frame.gray frame.rgba where
  luminance := luminance_of_valid hvalid
  toRgba := toRgba_eq_of_valid hvalid
  found_luminance := by rw [Checked.luminance_eq hf, luminance_of_valid hvalid]
  found_toRgba := Checked.toRgba_eq hf hvalid hcount

theorem isRefused (hf : Checked.Sized frame) {failure : Failure} (hvalid : frame.validate = .error failure) :
    frame.IsRefused failure where
  luminance := luminance_of_invalid hvalid
  toRgba := toRgba_of_invalid hvalid
  found_luminance := by rw [Checked.luminance_eq hf, luminance_of_invalid hvalid]
  found_toRgba := Checked.toRgba_of_invalid hf hvalid

/-- The colour picture as a frame has the pictures of the frame. -/
theorem hasPictures_toFrame_rgba (hf : Checked.Sized frame) (hvalid : frame.validate = .ok ())
    (hcount : frame.width * frame.height * 4 < 2 ^ 64) :
    frame.rgba.toFrame.HasPictures frame.gray frame.rgba := by
  have h : frame.rgba.toFrame.HasPictures frame.rgba.toFrame.gray frame.rgba.toFrame.rgba :=
    hasPictures ⟨hf.width_lt, hf.height_lt, hcount⟩ (validate_toFrame_rgba hvalid) hcount
  rwa [gray_toFrame_rgba, rgba_toFrame_rgba] at h

end Frame

namespace Detector

variable {d : Detector} {frame : Frame} {cycle : Nat}

/-- Both pictures of a frame are read off one row of colours, and a frame that is not valid has neither, for one
reason. The colour picture, handed over as a frame of its own, has the same two pictures and the same regions, with
the same thumbnails. Any other frame of that size and of the same brightness has equal regions. The number of bytes of
the frame, and of its colours if it is valid, is a word of 64 bits: so a machine, too, finds the frame valid or not,
and finds both pictures. -/
theorem formats_agree (d : Detector) (frame : Frame) (cycle : Nat) (hf : Checked.Sized frame) :
    Checked.validate frame = .ok frame.validate ∧
    match frame.validate with
    | .error failure => frame.IsRefused failure
    | .ok () => frame.width * frame.height * 4 < 2 ^ 64 → ∃ g p rs, frame.HasPictures g p ∧
        g.pixels.toList = frame.colours.map Colour.luma ∧
        p.pixels.toList = frame.colours.flatMap Colour.bytes ∧
        p.toFrame.HasPictures g p ∧
        d.detect? frame cycle = .ok rs ∧ d.detect? p.toFrame cycle = .ok rs ∧
        ∀ other : Frame, other.dimensions = frame.dimensions → other.luminance = .ok g →
          ∃ rs', d.detect? other cycle = .ok rs' ∧ (rs' == rs) = true := by
  refine ⟨Checked.validate_eq hf, ?_⟩
  cases hvalid : frame.validate with
  | error failure => exact Frame.isRefused hf hvalid
  | ok _ =>
    intro hcount
    have hs : frame.dimensions.Addressable := ⟨hf.width_lt, hf.height_lt⟩
    have hpictures := Frame.hasPictures hf hvalid hcount
    have hpictures' := Frame.hasPictures_toFrame_rgba hf hvalid hcount
    obtain ⟨rs, hrs, -⟩ := d.detect?_of_valid cycle hvalid hs
    have hdim' : frame.rgba.toFrame.dimensions = frame.dimensions := rfl
    have hrs' : d.detect? frame.rgba.toFrame cycle = .ok rs :=
      (detect?_congr hdim' (hpictures'.luminance.trans hpictures.luminance.symm)
        (hpictures'.toRgba.trans hpictures.toRgba.symm) cycle).trans hrs
    refine ⟨frame.gray, frame.rgba, rs, hpictures, Frame.toList_pixels_gray hvalid,
      Frame.toList_pixels_rgba hvalid, hpictures', hrs, hrs', fun other hdim hsame => ?_⟩
    have hother : other.validate = .ok () := by
      cases h : other.validate with
      | error failure =>
        rw [Frame.luminance_of_invalid h] at hsame
        cases hsame
      | ok _ => rfl
    have hgray : other.gray = frame.gray := by
      rw [Frame.luminance_of_valid hother] at hsame
      exact Except.ok.inj hsame
    exact detect?_of_foreground hvalid hother hdim hs (by rw [hgray]) hrs

/-! ### A tinted bar -/

namespace Tinted

/-- A bar that is nearly see-through, on blue. -/
def screen : Screen := ⟨7, 8, ⟨20, 20, 200, 255⟩, [⟨3, 3, 1, 5, ⟨250, 240, 230, 90⟩⟩]⟩

def picture : Frame := screen.render .bgra8

/-- The brightness of the picture as a gray frame. -/
def plain : Frame :=
  ⟨(Gray.build 7 8 fun x y => if x = 3 ∧ 3 ≤ y then 242 else 41).pixels, ⟨7, 8⟩, .gray8⟩

theorem validate_picture : picture.validate = .ok () := Screen.validate_render (by decide) (by decide)

theorem validate_plain : plain.validate = .ok () := by decide +kernel

theorem gray_plain : plain.gray = picture.gray := Frame.gray_eq_of_luma rfl (by decide +kernel)

theorem boxes_plain : Bar.detector.boxes plain.dimensions plain.gray =
    [⟨2, 2, 3, 3⟩, ⟨2, 5, 3, 2⟩] := by decide +kernel

end Tinted

/-- The bar is found in two boxes with its colours and without them. -/
theorem detect?_tinted :
    ∃ p rs, Tinted.picture.toRgba = .ok p ∧ rs.length = 2 ∧
      Bar.detector.detect? Tinted.picture 3 = .ok rs ∧ Bar.detector.detect? p.toFrame 3 = .ok rs ∧
      ∃ rs', Bar.detector.detect? Tinted.plain 3 = .ok rs' ∧ (rs' == rs) = true := by
  have hf : Checked.Sized Tinted.picture := ⟨by decide, by decide, by decide⟩
  have hcount : Tinted.picture.width * Tinted.picture.height * 4 < 2 ^ 64 := by decide
  have hdim : Tinted.plain.dimensions = Tinted.picture.dimensions := rfl
  have hvalid := Tinted.validate_picture
  have hgray := Tinted.gray_plain
  have hboxes := Tinted.boxes_plain
  rw [hdim, hgray] at hboxes
  -- from here on nothing is computed, so the picture is kept closed
  generalize Tinted.picture = frame at hf hcount hdim hvalid hgray hboxes ⊢
  have h := (formats_agree Bar.detector frame 3 hf).2
  rw [hvalid] at h
  obtain ⟨g, p, rs, hpictures, -, -, -, hrs, hrs', hothers⟩ := h hcount
  have hsame : Tinted.plain.luminance = .ok g := by
    rw [Frame.luminance_of_valid Tinted.validate_plain, hgray, ← Frame.luminance_of_valid hvalid,
      hpictures.luminance]
  have hlength := length_of_detect? hvalid ⟨hf.width_lt, hf.height_lt⟩ hrs
  rw [hboxes] at hlength
  exact ⟨p, rs, hpictures.toRgba, hlength, hrs, hrs', hothers Tinted.plain hdim hsame⟩

end Detector

/-! ## Inverse frames -/

/-- The inverse of a frame: every byte is taken from the greatest one. -/
def Frame.invert (f : Frame) : Frame := ⟨f.pixels.map fun v => 255 - v, f.dimensions, f.format⟩

namespace Frame

variable {f : Frame}

theorem validate_invert (h : f.validate = .ok ()) : f.invert.validate = .ok () := by
  obtain ⟨hempty, hsize⟩ := validate_eq_ok_iff.1 h
  exact validate_eq_ok_iff.2 ⟨hempty, Array.size_map.trans hsize⟩

theorem luma_invert (hformat : f.format = .gray8) {i : Nat} (hi : i < f.pixels.size) :
    (f.invert.colour i).luma = 255 - (f.colour i).luma := by
  simp only [colour, invert, hformat, PixelFormat.colour, PixelFormat.bytesPerPixel, Nat.mul_one,
    Nat.add_zero, Colour.luma_gray]
  simp [hi]

/-- The brightness of an inverse gray frame is the inverse of its brightness. -/
theorem gray_invert (hformat : f.format = .gray8) (hvalid : f.validate = .ok ()) :
    f.invert.gray = f.gray.invert := by
  have hsize : f.pixels.size = f.width * f.height := by
    rw [(validate_eq_ok_iff.1 hvalid).2, expectedSize, hformat]
    exact Nat.mul_one _
  rw [gray, gray, Gray.invert, Gray.map_build]
  refine Gray.build_congr fun x hx y hy => luma_invert hformat ?_
  rw [hsize]
  exact Gray.index_lt hx hy

end Frame

namespace Detector

/-- The size of a gradient is the same in the inverse of a picture and in one that is brighter by a constant,
and it turns with the picture. So dark windows on a light screen are found like light ones on a dark screen: a
gray frame and its inverse have equal regions. -/
theorem gradient_symmetric :
    (∀ g : Gray,
      g.invert.gradientMagnitude = g.gradientMagnitude ∧
      (∀ c : Int, g.HasRoom c → (g.brighten c).gradientMagnitude = g.gradientMagnitude) ∧
      g.transpose.gradientMagnitude = g.gradientMagnitude.transpose ∧
      g.mirrorAcross.gradientMagnitude = g.gradientMagnitude.mirrorAcross ∧
      g.mirrorDown.gradientMagnitude = g.gradientMagnitude.mirrorDown) ∧
    ∀ (d : Detector) (frame : Frame) (cycle : Nat), frame.format = .gray8 →
      frame.validate = .ok () → frame.dimensions.Addressable →
      ∃ rs rs', d.detect? frame cycle = .ok rs ∧ d.detect? frame.invert cycle = .ok rs' ∧
        (rs' == rs) = true := by
  refine ⟨fun g => ⟨g.gradientMagnitude_invert, fun c => Gray.gradientMagnitude_brighten,
    g.gradientMagnitude_transpose, g.gradientMagnitude_mirrorAcross, g.gradientMagnitude_mirrorDown⟩,
    fun d frame cycle hformat hvalid hs => ?_⟩
  have hforeground : d.foreground frame.invert.gray = d.foreground frame.gray := by
    rw [Frame.gray_invert hformat hvalid, foreground, foreground, Gray.gradientMagnitude_invert]
  obtain ⟨rs, hrs, -⟩ := d.detect?_of_valid cycle hvalid hs
  obtain ⟨rs', hrs', heq⟩ :=
    detect?_of_foreground hvalid (Frame.validate_invert hvalid) rfl hs hforeground hrs
  exact ⟨rs, rs', hrs, hrs', heq⟩

/-- The bar is found in two boxes in the inverse as well. -/
theorem gradient_symmetric_tinted :
    (Tinted.plain.gray.brighten 10).gradientMagnitude = Tinted.plain.gray.gradientMagnitude ∧
      ∃ rs rs', rs.length = 2 ∧ Bar.detector.detect? Tinted.plain 3 = .ok rs ∧
        Bar.detector.detect? Tinted.plain.invert 3 = .ok rs' ∧ (rs' == rs) = true := by
  obtain ⟨hpictures, hframes⟩ := gradient_symmetric
  have hs : Tinted.plain.dimensions.Addressable := ⟨by decide, by decide⟩
  have hroom : Tinted.plain.gray.HasRoom 10 := by decide +kernel
  obtain ⟨rs, rs', hrs, hrs', heq⟩ := hframes Bar.detector Tinted.plain 3 rfl Tinted.validate_plain hs
  have hlength := length_of_detect? Tinted.validate_plain hs hrs
  rw [Tinted.boxes_plain] at hlength
  exact ⟨(hpictures _).2.1 10 hroom, rs, rs', hlength, hrs, hrs', heq⟩

end Detector

end WindowSurvey
