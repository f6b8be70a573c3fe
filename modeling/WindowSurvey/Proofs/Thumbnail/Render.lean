import WindowSurvey.Proofs.Detector.Frames
import WindowSurvey.Proofs.Outline.Boxes
import WindowSurvey.Proofs.Thumbnail.Fit
/-!
# What the thumbnail of a box shows

A box has a thumbnail unless its corner lies outside the picture. The part that is shown lies in the picture, and the
thumbnail fits the limits. Both hold with any image library that follows a rule for the sides of scaled pictures: the
rule in exact arithmetic, or the one in doubles, which is that of the library used here.

## Main definitions

* `PixelBox.within` — the part of a box that lies in a picture
* `ImageLibrary.Follows` — a library scales by a rule
* `ImageLibrary.Shows` — when a box has a thumbnail, and what it is like

## Main statements

* `Thumbnail.shows_box` — every box, every picture and all limits above zero
-/

namespace WindowSurvey

namespace PixelBox

variable {b : PixelBox} {width height : Nat}

/-- What lies in a picture of a box whose corner does. -/
def within (b : PixelBox) (width height : Nat) : PixelBox :=
  ⟨b.x, b.y, min b.width (width - b.x), min b.height (height - b.y)⟩

theorem clampTo_eq (hx : b.x < width) (hy : b.y < height) : b.clampTo width height = .ok (b.within width height) := by
  rw [clampTo, if_neg (by omega), within]

theorem within_liesIn (hw : 0 < b.width) (hh : 0 < b.height) (hx : b.x < width) (hy : b.y < height) :
    (b.within width height).LiesIn width height := by
  refine ⟨?_, ?_, ?_, ?_⟩ <;> simp only [within] <;> omega

end PixelBox

/-! ## Libraries that follow a rule -/

namespace ImageLibrary

/-- The library gives a scaled part the sides of a rule. Only a part that has the sides of the limits already may be
kept as it is. -/
def Follows (library : ImageLibrary) (fit : FitRule) : Prop :=
  ∀ (source : Rgba) (part : PixelBox) (limit : ThumbnailSettings), 0 < part.width → 0 < part.height →
    (part.width = limit.width ∧ part.height = limit.height ∧
      (library.scale source part limit).width = part.width ∧
      (library.scale source part limit).height = part.height) ∨
    ((library.scale source part limit).width = (fit part.width part.height limit).1 ∧
      (library.scale source part limit).height = (fit part.width part.height limit).2)

/-- A library that scales by a rule follows it. -/
theorem byRule_follows {fit : FitRule} (hfit : ∀ width height limit,
    0 < (fit width height limit).1 ∧ 0 < (fit width height limit).2) : (byRule fit hfit).Follows fit :=
  fun _ _ _ hw hh => Thumbnail.sides_scaleBy hw hh

/-- The library used here follows the rule in doubles. -/
theorem own_follows : own.Follows fitWithin := byRule_follows fitWithin_pos

/-- The bytes are the thumbnail of a part of a picture: the part has pixels, all of them in the picture, and fits when
it is scaled. -/
structure IsThumbnail (library : ImageLibrary) (slack : ℚ) (source : Rgba) (limit : ThumbnailSettings)
    (part : PixelBox) (bytes : Array UInt8) : Prop where
  liesIn : part.LiesIn source.width source.height
  encoded : library.encode? (library.scale source part limit) = .ok bytes
  fits : Fits slack part.width part.height limit (library.scale source part limit).width
    (library.scale source part limit).height

/-- A box has no thumbnail if and only if its corner lies outside the picture. Otherwise its thumbnail is that of
what lies in the picture. -/
structure Shows (library : ImageLibrary) (slack : ℚ) (source : Rgba) (box : PixelBox) (limit : ThumbnailSettings) :
    Prop where
  fails_iff : (∃ failure, Thumbnail.render source box limit library = .error failure) ↔
    source.width ≤ box.x ∨ source.height ≤ box.y
  renders : box.x < source.width → box.y < source.height → ∃ bytes,
    box.clampTo source.width source.height = .ok (box.within source.width source.height) ∧
    Thumbnail.render source box limit library = .ok bytes ∧
    library.IsThumbnail slack source limit (box.within source.width source.height) bytes

variable {library : ImageLibrary} {fit : FitRule} {slack : ℚ} {source : Rgba} {part box : PixelBox}
  {limit : ThumbnailSettings}

/-- Where a rule fits a part, so does a library that follows it. -/
theorem Follows.fits (h : library.Follows fit) (hslack : 0 ≤ slack) (hw : 0 < part.width) (hh : 0 < part.height)
    (hfits : Fits slack part.width part.height limit (fit part.width part.height limit).1
      (fit part.width part.height limit).2) :
    Fits slack part.width part.height limit (library.scale source part limit).width
      (library.scale source part limit).height := by
  rcases h source part limit hw hh with ⟨hlw, hlh, hsw, hsh⟩ | ⟨hsw, hsh⟩
  · rw [hsw, hsh]
    exact (fits_self hw hh hlw hlh).mono hslack
  · rw [hsw, hsh]
    exact hfits

/-- A library whose rule fits every part of a picture shows every box. -/
theorem Follows.shows (h : library.Follows fit) (hw : 0 < box.width) (hh : 0 < box.height) (hslack : 0 ≤ slack)
    (hfits : ∀ part : PixelBox, part.LiesIn source.width source.height →
      Fits slack part.width part.height limit (fit part.width part.height limit).1
        (fit part.width part.height limit).2) : library.Shows slack source box limit := by
  have hinside (hx : box.x < source.width) (hy : box.y < source.height) : ∃ bytes,
      Thumbnail.render source box limit library = .ok bytes ∧
        library.IsThumbnail slack source limit (box.within source.width source.height) bytes := by
    have hin := PixelBox.within_liesIn hw hh hx hy
    obtain ⟨bytes, hrender, hencoded, -⟩ :=
      Thumbnail.render_of_clampTo library (PixelBox.clampTo_eq hx hy) hin.width_pos hin.height_pos limit
    exact ⟨bytes, hrender, hin, hencoded, h.fits hslack hin.width_pos hin.height_pos (hfits _ hin)⟩
  refine ⟨⟨fun ⟨failure, hfailure⟩ => ?_, fun hout => ?_⟩, fun hx hy => ?_⟩
  · by_contra hin
    obtain ⟨bytes, hbytes, -⟩ := hinside (by omega) (by omega)
    rw [hbytes] at hfailure
    cases hfailure
  · rw [Thumbnail.render, Thumbnail.picture, PixelBox.clampTo, if_pos hout]
    exact ⟨_, rfl⟩
  · obtain ⟨bytes, hbytes⟩ := hinside hx hy
    exact ⟨bytes, PixelBox.clampTo_eq hx hy, hbytes⟩

end ImageLibrary

/-! ## All boxes -/

namespace Thumbnail

variable {source : Rgba} {box : PixelBox} {limit : ThumbnailSettings}

/-- The parts of pictures with sides of 32 bits fit in doubles, up to a share of the length. -/
theorem fits_part (hlw : 0 < limit.width) (hlh : 0 < limit.height)
    (hs : Dimensions.Addressable ⟨source.width, source.height⟩)
    (hl : Dimensions.Addressable ⟨limit.width, limit.height⟩) {part : PixelBox}
    (hin : part.LiesIn source.width source.height) :
    Fits (1 / 2 ^ 50) part.width part.height limit (fitWithin part.width part.height limit).1
      (fitWithin part.width part.height limit).2 := by
  have hsw : source.width < 2 ^ 32 := hs.width_lt
  have hsh : source.height < 2 ^ 32 := hs.height_lt
  have hright := hin.right_le
  have hbottom := hin.bottom_le
  exact fits_fitWithin hin.width_pos (by omega) hin.height_pos (by omega) hlw hl.width_lt hlh hl.height_lt

/-- A box has no thumbnail if and only if its corner lies outside the picture, and otherwise a thumbnail that fits.
With the rule in exact arithmetic this holds of all pictures and limits. With the rule in doubles, which the library
used here follows, it holds of sides with 32 bits, up to a share of the length, and without that share where the
products of sides and limits are not very great. -/
theorem shows_box (hw : 0 < box.width) (hh : 0 < box.height) (hlw : 0 < limit.width) (hlh : 0 < limit.height) :
    (∀ library : ImageLibrary, library.Follows fitExact → library.Shows 0 source box limit) ∧
    (∀ library : ImageLibrary, library.Follows fitWithin →
      Dimensions.Addressable ⟨source.width, source.height⟩ → Dimensions.Addressable ⟨limit.width, limit.height⟩ →
        library.Shows (1 / 2 ^ 50) source box limit ∧
        (limit.width * source.height < 2 ^ 49 → limit.height * source.width < 2 ^ 49 →
          library.Shows 0 source box limit)) ∧
    ImageLibrary.own.Follows fitWithin := by
  refine ⟨fun library hlibrary => hlibrary.shows hw hh le_rfl fun part hin =>
    fits_fitExact hin.width_pos hin.height_pos hlw hlh, fun library hlibrary hs hl => ?_, ImageLibrary.own_follows⟩
  refine ⟨hlibrary.shows hw hh (by norm_num) fun part hin => fits_part hlw hlh hs hl hin, fun hcross hcross' =>
    hlibrary.shows hw hh le_rfl fun part hin => ?_⟩
  have hsmall {l n m : Nat} (hnm : n ≤ m) (h : l * m < 2 ^ 49) : 2 * (1 / 2 ^ 50) * ((l * n : ℕ) : ℚ) < 1 := by
    have hln : ((l * n : ℕ) : ℚ) < 2 ^ 49 := by exact_mod_cast (Nat.mul_le_mul_left l hnm).trans_lt h
    linarith
  have hright := hin.right_le
  have hbottom := hin.bottom_le
  exact (fits_part hlw hlh hs hl hin).sharpen hin.width_pos hin.height_pos (hsmall (by omega) hcross)
    (hsmall (by omega) hcross')

/-- A box that reaches beyond the lower right corner of a small screen. -/
theorem shows_box_at_corner :
    (ImageLibrary.byRule fitExact fitExact_pos).Shows 0 (Rgba.blank 400 300) ⟨350, 250, 200, 200⟩ {} ∧
      ImageLibrary.own.Shows 0 (Rgba.blank 400 300) ⟨350, 250, 200, 200⟩ {} ∧
      ∃ bytes, render (Rgba.blank 400 300) ⟨350, 250, 200, 200⟩ {} .own = .ok bytes := by
  obtain ⟨hexact, hdoubles, hown⟩ := @shows_box (Rgba.blank 400 300) ⟨350, 250, 200, 200⟩ {} (by decide)
    (by decide) (by decide) (by decide)
  have hshows := (hdoubles .own hown ⟨by decide, by decide⟩ ⟨by decide, by decide⟩).2 (by decide) (by decide)
  obtain ⟨bytes, -, hbytes, -⟩ := hshows.renders (by decide) (by decide)
  exact ⟨hexact _ (ImageLibrary.byRule_follows fitExact_pos), hshows, bytes, hbytes⟩

end Thumbnail

end WindowSurvey
