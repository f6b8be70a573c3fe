import WindowSurvey.Outline.PixelBox
import WindowSurvey.Picture.Png.Writer
import WindowSurvey.Thumbnail.Fit
import WindowSurvey.Thumbnail.Resample
/-!
# Thumbnails

The part of a picture inside a box, scaled to fit the limits and encoded. Both are done by an image library, of
which no more is asked than that a part with pixels stays one when it is scaled, and that a picture with pixels
can be encoded.

## Main definitions

* `PixelBox.clampTo` — the part of a box that lies in a picture
* `Thumbnail.scaleBy` — a part of a picture with the sides that a rule gives
* `ImageLibrary`, `ImageLibrary.own` — how pictures are scaled and encoded, and the library used here
* `Thumbnail.picture`, `Thumbnail.render` — the scaled part of a picture in a box, and its encoded form
-/

namespace WindowSurvey

namespace PixelBox

/-- The part of the box that lies in a picture. The box must begin inside. -/
def clampTo (b : PixelBox) (width height : Nat) : Except Failure PixelBox :=
  if width ≤ b.x ∨ height ≤ b.y then
    .error (.image ("crop origin (" ++ toString b.x ++ ", " ++ toString b.y ++ ") outside "
      ++ toString width ++ "x" ++ toString height ++ " frame"))
  else .ok { b with width := min b.width (width - b.x), height := min b.height (height - b.y) }

end PixelBox

/-! ## Scaling by a rule -/

/-- A rule for the sides of a scaled picture. -/
abbrev FitRule := Nat → Nat → ThumbnailSettings → Nat × Nat

theorem fitWithin_pos (width height : Nat) (limit : ThumbnailSettings) :
    0 < (fitWithin width height limit).1 ∧ 0 < (fitWithin width height limit).2 :=
  ⟨Nat.lt_of_lt_of_le Nat.one_pos (Nat.le_max_right _ _),
    Nat.lt_of_lt_of_le Nat.one_pos (Nat.le_max_right _ _)⟩

namespace Thumbnail

/-- Scale a part of a picture to the sides that a rule gives. A part that has exactly the sides of the limits is
kept as it is, an empty part gives zero bytes. -/
def scaleBy (fit : FitRule) (source : Rgba) (part : PixelBox) (limit : ThumbnailSettings) : Rgba :=
  if part.width = limit.width ∧ part.height = limit.height then
    source.crop part.x part.y part.width part.height
  else
    let (width, height) := fit part.width part.height limit
    if width = part.width ∧ height = part.height then
      source.crop part.x part.y part.width part.height
    else if part.width = 0 ∨ part.height = 0 then Rgba.blank width height
    else source.resample part.x part.y part.width part.height width height

variable {fit : FitRule} {source : Rgba} {part : PixelBox} {limit : ThumbnailSettings}

/-- A scaled part has the sides that the rule gives, unless it had those of the limits before. -/
theorem sides_scaleBy (hw : 0 < part.width) (hh : 0 < part.height) :
    (part.width = limit.width ∧ part.height = limit.height ∧
      (scaleBy fit source part limit).width = part.width ∧ (scaleBy fit source part limit).height = part.height) ∨
    ((scaleBy fit source part limit).width = (fit part.width part.height limit).1 ∧
      (scaleBy fit source part limit).height = (fit part.width part.height limit).2) := by
  unfold scaleBy
  split
  · next hlimit => exact .inl ⟨hlimit.1, hlimit.2, rfl, rfl⟩
  · right
    simp only
    split
    · next hsame => exact ⟨hsame.1.symm, hsame.2.symm⟩
    · split
      · omega
      · exact ⟨rfl, rfl⟩

end Thumbnail

/-! ## Image libraries -/

/-- How parts of pictures are scaled to fit limits, and how pictures are encoded. -/
structure ImageLibrary where
  scale : Rgba → PixelBox → ThumbnailSettings → Rgba
  encode? : Rgba → Except String (Array UInt8)
  /-- A part with pixels is scaled to a picture with pixels. -/
  scale_pos : ∀ (source : Rgba) (part : PixelBox) (limit : ThumbnailSettings), 0 < part.width → 0 < part.height →
    0 < (scale source part limit).width ∧ 0 < (scale source part limit).height
  /-- A picture with pixels can be encoded, and its encoded form has bytes. -/
  encode_ok : ∀ p : Rgba, 0 < p.width → 0 < p.height → ∃ bytes, encode? p = .ok bytes ∧ bytes.isEmpty = false

namespace ImageLibrary

/-- The library that scales by a rule, sample by sample, and writes PNG. -/
def byRule (fit : FitRule) (hfit : ∀ width height limit,
    0 < (fit width height limit).1 ∧ 0 < (fit width height limit).2) : ImageLibrary where
  scale := Thumbnail.scaleBy fit
  encode? := Png.encode?
  scale_pos source part limit hw hh := by
    rcases @Thumbnail.sides_scaleBy fit source part limit hw hh with ⟨-, -, hsw, hsh⟩ | ⟨hsw, hsh⟩
    · rw [hsw, hsh]
      exact ⟨hw, hh⟩
    · rw [hsw, hsh]
      exact hfit _ _ _
  encode_ok p hw hh := by
    rw [Png.encode?, if_neg (Nat.ne_of_gt hw), if_neg (Nat.ne_of_gt hh)]
    refine ⟨_, rfl, ?_⟩
    simp [Png.signature]

/-- The library used here: sides are found in doubles. -/
def own : ImageLibrary := byRule fitWithin fitWithin_pos

instance : Inhabited ImageLibrary := ⟨own⟩

end ImageLibrary

/-! ## Thumbnails of boxes -/

namespace Thumbnail

/-- The picture of the thumbnail of a box. -/
def picture (source : Rgba) (box : PixelBox) (limit : ThumbnailSettings) (library : ImageLibrary := .own) :
    Except Failure Rgba := do
  let part ← box.clampTo source.width source.height
  return library.scale source part limit

/-- The encoded thumbnail of a box. -/
def render (source : Rgba) (box : PixelBox) (limit : ThumbnailSettings) (library : ImageLibrary) :
    Except Failure (Array UInt8) := do
  let p ← picture source box limit library
  match library.encode? p with
  | .ok bytes => return bytes
  | .error reason => .error (.image ("thumbnail encoding failed: " ++ reason))

end Thumbnail

end WindowSurvey
