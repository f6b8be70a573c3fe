import WindowSurvey.Proofs.Checked.Basic
import WindowSurvey.Proofs.Picture.Formats
import WindowSurvey.Proofs.Picture.Kernel
/-!
# Brightness, colours and edges on a machine

The check of a frame multiplies its sides and the size of a pixel, so it is safe where that product is a word of 64
bits. After it the buffer has exactly that many bytes, and all places that the brightness, the colours and the edges
are read from are places in it. The colours take four bytes a pixel, which may be more than the frame has.

## Main definitions

* `Checked.validate`, `Checked.luminance`, `Checked.toRgba` — the check of a frame, its brightness and its colours
* `Checked.gradientMagnitude` — the edges, found row by row

## Main statements

* `Checked.luminance_eq`, `Checked.toRgba_eq`, `Checked.gradientMagnitude_eq` — all are carried out, and give the
  pictures they should
-/

namespace WindowSurvey.Checked

/-! ## Frames -/

/-- How many bytes the buffer should hold. -/
def expectedSize (f : Frame) : Checked Nat := do
  let pixels ← size (f.width * f.height)
  size (pixels * f.format.bytesPerPixel)

/-- Check that the frame has pixels and that its buffer holds them all and nothing else. -/
def validate (f : Frame) : Checked (Except Failure Unit) :=
  if f.dimensions.isEmpty then return .error (.invalidFrame ("degenerate size " ++ f.sizeText))
  else do
    let expected ← expectedSize f
    if f.pixels.size ≠ expected then
      return .error (.invalidFrame ("buffer holds " ++ toString f.pixels.size ++ " bytes, " ++ f.sizeText
        ++ " " ++ f.format.debug ++ " needs " ++ toString expected))
    else return .ok ()

/-- The brightness of a colour, in words of 32 bits. -/
def luma (r g b : UInt8) : Checked UInt8 := do
  let red ← word32 (299 * r.toNat)
  let green ← word32 (587 * g.toNat)
  let blue ← word32 (114 * b.toNat)
  let warm ← word32 (red + green)
  let total ← word32 (warm + blue)
  let rounded ← word32 (total + 500)
  byte (rounded / 1000)

/-- The pieces of a buffer that hold one pixel each. -/
def pieces (pixels : Array UInt8) (length : Nat) : List (Array UInt8) :=
  (List.range (pixels.size / length)).map fun k => pixels.extract (k * length) (k * length + length)

/-- The brightness of a piece whose channels stand at given places. -/
def pieceLuma (red green blue : Nat) (piece : Array UInt8) : Checked UInt8 := do
  let r ← read piece red
  let g ← read piece green
  let b ← read piece blue
  luma r g b

/-- The brightness of all pixels of a buffer. -/
def brightness (format : PixelFormat) (pixels : Array UInt8) : Checked (Array UInt8) :=
  match format with
  | .gray8 => return pixels
  | .rgb8 => return (← (pieces pixels 3).mapM (pieceLuma 0 1 2)).toArray
  | .rgba8 => return (← (pieces pixels 4).mapM (pieceLuma 0 1 2)).toArray
  | .bgra8 => return (← (pieces pixels 4).mapM (pieceLuma 2 1 0)).toArray

/-- The brightness of every pixel of a valid frame. -/
def luminance (f : Frame) : Checked (Except Failure Gray) := do
  match ← validate f with
  | .error failure => return .error failure
  | .ok () =>
    let pixels ← brightness f.format f.pixels
    if h : pixels.size = f.width * f.height then return .ok ⟨f.width, f.height, pixels, h⟩
    else return .error (.image "luminance buffer size mismatch")

/-- The four bytes of a piece whose channels stand at given places. Without a place for the opacity it is full. -/
def pieceBytes (red green blue : Nat) (opacity : Option Nat) (piece : Array UInt8) : Checked (List UInt8) := do
  let r ← read piece red
  let g ← read piece green
  let b ← read piece blue
  let a ← opacity.elim (.ok 255) (read piece)
  return [r, g, b, a]

/-- The colours of all pixels of a buffer, four bytes each. -/
def colourBytes (format : PixelFormat) (pixels : Array UInt8) : Checked (Array UInt8) :=
  match format with
  | .rgba8 => return pixels
  | .bgra8 => return (← (pieces pixels 4).mapM (pieceBytes 2 1 0 (some 3))).flatten.toArray
  | .rgb8 => return (← (pieces pixels 3).mapM (pieceBytes 0 1 2 none)).flatten.toArray
  | .gray8 => return (← (pieces pixels 1).mapM (pieceBytes 0 0 0 none)).flatten.toArray

/-- The colours of every pixel of a valid frame. A buffer holds as many bytes as a word of 64 bits can count. -/
def toRgba (f : Frame) : Checked (Except Failure Rgba) := do
  match ← validate f with
  | .error failure => return .error failure
  | .ok () =>
    let pixels ← colourBytes f.format f.pixels
    let _ ← size pixels.size
    if h : pixels.size = f.width * f.height * 4 then return .ok ⟨f.width, f.height, pixels, h⟩
    else return .error (.image "rgba buffer size mismatch")

/-- The sides are words of 32 bits, and the number of bytes is one of 64. -/
structure Sized (f : Frame) : Prop where
  width_lt : f.width < 2 ^ 32
  height_lt : f.height < 2 ^ 32
  bytes_lt : f.width * f.height * f.format.bytesPerPixel < 2 ^ 64

variable {f : Frame}

/-- The check is carried out and says what it should. -/
theorem validate_eq (hf : Sized f) : validate f = .ok f.validate := by
  have hexpected : expectedSize f = .ok f.expectedSize := by
    rw [expectedSize, size_eq (mul_lt_of_words hf.width_lt hf.height_lt), ok_bind, size_eq hf.bytes_lt]
    rfl
  unfold validate Frame.validate
  rw [hexpected, ok_bind]
  split_ifs <;> rfl

/-- Beyond the bound the check is not carried out. Where the product wraps around instead, it would be zero here, and
the frame without a byte would pass. -/
example : validate ⟨#[], ⟨2 ^ 31, 2 ^ 31⟩, .rgba8⟩ = .error .overflow := by rfl

theorem luma_eq (r g b a : UInt8) : luma r g b = .ok (Colour.luma ⟨r, g, b, a⟩) := by
  have hr := r.toNat_lt
  have hg := g.toNat_lt
  have hb := b.toNat_lt
  simp (disch := omega) only [luma, word32_eq, ok_bind, byte_eq, Colour.luma]

section Pieces

variable {β : Type} {pixels : Array UInt8} {length n red green blue : Nat} {colour : Nat → Colour}
  (hsize : pixels.size = n * length)
include hsize

/-- In a buffer of whole pixels a piece is read where the bytes of its pixel stand. -/
theorem read_piece {k i : Nat} (hk : k < n) (hi : i < length) :
    read (pixels.extract (k * length) (k * length + length)) i = .ok (pixels.getD (k * length + i) 0) := by
  have hend : k * length + length ≤ pixels.size := by
    rw [hsize, ← Nat.succ_mul]
    exact Nat.mul_le_mul_right _ hk
  have hlt : k * length + i < pixels.size := by omega
  have hmin : i < min (k * length + length) pixels.size - k * length := by omega
  exact read_eq (by simp [hlt, hmin])

/-- What is done to every piece of a buffer of whole pixels is done for every pixel. -/
theorem mapM_pieces {f : Array UInt8 → Checked β} {g : Nat → β} (hlength : 0 < length)
    (h : ∀ k < n, f (pixels.extract (k * length) (k * length + length)) = .ok (g k)) :
    (pieces pixels length).mapM f = .ok ((List.range n).map g) := by
  have hcount : pixels.size / length = n := by
    rw [hsize, Nat.mul_div_cancel _ hlength]
  rw [pieces, hcount, List.mapM_map]
  exact mapM_eq_map fun k hk => h k (List.mem_range.1 hk)

variable (hred : red < length) (hgreen : green < length) (hblue : blue < length)
  (hcolour : ∀ i, (colour i).red = pixels.getD (i * length + red) 0 ∧
    (colour i).green = pixels.getD (i * length + green) 0 ∧ (colour i).blue = pixels.getD (i * length + blue) 0)
include hred hgreen hblue hcolour

/-- The brightness of every pixel, where the places of the channels are places in a piece. -/
theorem luma_pieces : (return (← (pieces pixels length).mapM (pieceLuma red green blue)).toArray) =
    Except.ok ((List.range n).map fun i => (colour i).luma).toArray := by
  have h : (pieces pixels length).mapM (pieceLuma red green blue) =
      .ok ((List.range n).map fun i => (colour i).luma) := by
    refine mapM_pieces hsize (by omega) fun k hk => ?_
    obtain ⟨hr, hg, hb⟩ := hcolour k
    rw [pieceLuma, read_piece hsize hk hred, ok_bind, read_piece hsize hk hgreen, ok_bind,
      read_piece hsize hk hblue, ok_bind, luma_eq _ _ _ (colour k).alpha, ← hr, ← hg, ← hb]
  rw [h, ok_bind]
  rfl

/-- The four bytes of every pixel, where the places of the channels are places in a piece. -/
theorem bytes_pieces {opacity : Option Nat} (hopacity : ∀ place ∈ opacity, place < length)
    (halpha : ∀ i, (colour i).alpha = opacity.elim 255 fun place => pixels.getD (i * length + place) 0) :
    (return (← (pieces pixels length).mapM (pieceBytes red green blue opacity)).flatten.toArray) =
      Except.ok ((List.range n).flatMap fun i => (colour i).bytes).toArray := by
  have h : (pieces pixels length).mapM (pieceBytes red green blue opacity) =
      .ok ((List.range n).map fun i => (colour i).bytes) := by
    refine mapM_pieces hsize (by omega) fun k hk => ?_
    obtain ⟨hr, hg, hb⟩ := hcolour k
    have ha : opacity.elim (.ok 255) (read (pixels.extract (k * length) (k * length + length))) =
        .ok (colour k).alpha := by
      rw [halpha k]
      cases opacity with
      | none => rfl
      | some place => exact read_piece hsize hk (hopacity place rfl)
    rw [pieceBytes, read_piece hsize hk hred, ok_bind, read_piece hsize hk hgreen, ok_bind,
      read_piece hsize hk hblue, ok_bind, ha, ok_bind, ← hr, ← hg, ← hb]
    rfl
  rw [h, ok_bind, List.flatMap_def]
  rfl

end Pieces

/-- The brightness of a buffer of whole pixels. -/
theorem brightness_eq {format : PixelFormat} {pixels : Array UInt8} {n : Nat}
    (hsize : pixels.size = n * format.bytesPerPixel) :
    brightness format pixels = .ok ((List.range n).map fun i => (format.colour pixels i).luma).toArray := by
  cases format with
  | rgba8 => exact luma_pieces hsize (by decide) (by decide) (by decide) fun _ => ⟨rfl, rfl, rfl⟩
  | bgra8 => exact luma_pieces hsize (by decide) (by decide) (by decide) fun _ => ⟨rfl, rfl, rfl⟩
  | rgb8 => exact luma_pieces hsize (by decide) (by decide) (by decide) fun _ => ⟨rfl, rfl, rfl⟩
  | gray8 =>
    have hsize' : pixels.size = n := by rw [hsize]; exact Nat.mul_one n
    refine congrArg Except.ok (Array.ext (by simp [hsize']) fun i hi hi' => ?_)
    simp [PixelFormat.colour, PixelFormat.bytesPerPixel, hi]

/-- The brightness is found, and is that of the frame. -/
theorem luminance_eq (hf : Sized f) : luminance f = .ok f.luminance := by
  rw [luminance, validate_eq hf, ok_bind]
  cases hvalid : f.validate with
  | error failure =>
    rw [Frame.luminance, hvalid]
    rfl
  | ok _ =>
    have hbytes : f.pixels.size = f.width * f.height * f.format.bytesPerPixel :=
      (Frame.validate_eq_ok_iff.1 hvalid).2
    have hpixels : ((List.range (f.width * f.height)).map fun i => (f.colour i).luma).toArray =
        Array.ofFn fun i : Fin (f.width * f.height) => (f.colour i).luma := by
      refine Array.ext (by simp) fun i hi hi' => by simp
    have hbrightness : brightness f.format f.pixels =
        .ok (Array.ofFn fun i : Fin (f.width * f.height) => (f.colour i).luma) := by
      rw [← hpixels]
      exact brightness_eq hbytes
    simp only [hbrightness, ok_bind, Array.size_ofFn, dif_pos]
    rw [Frame.luminance, hvalid]
    rfl

/-- The colours of a buffer of whole pixels. -/
theorem colourBytes_eq {format : PixelFormat} {pixels : Array UInt8} {n : Nat}
    (hsize : pixels.size = n * format.bytesPerPixel) :
    colourBytes format pixels = .ok ((List.range n).flatMap fun i => (format.colour pixels i).bytes).toArray := by
  cases format with
  | rgba8 =>
    have hbytes : (PixelFormat.rgba8.colours pixels.toList).flatMap Colour.bytes = pixels.toList :=
      PixelFormat.flatMap_bytes_colours hsize
    rw [PixelFormat.colours_eq hsize, List.flatMap_map] at hbytes
    rw [colourBytes, hbytes]
    rfl
  | bgra8 =>
    exact bytes_pieces hsize (by decide) (by decide) (by decide) (fun _ => ⟨rfl, rfl, rfl⟩) (by decide) fun _ => rfl
  | rgb8 =>
    exact bytes_pieces hsize (by decide) (by decide) (by decide) (fun _ => ⟨rfl, rfl, rfl⟩) (by simp) fun _ => rfl
  | gray8 =>
    exact bytes_pieces hsize (by decide) (by decide) (by decide) (fun _ => ⟨rfl, rfl, rfl⟩) (by simp) fun _ => rfl

/-- The colours of a frame that is not valid are refused like its brightness. -/
theorem toRgba_of_invalid (hf : Sized f) {failure : Failure} (h : f.validate = .error failure) :
    toRgba f = .ok (.error failure) := by
  rw [toRgba, validate_eq hf, h, ok_bind]
  rfl

/-- The colours are found, and are those of the frame, if there are not more of their bytes than can be counted. -/
theorem toRgba_eq (hf : Sized f) (hvalid : f.validate = .ok ()) (hcount : f.width * f.height * 4 < 2 ^ 64) :
    toRgba f = .ok (.ok f.rgba) := by
  have hbytes : colourBytes f.format f.pixels = .ok f.rgba.pixels := by
    refine (colourBytes_eq (Frame.validate_eq_ok_iff.1 hvalid).2).trans (congrArg Except.ok ?_)
    refine Array.toList_inj.1 ?_
    rw [Frame.toList_pixels_rgba hvalid, Frame.colours_of_valid hvalid, List.flatMap_map]
    rfl
  have hsize : f.rgba.pixels.size = f.width * f.height * 4 := f.rgba.size_eq
  rw [toRgba, validate_eq hf, hvalid, ok_bind]
  simp only [hbytes, ok_bind, hsize, size_eq hcount, dif_pos]
  rfl

/-! ## Edges -/

/-- The level in the row that begins at `base`, `across` places right of the left neighbour of column `x`. -/
def level (g : Gray) (base x across : Nat) : Checked Int := do
  let i ← size (base + x)
  let i ← size (i + across)
  let i ← minus i 1
  let v ← read g.pixels i
  return (v.toNat : Int)

/-- Three levels in a row or column, the middle one twice. -/
def smooth (a b c : Int) : Checked Int := do
  let twice ← int32 (2 * b)
  let sum ← int32 (a + twice)
  int32 (sum + c)

/-- The change from left to right, from the rows that begin at the given places. -/
def gradientX (g : Gray) (above row below x : Nat) : Checked Int := do
  let right ← smooth (← level g above x 2) (← level g row x 2) (← level g below x 2)
  let left ← smooth (← level g above x 0) (← level g row x 0) (← level g below x 0)
  int32 (right - left)

/-- The change from above to below. -/
def gradientY (g : Gray) (above below x : Nat) : Checked Int := do
  let down ← smooth (← level g below x 0) (← level g below x 1) (← level g below x 2)
  let up ← smooth (← level g above x 0) (← level g above x 1) (← level g above x 2)
  int32 (down - up)

/-- The length of a gradient, cut off at the greatest byte. -/
def magnitude (gx gy : Int) : Checked UInt8 := do
  let across ← int32 (gx * gx)
  let down ← int32 (gy * gy)
  let sum ← int32 (across + down)
  byteOfFloat (lesser (Float.ofInt sum).sqrt 255)

/-- A picture with one pixel changed. -/
def withPixel (out : Gray) (x y : Nat) (v : UInt8) : Gray where
  width := out.width
  height := out.height
  pixels := out.pixels.setIfInBounds (y * out.width + x) v
  size_eq := by rw [Array.size_setIfInBounds, out.size_eq]

/-- Change a pixel of a picture. -/
def putPixel (out : Gray) (x y : Nat) (v : UInt8) : Checked Gray := do
  let x ← narrow32 x
  let y ← narrow32 y
  if x < out.width ∧ y < out.height then return withPixel out x y v else .error .index

/-- Find the edges of a row. -/
def gradientRow (g out : Gray) (y : Nat) : Checked Gray := do
  let above ← size ((← minus y 1) * g.width)
  let row ← size (y * g.width)
  let below ← size ((← size (y + 1)) * g.width)
  let last ← minus g.width 1
  (List.range' 1 (last - 1)).foldlM (fun out x => do
    let gx ← gradientX g above row below x
    let gy ← gradientY g above below x
    putPixel out x y (← magnitude gx gy)) out

/-- The picture of gradient sizes, found row by row. -/
def gradientMagnitude (g : Gray) : Checked Gray := do
  let _ ← size (g.width * g.height)
  let blank := Gray.build g.width g.height fun _ _ => 0
  if g.width < 3 ∨ g.height < 3 then return blank
  else do
    let last ← minus g.height 1
    (List.range' 1 (last - 1)).foldlM (gradientRow g) blank

section Edges

variable {g out : Gray} {x y n : Nat}

/-- A level next to a pixel is read at a place in the buffer. -/
theorem level_eq {across : Nat} (hg : g.width * g.height < 2 ^ 64) (hacross : 1 ≤ x + across)
    (hx : x + across ≤ g.width) (hy : y < g.height) :
    level g (y * g.width) x across = .ok (g.level (x + across - 1) y) := by
  have hx' : x + across - 1 < g.width := by omega
  have hplace : y * g.width + x + across - 1 = y * g.width + (x + across - 1) := by omega
  have hlt := Gray.index_lt hx' hy
  rw [level, size_eq (by omega), ok_bind, size_eq (by omega), ok_bind, minus_eq (by omega), ok_bind, hplace,
    read_eq (g.getElem?_pixels hx' hy), ok_bind]
  rfl

/-- Three levels are far from the ends of a word with sign. -/
theorem smooth_eq {a b c : Int} (ha : 0 ≤ a ∧ a ≤ 255) (hb : 0 ≤ b ∧ b ≤ 255) (hc : 0 ≤ c ∧ c ≤ 255) :
    smooth a b c = .ok (a + 2 * b + c) := by
  rw [smooth, int32_eq ⟨by linarith, by linarith⟩, ok_bind, int32_eq ⟨by linarith, by linarith⟩, ok_bind,
    int32_eq ⟨by linarith, by linarith⟩]

theorem magnitude_eq {gx gy : Int} (hx : gx ^ 2 ≤ 1020 ^ 2) (hy : gy ^ 2 ≤ 1020 ^ 2) :
    magnitude gx gy = .ok (UInt8.ofNat (rootByte (gx * gx + gy * gy).toNat)) := by
  have hx0 := mul_self_nonneg gx
  have hy0 := mul_self_nonneg gy
  rw [sq] at hx hy
  obtain ⟨s, hs⟩ := Int.eq_ofNat_of_zero_le (add_nonneg hx0 hy0)
  have hroot := byteOfFloat_lesser_sqrt (n := s) (by omega)
  rw [rootByte_eq_sqrt]
  simp (disch := omega) only [magnitude, int32_eq, ok_bind]
  rw [hs]
  exact hroot

/-- All pixels before the place `n` have the size of their gradient, and the others are blank. -/
structure Filled (g : Gray) (n : Nat) (out : Gray) : Prop where
  width : out.width = g.width
  height : out.height = g.height
  pixel : ∀ x < g.width, ∀ y < g.height,
    out.pixel x y = if y * g.width + x < n then g.magnitudeAt x y else 0

/-- Pixels whose gradient is zero are passed over. -/
theorem Filled.skip {m : Nat} (h : Filled g n out) (hnm : n ≤ m)
    (hflat : ∀ x < g.width, ∀ y < g.height, n ≤ y * g.width + x → y * g.width + x < m → g.magnitudeAt x y = 0) :
    Filled g m out where
  width := h.width
  height := h.height
  pixel x hx y hy := by
    rw [h.pixel x hx y hy]
    split_ifs with h₁ h₂ h₂
    · rfl
    · omega
    · exact (hflat x hx y hy (by omega) h₂).symm
    · rfl

/-- Changing a pixel leaves the others as they are. -/
theorem pixel_withPixel {u v : Nat} {b : UInt8} (hx : x < out.width) (hu : u < out.width) (hv : v < out.height) :
    (withPixel out x y b).pixel u v = if u = x ∧ v = y then b else out.pixel u v := by
  have hnew := (withPixel out x y b).getElem?_pixels hu hv
  have hold := out.getElem?_pixels hu hv
  have hplace : y * out.width + x = v * out.width + u ↔ u = x ∧ v = y := Claim.index_inj hx hu
  have hin : v * out.width + u < out.pixels.size := out.size_eq ▸ Gray.index_lt hu hv
  refine Option.some_inj.1 (hnew.symm.trans ?_)
  show (out.pixels.setIfInBounds (y * out.width + x) b)[v * out.width + u]? = _
  rw [Array.getElem?_setIfInBounds, hold]
  by_cases hsame : u = x ∧ v = y
  · rw [if_pos (hplace.2 hsame), if_pos (by omega), if_pos hsame]
  · rw [if_neg (hplace.not.2 hsame), if_neg hsame]

/-- The pixel at the place reached is changed. -/
theorem Filled.putPixel (h : Filled g (y * g.width + x) out) (hx : x < g.width) (hy : y < g.height)
    (hw : g.width < 2 ^ 32) (hh : g.height < 2 ^ 32) :
    ∃ out', Checked.putPixel out x y (g.magnitudeAt x y) = .ok out' ∧ Filled g (y * g.width + (x + 1)) out' := by
  rw [Checked.putPixel, narrow32_eq (by omega), ok_bind, narrow32_eq (by omega), ok_bind,
    if_pos (by rw [h.width, h.height]; exact ⟨hx, hy⟩)]
  refine ⟨_, rfl, h.width, h.height, fun u hu v hv => ?_⟩
  have hplace : v * g.width + u = y * g.width + x ↔ x = u ∧ y = v := Claim.index_inj hu hx
  rw [pixel_withPixel (h.width ▸ hx) (h.width ▸ hu) (h.height ▸ hv), h.pixel u hu v hv]
  by_cases hsame : u = x ∧ v = y
  · obtain ⟨rfl, rfl⟩ := hsame
    rw [if_pos ⟨rfl, rfl⟩, if_pos (by omega)]
  · rw [if_neg hsame]
    -- no other place lies between the old end and the new one
    have hother : v * g.width + u ≠ y * g.width + x := fun h => hsame ⟨(hplace.1 h).1.symm, (hplace.1 h).2.symm⟩
    exact if_congr (by omega) rfl rfl

theorem level_bounds (g : Gray) (x y : Nat) : 0 ≤ g.level x y ∧ g.level x y ≤ 255 := by
  have h := (g.pixel x y).toNat_lt
  rw [Gray.level]
  omega

section Interior

variable (hx : 1 ≤ x) (hx' : x + 1 < g.width) (hy : 1 ≤ y) (hy' : y + 1 < g.height)
include hx hx' hy hy'

/-- The size of the gradient at a pixel with all its neighbours. -/
theorem magnitude_gradient : magnitude (g.gradientX x y) (g.gradientY x y) = .ok (g.magnitudeAt x y) := by
  have hacross : g.gradientX x y ^ 2 ≤ 1020 ^ 2 := Gray.sq_le_of_levels
  have hdown : g.gradientY x y ^ 2 ≤ 1020 ^ 2 := Gray.sq_le_of_levels
  rw [magnitude_eq hacross hdown, Gray.magnitudeAt, if_pos (Gray.isInterior_iff.2 ⟨hx, hx', hy, hy'⟩)]

variable (hg : g.width * g.height < 2 ^ 64)
include hg

theorem gradientX_eq :
    gradientX g ((y - 1) * g.width) (y * g.width) ((y + 1) * g.width) x = .ok (g.gradientX x y) := by
  have hright {v : Nat} (hv : v < g.height) : level g (v * g.width) x 2 = .ok (g.level (x + 1) v) :=
    level_eq hg (by omega) (by omega) hv
  have hleft {v : Nat} (hv : v < g.height) : level g (v * g.width) x 0 = .ok (g.level (x - 1) v) :=
    level_eq hg (by omega) (by omega) hv
  have hsquare : g.gradientX x y ^ 2 ≤ 1020 ^ 2 := Gray.sq_le_of_levels
  obtain ⟨hlow, hhigh⟩ := abs_le_of_sq_le_sq' hsquare (by norm_num)
  rw [Checked.gradientX, hright (by omega), ok_bind, hright (by omega), ok_bind, hright hy', ok_bind,
    smooth_eq (level_bounds g _ _) (level_bounds g _ _) (level_bounds g _ _), ok_bind,
    hleft (by omega), ok_bind, hleft (by omega), ok_bind, hleft hy', ok_bind,
    smooth_eq (level_bounds g _ _) (level_bounds g _ _) (level_bounds g _ _), ok_bind]
  exact int32_eq (n := g.gradientX x y) ⟨by linarith, by linarith⟩

theorem gradientY_eq : gradientY g ((y - 1) * g.width) ((y + 1) * g.width) x = .ok (g.gradientY x y) := by
  have hright {v : Nat} (hv : v < g.height) : level g (v * g.width) x 2 = .ok (g.level (x + 1) v) :=
    level_eq hg (by omega) (by omega) hv
  have hmiddle {v : Nat} (hv : v < g.height) : level g (v * g.width) x 1 = .ok (g.level x v) :=
    level_eq hg (by omega) (by omega) hv
  have hleft {v : Nat} (hv : v < g.height) : level g (v * g.width) x 0 = .ok (g.level (x - 1) v) :=
    level_eq hg (by omega) (by omega) hv
  have hsquare : g.gradientY x y ^ 2 ≤ 1020 ^ 2 := Gray.sq_le_of_levels
  obtain ⟨hlow, hhigh⟩ := abs_le_of_sq_le_sq' hsquare (by norm_num)
  rw [Checked.gradientY, hleft hy', ok_bind, hmiddle hy', ok_bind, hright hy', ok_bind,
    smooth_eq (level_bounds g _ _) (level_bounds g _ _) (level_bounds g _ _), ok_bind,
    hleft (by omega), ok_bind, hmiddle (by omega), ok_bind, hright (by omega), ok_bind,
    smooth_eq (level_bounds g _ _) (level_bounds g _ _) (level_bounds g _ _), ok_bind]
  exact int32_eq (n := g.gradientY x y) ⟨by linarith, by linarith⟩

end Interior

theorem magnitudeAt_border (h : x = 0 ∨ y = 0 ∨ g.width ≤ x + 1 ∨ g.height ≤ y + 1) : g.magnitudeAt x y = 0 := by
  rw [Gray.magnitudeAt, if_neg]
  rw [Gray.isInterior_iff]
  omega

/-- A row is filled from its second pixel to the second pixel of the next row. -/
theorem gradientRow_filled (hw : g.width < 2 ^ 32) (hh : g.height < 2 ^ 32) (hy : 1 ≤ y) (hy' : y + 1 < g.height)
    (hwidth : 3 ≤ g.width) (h : Filled g (y * g.width + 1) out) :
    ∃ out', gradientRow g out y = .ok out' ∧ Filled g ((y + 1) * g.width + 1) out' := by
  have hg := mul_lt_of_words hw hh
  have hbelow : (y + 1) * g.width < 2 ^ 64 := mul_lt_of_words (by omega) hw
  have hrow : y * g.width ≤ (y + 1) * g.width := Nat.mul_le_mul_right _ (by omega)
  have habove : (y - 1) * g.width ≤ (y + 1) * g.width := Nat.mul_le_mul_right _ (by omega)
  obtain ⟨out', hout', hfilled⟩ := foldlM_range' (fun x out => Filled g (y * g.width + x) out)
    1 (g.width - 1 - 1) (b := out) (f := fun out x => do
      let gx ← gradientX g ((y - 1) * g.width) (y * g.width) ((y + 1) * g.width) x
      let gy ← gradientY g ((y - 1) * g.width) ((y + 1) * g.width) x
      putPixel out x y (← magnitude gx gy))
    (fun x out hx hx' h => by
      rw [gradientX_eq hx (by omega) hy hy' hg, ok_bind, gradientY_eq hx (by omega) hy hy' hg, ok_bind,
        magnitude_gradient hx (by omega) hy hy', ok_bind]
      exact h.putPixel (by omega) (by omega) hw hh) h
  refine ⟨out', ?_, hfilled.skip ?_ ?_⟩
  · rw [gradientRow, minus_eq hy, ok_bind, size_eq (by omega), ok_bind, size_eq (by omega), ok_bind,
      size_eq (by omega), ok_bind, size_eq hbelow, ok_bind, minus_eq (by omega), ok_bind]
    exact hout'
  · rw [Nat.succ_mul]
    omega
  · intro u hu v hv hlow hhigh
    -- the last pixel of the row, or the first of the next one
    refine magnitudeAt_border ?_
    by_contra hinside
    rcases Nat.lt_trichotomy v y with hlt | rfl | hlt
    · have := Nat.mul_le_mul_right g.width (show v + 1 ≤ y by omega)
      rw [Nat.succ_mul] at this
      omega
    · omega
    · have := Nat.mul_le_mul_right g.width (show y + 1 ≤ v by omega)
      omega

/-- Pictures with the same pixels are the same. -/
theorem eq_of_pixel {g g' : Gray} (hw : g.width = g'.width) (hh : g.height = g'.height)
    (h : ∀ x < g.width, ∀ y < g.height, g.pixel x y = g'.pixel x y) : g = g' := by
  obtain ⟨w, k, pixels, hsize⟩ := g
  obtain ⟨w', k', pixels', hsize'⟩ := g'
  obtain rfl : w = w' := hw
  obtain rfl : k = k' := hh
  suffices hpixels : pixels = pixels' by subst hpixels; rfl
  refine Array.ext (hsize.trans hsize'.symm) fun i hi hi' => ?_
  have hw0 : 0 < w := Nat.pos_of_ne_zero fun h0 => by simp [hsize, h0] at hi
  have hx : i % w < w := Nat.mod_lt _ hw0
  have hy : i / w < k := Nat.div_lt_of_lt_mul (hsize ▸ hi)
  have hi₁ := Gray.getElem?_pixels ⟨w, k, pixels, hsize⟩ hx hy
  have hi₂ := Gray.getElem?_pixels ⟨w, k, pixels', hsize'⟩ hx hy
  simp only [Nat.div_add_mod', Array.getElem?_eq_getElem hi, Array.getElem?_eq_getElem hi', Option.some_inj] at hi₁ hi₂
  rw [hi₁, hi₂, h _ hx _ hy]

/-- A picture that is filled has the edges. -/
theorem Filled.eq_gradientMagnitude (h : Filled g n out)
    (hrest : ∀ x < g.width, ∀ y < g.height, n ≤ y * g.width + x → g.magnitudeAt x y = 0) :
    out = g.gradientMagnitude := by
  refine eq_of_pixel h.width h.height fun x hx y hy => ?_
  rw [h.width] at hx
  rw [h.height] at hy
  have hedge : g.gradientMagnitude.pixel x y = g.magnitudeAt x y := by
    rw [Gray.gradientMagnitude, Gray.pixel_build, if_pos ⟨hx, hy⟩]
  rw [h.pixel x hx y hy, hedge]
  split_ifs with hn
  · rfl
  · exact (hrest x hx y hy (by omega)).symm

theorem filled_blank (g : Gray) : Filled g 0 (Gray.build g.width g.height fun _ _ => 0) where
  width := rfl
  height := rfl
  pixel x _ y _ := by rw [Gray.pixel_build, ite_self, if_neg (Nat.not_lt_zero _)]

/-- The edges are found, and are those of the picture. -/
theorem gradientMagnitude_eq (hw : g.width < 2 ^ 32) (hh : g.height < 2 ^ 32) :
    gradientMagnitude g = .ok g.gradientMagnitude := by
  rw [gradientMagnitude, size_eq (mul_lt_of_words hw hh), ok_bind]
  split
  · next hsmall =>
    refine congrArg Except.ok ((filled_blank g).eq_gradientMagnitude fun x hx y hy _ => magnitudeAt_border ?_)
    omega
  · next hlarge =>
    have hfirst : Filled g (1 * g.width + 1) (Gray.build g.width g.height fun _ _ => 0) := by
      refine (filled_blank g).skip (Nat.zero_le _) fun x hx y hy _ hlt => magnitudeAt_border ?_
      by_contra hinside
      have := Nat.mul_le_mul_right g.width (show 1 ≤ y by omega)
      omega
    obtain ⟨out, hout, hfilled⟩ := foldlM_range' (fun y out => Filled g (y * g.width + 1) out)
      1 (g.height - 1 - 1) (f := gradientRow g)
      (fun y out hy hy' h => gradientRow_filled hw hh hy (by omega) (by omega) h) hfirst
    rw [minus_eq (by omega), ok_bind, hout]
    refine congrArg Except.ok (hfilled.eq_gradientMagnitude fun x hx y hy hlow => magnitudeAt_border ?_)
    by_contra hinside
    have := Nat.mul_le_mul_right g.width (show y + 1 ≤ g.height - 1 by omega)
    rw [show 1 + (g.height - 1 - 1) = g.height - 1 by omega] at hlow
    rw [Nat.succ_mul] at this
    omega

end Edges

end WindowSurvey.Checked
