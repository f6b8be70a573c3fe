import WindowSurvey.Proofs.Picture.Screens
/-!
# One picture in four formats

The buffer of a valid frame is a row of colours, each written as its format says. Brightness and colour picture
are both read off that row, so the colour picture, handed over as a frame of its own, shows what the frame
shows.

## Main definitions

* `PixelFormat.colours`, `Frame.colours` — the colours of a buffer, read off piece by piece
* `Frame.rgba` — the colour picture of a frame

## Main statements

* `Frame.toList_pixels_gray`, `Frame.toList_pixels_rgba` — both pictures in terms of the colours
* `Frame.gray_toFrame_rgba`, `Frame.rgba_toFrame_rgba` — the colour picture as a frame
-/

namespace WindowSurvey

/-! ## Colours in a buffer -/

namespace PixelFormat

variable {format : PixelFormat}

/-- The colours of a buffer. Bytes at its end that are no whole pixel are left out. -/
def colours : PixelFormat → List UInt8 → List Colour
  | rgba8, r :: g :: b :: a :: rest => ⟨r, g, b, a⟩ :: rgba8.colours rest
  | bgra8, b :: g :: r :: a :: rest => ⟨r, g, b, a⟩ :: bgra8.colours rest
  | rgb8, r :: g :: b :: rest => ⟨r, g, b, 255⟩ :: rgb8.colours rest
  | gray8, v :: rest => .gray v :: gray8.colours rest
  | _, _ => []

theorem colours_append {first : List UInt8} (h : first.length = format.bytesPerPixel)
    (rest : List UInt8) :
    format.colours (first ++ rest) = format.colour first.toArray 0 :: format.colours rest := by
  cases format with
  | rgba8 => match first, h with | [_, _, _, _], _ => rfl
  | bgra8 => match first, h with | [_, _, _, _], _ => rfl
  | rgb8 => match first, h with | [_, _, _], _ => rfl
  | gray8 => match first, h with | [_], _ => rfl

/-- A colour is known by the bytes of its pixel. -/
theorem colour_eq_of_bytes {pixels pixels' : Array UInt8} {i i' : Nat}
    (h : ∀ k < format.bytesPerPixel, pixels.getD (i * format.bytesPerPixel + k) 0 =
      pixels'.getD (i' * format.bytesPerPixel + k) 0) :
    format.colour pixels i = format.colour pixels' i' := by
  cases format with
  | rgba8 =>
    simp only [colour, h 0 (by decide), h 1 (by decide), h 2 (by decide), h 3 (by decide)]
  | bgra8 =>
    simp only [colour, h 0 (by decide), h 1 (by decide), h 2 (by decide), h 3 (by decide)]
  | rgb8 => simp only [colour, h 0 (by decide), h 1 (by decide), h 2 (by decide)]
  | gray8 => simp only [colour, h 0 (by decide)]

/-- Reading piece by piece finds the colours where the number of a pixel says. -/
theorem colours_eq {bytes : List UInt8} {n : Nat} (h : bytes.length = n * format.bytesPerPixel) :
    format.colours bytes = (List.range n).map (format.colour bytes.toArray) := by
  induction n generalizing bytes with
  | zero =>
    have hnil : bytes = [] := List.length_eq_zero_iff.1 (by simpa using h)
    subst hnil
    cases format <;> rfl
  | succ n ih =>
    have hle : format.bytesPerPixel ≤ bytes.length := by
      rw [h, Nat.succ_mul]
      omega
    have hfirst : (bytes.take format.bytesPerPixel).length = format.bytesPerPixel :=
      List.length_take_of_le hle
    have hrest : (bytes.drop format.bytesPerPixel).length = n * format.bytesPerPixel := by
      rw [List.length_drop, h, Nat.succ_mul, Nat.add_sub_cancel]
    have hhead : format.colour (bytes.take format.bytesPerPixel).toArray 0 =
        format.colour bytes.toArray 0 := by
      refine colour_eq_of_bytes fun k hk => ?_
      simp [List.getElem?_take_of_lt, hk]
    have htail (i : Nat) : format.colour (bytes.drop format.bytesPerPixel).toArray i =
        format.colour bytes.toArray (i + 1) := by
      refine colour_eq_of_bytes fun k _ => ?_
      have hindex : format.bytesPerPixel + (i * format.bytesPerPixel + k) =
          (i + 1) * format.bytesPerPixel + k := by
        rw [Nat.succ_mul]
        omega
      simp [hindex]
    rw [← List.take_append_drop format.bytesPerPixel bytes, colours_append hfirst, ih hrest,
      List.take_append_drop, List.range_succ_eq_map, List.map_cons, List.map_map, hhead]
    exact congrArg _ (List.map_congr_left fun i _ => htail i)

/-- A buffer of four bytes a pixel in their usual order has the bytes of its colours. -/
theorem flatMap_bytes_colours {bytes : List UInt8} {n : Nat} (h : bytes.length = n * 4) :
    (rgba8.colours bytes).flatMap Colour.bytes = bytes := by
  induction n generalizing bytes with
  | zero =>
    rw [Nat.zero_mul, List.length_eq_zero_iff] at h
    rw [h]
    rfl
  | succ n ih =>
    obtain ⟨r, g, b, a, rest, rfl⟩ : ∃ r g b a rest, bytes = r :: g :: b :: a :: rest := by
      rcases bytes with _ | ⟨r, _ | ⟨g, _ | ⟨b, _ | ⟨a, rest⟩⟩⟩⟩ <;> simp_all <;> omega
    have hrest : rest.length = n * 4 := by
      simp only [List.length_cons] at h
      omega
    rw [colours, List.flatMap_cons, ih hrest]
    rfl

end PixelFormat

/-! ## The pictures of a frame -/

namespace Frame

variable {f f' : Frame} {i : Nat}

/-- The colours of a frame, row by row. -/
def colours (f : Frame) : List Colour := f.format.colours f.pixels.toList

theorem size_bytes (f : Frame) : (Array.ofFn fun i : Fin (f.width * f.height * 4) =>
    Rgba.byteOf (f.colour (i / 4)) i).size = f.width * f.height * 4 :=
  Array.size_ofFn

/-- The colour picture of a frame. -/
def rgba (f : Frame) : Rgba where
  width := f.width
  height := f.height
  pixels := Array.ofFn fun i : Fin (f.width * f.height * 4) => Rgba.byteOf (f.colour (i / 4)) i
  size_eq := f.size_bytes

theorem toRgba_eq_of_valid (h : f.validate = .ok ()) : f.toRgba = .ok f.rgba := by
  rw [toRgba, h]
  rfl

theorem toRgba_of_invalid {failure : Failure} (h : f.validate = .error failure) :
    f.toRgba = .error failure := by
  rw [toRgba, h]
  rfl

/-- What the check of a frame makes sure of. -/
theorem validate_eq_ok_iff : f.validate = .ok () ↔
    f.dimensions.isEmpty = false ∧ f.pixels.size = f.expectedSize := by
  rw [validate]
  split_ifs <;> simp_all

theorem colours_of_valid (h : f.validate = .ok ()) :
    f.colours = (List.range (f.width * f.height)).map f.colour :=
  PixelFormat.colours_eq (validate_eq_ok_iff.1 h).2

/-- The brightness of a valid frame is that of its colours, row by row. -/
theorem toList_pixels_gray (h : f.validate = .ok ()) :
    f.gray.pixels.toList = f.colours.map Colour.luma := by
  rw [colours_of_valid h, List.map_map, gray, Gray.build, Array.toList_ofFn, List.ofFn_eq_map,
    ← List.map_coe_finRange_eq_range, List.map_map]
  refine List.map_congr_left fun i _ => ?_
  show (f.colour (i / f.width * f.width + i % f.width)).luma = _
  rw [Nat.mul_comm, Nat.div_add_mod]
  rfl

/-- A byte of the colour picture. -/
theorem getElem?_pixels_rgba (f : Frame) (i : Nat) {k : Nat} (hk : k < 4) :
    f.rgba.pixels[i * 4 + k]? = if i < f.width * f.height then (f.colour i).bytes[k]? else none := by
  have hdiv : (i * 4 + k) / 4 = i := by omega
  have hmod : (i * 4 + k) % 4 = k := by omega
  have hlt : i * 4 + k < f.width * f.height * 4 ↔ i < f.width * f.height := by omega
  simp only [rgba, Array.getElem?_ofFn, hlt, hdiv]
  split
  · simp only [Rgba.byteOf, hmod]
    match k, hk with
    | 0, _ => rfl
    | 1, _ => rfl
    | 2, _ => rfl
    | 3, _ => rfl
  · rfl

/-- The colour picture of a valid frame holds the four bytes of each colour, row by row. -/
theorem toList_pixels_rgba (h : f.validate = .ok ()) :
    f.rgba.pixels.toList = f.colours.flatMap Colour.bytes := by
  have hbytes (c : Colour) : c.bytes.length = 4 := rfl
  rw [colours_of_valid h]
  refine List.ext_getElem? fun n => ?_
  have hk : n % 4 < 4 := Nat.mod_lt n (by decide)
  rw [← Nat.div_add_mod' n 4, Array.getElem?_toList, getElem?_pixels_rgba f _ hk,
    Screen.getElem?_flatMap hbytes _ hk, List.getElem?_map]
  split
  · next hi => rw [List.getElem?_range hi]; rfl
  · next hi => rw [List.getElem?_eq_none (by simpa using hi)]; rfl

/-! ## The colour picture as a frame -/

/-- The colour picture has the colours of the frame. -/
theorem colour_toFrame_rgba (hi : i < f.width * f.height) : f.rgba.toFrame.colour i = f.colour i := by
  have hbyte (k : Nat) (hk : k < 4) :
      f.rgba.pixels.getD (i * 4 + k) 0 = (f.colour i).bytes[k]?.getD 0 := by
    rw [Array.getD_eq_getD_getElem?, getElem?_pixels_rgba f i hk, if_pos hi]
  show PixelFormat.rgba8.colour f.rgba.pixels i = _
  simp only [PixelFormat.colour, PixelFormat.bytesPerPixel, hbyte 0 (by decide), hbyte 1 (by decide),
    hbyte 2 (by decide), hbyte 3 (by decide)]
  rfl

theorem validate_toFrame_rgba (h : f.validate = .ok ()) : f.rgba.toFrame.validate = .ok () :=
  validate_eq_ok_iff.2 ⟨(validate_eq_ok_iff.1 h).1, f.rgba.size_pixels_toFrame⟩

/-- Frames of one size whose colours are equally bright show one brightness. -/
theorem gray_eq_of_luma (hdim : f'.dimensions = f.dimensions)
    (h : ∀ i < f.width * f.height, (f'.colour i).luma = (f.colour i).luma) : f'.gray = f.gray := by
  simp only [gray, width, height, hdim]
  exact Gray.build_congr fun x hx y hy => h _ (Gray.index_lt hx hy)

theorem gray_toFrame_rgba (f : Frame) : f.rgba.toFrame.gray = f.gray :=
  gray_eq_of_luma rfl fun _ hi => congrArg Colour.luma (colour_toFrame_rgba hi)

/-- A picture that is built from a colour picture is the picture itself. -/
theorem rgba_toFrame_rgba (f : Frame) : f.rgba.toFrame.rgba = f.rgba := by
  have hpixels : f.rgba.toFrame.rgba.pixels = f.rgba.pixels := by
    refine congrArg Array.ofFn (funext fun i : Fin (f.width * f.height * 4) => ?_)
    have hi : (i : Nat) / 4 < f.width * f.height := by omega
    rw [colour_toFrame_rgba hi]
  exact Rgba.mk.injEq .. ▸ ⟨rfl, rfl, hpixels⟩

end Frame

end WindowSurvey
