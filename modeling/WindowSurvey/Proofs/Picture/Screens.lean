import WindowSurvey.Proofs.Detector.Frames
import WindowSurvey.Screen
/-!
# The brightness of drawn screens

The frame of a drawn screen with pixels is valid, and the brightness of a pixel is that of the colour that is
seen there, whatever the format. Gray frames keep one channel, so this holds for them when the colours are
neutral.

## Main definitions

* `Screen.dimensions` — the sides of a screen
* `Colour.IsNeutral`, `Screen.Shows` — the colours that a format can show
-/

namespace WindowSurvey

/-- The channels of a neutral colour are equal. -/
def Colour.IsNeutral (c : Colour) : Prop := c.red = c.green ∧ c.green = c.blue

instance (c : Colour) : Decidable c.IsNeutral := inferInstanceAs (Decidable (_ ∧ _))

namespace Screen

variable {s : Screen} {format : PixelFormat} {x y : Nat}

/-- The sides of the screen. -/
def dimensions (s : Screen) : Dimensions := ⟨s.width, s.height⟩

/-- Gray frames show neutral colours only; the other formats show every colour. -/
def Shows (s : Screen) (format : PixelFormat) : Prop :=
  format = .gray8 → s.background.IsNeutral ∧ ∀ w ∈ s.windows, w.colour.IsNeutral

/-! ## The buffer -/

theorem foldl_appendList {α : Type} (f : α → List UInt8) (l : List α) (out : Array UInt8) :
    (l.foldl (fun (out : Array UInt8) a => out.appendList (f a)) out).toList =
      out.toList ++ l.flatMap f := by
  induction l generalizing out with
  | nil => simp
  | cons a l ih =>
    rw [List.foldl_cons, ih, List.flatMap_cons, ← List.append_assoc]
    simp

/-- The buffer of a screen: the colours row by row. -/
theorem toList_pixels_render (s : Screen) (format : PixelFormat) :
    (s.render format).pixels.toList = (List.range s.height).flatMap fun y =>
      (List.range s.width).flatMap fun x => format.encode (s.colourAt x y) := by
  have hrows (rows : List Nat) (out : Array UInt8) :
      (rows.foldl (fun out y => (List.range s.width).foldl (fun (out : Array UInt8) x =>
        out.appendList (format.encode (s.colourAt x y))) out) out).toList =
      out.toList ++ rows.flatMap fun y =>
        (List.range s.width).flatMap fun x => format.encode (s.colourAt x y) := by
    induction rows generalizing out with
    | nil => simp
    | cons y rows ih =>
      rw [List.foldl_cons, ih, List.flatMap_cons, foldl_appendList, List.append_assoc]
  have h := hrows (List.range s.height) #[]
  rwa [List.nil_append] at h

theorem length_flatMap {α β : Type} {f : α → List β} {n : Nat} (hf : ∀ a, (f a).length = n)
    (l : List α) : (l.flatMap f).length = l.length * n := by
  induction l with
  | nil => simp
  | cons a l ih =>
    rw [List.flatMap_cons, List.length_append, hf, ih, List.length_cons, Nat.succ_mul, Nat.add_comm]

/-- A place in a row of parts of one length. -/
theorem getElem?_flatMap {α β : Type} {f : α → List β} {n : Nat} (hf : ∀ a, (f a).length = n)
    (l : List α) {i k : Nat} (hk : k < n) :
    (l.flatMap f)[i * n + k]? = l[i]?.bind fun a => (f a)[k]? := by
  induction l generalizing i with
  | nil => simp
  | cons a l ih =>
    rw [List.flatMap_cons]
    cases i with
    | zero => rw [Nat.zero_mul, Nat.zero_add, List.getElem?_append_left (by rw [hf]; exact hk)]; rfl
    | succ i =>
      have hi : (i + 1) * n + k = n + (i * n + k) := by rw [Nat.succ_mul]; omega
      rw [hi, List.getElem?_append_right (by rw [hf]; omega), hf, Nat.add_sub_cancel_left, ih]
      rfl

/-- The bytes of a pixel of the buffer. -/
theorem getD_pixels_render (hx : x < s.width) (hy : y < s.height) {k : Nat}
    (hk : k < format.bytesPerPixel) :
    (s.render format).pixels.getD ((y * s.width + x) * format.bytesPerPixel + k) 0 =
      (format.encode (s.colourAt x y))[k]?.getD 0 := by
  have hindex : (y * s.width + x) * format.bytesPerPixel + k =
      y * (s.width * format.bytesPerPixel) + (x * format.bytesPerPixel + k) := by
    rw [Nat.add_mul, Nat.mul_assoc, Nat.add_assoc]
  have hrow : x * format.bytesPerPixel + k < s.width * format.bytesPerPixel := by
    have := Nat.mul_le_mul_right format.bytesPerPixel (Nat.succ_le_of_lt hx)
    rw [Nat.succ_mul] at this
    omega
  rw [Array.getD_eq_getD_getElem?, ← Array.getElem?_toList, toList_pixels_render, hindex,
    getElem?_flatMap (fun y => by rw [length_flatMap (fun x => format.length_encode _), List.length_range])
      _ hrow, List.getElem?_range hy, Option.bind_some,
    getElem?_flatMap (fun x => format.length_encode _) _ hk, List.getElem?_range hx, Option.bind_some]

/-! ## Brightness -/

/-- The frame of a screen with pixels is valid. -/
theorem validate_render (hw : 0 < s.width) (hh : 0 < s.height) :
    (s.render format).validate = .ok () := by
  have hsize : (s.render format).pixels.size = (s.render format).expectedSize := by
    rw [← Array.length_toList, toList_pixels_render,
      length_flatMap (fun y => length_flatMap (fun x => format.length_encode _) _), List.length_range,
      List.length_range, ← Nat.mul_assoc, Nat.mul_comm s.height]
    rfl
  have hempty : (s.render format).dimensions.isEmpty = false := by
    simp [render, Dimensions.isEmpty]
    omega
  rw [Frame.validate, hempty, if_neg Bool.false_ne_true, if_neg (not_not.2 hsize)]

/-- A colour that a format can show comes back with its brightness. -/
theorem luma_decode {c : Colour} {pixels : Array UInt8} {i : Nat}
    (hneutral : format = .gray8 → c.IsNeutral)
    (hbytes : ∀ k < format.bytesPerPixel,
      pixels.getD (i * format.bytesPerPixel + k) 0 = (format.encode c)[k]?.getD 0) :
    (format.colour pixels i).luma = c.luma := by
  cases format with
  | rgba8 =>
    simp only [PixelFormat.colour, hbytes 0 (by decide), hbytes 1 (by decide), hbytes 2 (by decide),
      hbytes 3 (by decide)]
    rfl
  | bgra8 =>
    simp only [PixelFormat.colour, hbytes 0 (by decide), hbytes 1 (by decide), hbytes 2 (by decide),
      hbytes 3 (by decide)]
    rfl
  | rgb8 =>
    simp only [PixelFormat.colour, hbytes 0 (by decide), hbytes 1 (by decide), hbytes 2 (by decide)]
    rfl
  | gray8 =>
    obtain ⟨hgreen, hblue⟩ := hneutral rfl
    simp only [PixelFormat.colour, hbytes 0 (by decide)]
    simp only [Colour.luma, Colour.gray, PixelFormat.encode, ← hblue, ← hgreen]
    rfl

/-- The seen colour is that of a window or of the background. -/
theorem colourAt_cases (s : Screen) (x y : Nat) :
    s.colourAt x y = s.background ∨ ∃ w ∈ s.windows, s.colourAt x y = w.colour := by
  unfold colourAt seen
  split
  · next w hw => exact .inr ⟨w, List.mem_reverse.1 (List.mem_of_find?_eq_some hw), rfl⟩
  · exact .inl rfl

/-- The brightness of a pixel is that of the colour seen there. -/
theorem pixel_gray_render (hs : s.Shows format) (hx : x < s.width) (hy : y < s.height) :
    (s.render format).gray.pixel x y = (s.colourAt x y).luma := by
  have hneutral : format = .gray8 → (s.colourAt x y).IsNeutral := fun h => by
    obtain ⟨hback, hwindows⟩ := hs h
    rcases s.colourAt_cases x y with hc | ⟨w, hw, hc⟩
    · exact hc ▸ hback
    · exact hc ▸ hwindows w hw
  rw [Frame.gray, Gray.pixel_build, if_pos ⟨hx, hy⟩]
  exact luma_decode hneutral fun k hk => getD_pixels_render hx hy hk

end Screen

end WindowSurvey
