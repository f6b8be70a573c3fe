/-!
# Gray pictures

A gray picture is a rectangle of brightness values, stored row by row. Its buffer always holds exactly
one byte for every pixel, so looking up a pixel inside the picture needs no check.

## Main definitions

* `Gray`, `Gray.pixel` — a picture, and the brightness at a place, which is zero outside
* `Gray.build` — the picture of a function
-/

namespace WindowSurvey

/-- A gray picture. -/
structure Gray where
  width : Nat
  height : Nat
  pixels : Array UInt8
  size_eq : pixels.size = width * height

namespace Gray

/-- The place of a pixel in the buffer lies inside the buffer. -/
theorem index_lt {x y width height : Nat} (hx : x < width) (hy : y < height) :
    y * width + x < width * height := by
  have h : (y + 1) * width ≤ height * width := Nat.mul_le_mul_right width hy
  rw [Nat.add_mul, Nat.one_mul] at h
  rw [Nat.mul_comm width height]
  omega

/-- The brightness at column `x` of row `y`; zero outside the picture. -/
def pixel (g : Gray) (x y : Nat) : UInt8 :=
  if h : x < g.width ∧ y < g.height then
    have : y * g.width + x < g.pixels.size := by
      rw [g.size_eq]; exact index_lt h.1 h.2
    g.pixels[y * g.width + x]
  else 0

/-- The picture whose pixel at column `x` of row `y` is `f x y`. -/
def build (width height : Nat) (f : Nat → Nat → UInt8) : Gray where
  width := width
  height := height
  pixels := Array.ofFn fun i : Fin (width * height) => f (i % width) (i / width)
  size_eq := by simp

/-- Apply a function to every pixel. -/
def map (g : Gray) (f : UInt8 → UInt8) : Gray where
  width := g.width
  height := g.height
  pixels := g.pixels.map f
  size_eq := by simp [g.size_eq]

@[simp] theorem width_build (w h : Nat) (f : Nat → Nat → UInt8) : (build w h f).width = w := rfl

@[simp] theorem height_build (w h : Nat) (f : Nat → Nat → UInt8) : (build w h f).height = h := rfl

theorem pixel_build (w h : Nat) (f : Nat → Nat → UInt8) (x y : Nat) :
    (build w h f).pixel x y = if x < w ∧ y < h then f x y else 0 := by
  unfold pixel
  by_cases hxy : x < w ∧ y < h
  · have hw : 0 < w := by omega
    simp [hxy, build, Nat.mul_comm y w, Nat.mul_add_div hw, Nat.div_eq_of_lt hxy.1,
      Nat.mod_eq_of_lt hxy.1]
  · simp [hxy]

/-- A picture is known by its function inside. -/
theorem build_congr {w h : Nat} {f f' : Nat → Nat → UInt8}
    (hf : ∀ x < w, ∀ y < h, f x y = f' x y) : build w h f = build w h f' := by
  have hpixels : (Array.ofFn fun i : Fin (w * h) => f (i % w) (i / w)) =
      Array.ofFn fun i : Fin (w * h) => f' (i % w) (i / w) := by
    refine congrArg Array.ofFn (funext fun i => ?_)
    have hw : 0 < w := Nat.pos_of_ne_zero fun h0 => by
      have := i.isLt
      simp [h0] at this
    exact hf _ (Nat.mod_lt _ hw) _ (Nat.div_lt_of_lt_mul i.isLt)
  simp only [build, hpixels]

theorem map_build (w h : Nat) (f : Nat → Nat → UInt8) (k : UInt8 → UInt8) :
    (build w h f).map k = build w h fun x y => k (f x y) := by
  simp only [map, build, Array.map_ofFn, Function.comp_def]

/-- The buffer holds the pixels row by row. -/
theorem getElem?_pixels (g : Gray) {x y : Nat} (hx : x < g.width) (hy : y < g.height) :
    g.pixels[y * g.width + x]? = some (g.pixel x y) := by
  have hlt : y * g.width + x < g.pixels.size := by
    rw [g.size_eq]
    exact index_lt hx hy
  rw [Array.getElem?_eq_getElem hlt, pixel, dif_pos ⟨hx, hy⟩]

theorem pixel_map (g : Gray) (f : UInt8 → UInt8) (x y : Nat) :
    (g.map f).pixel x y = if x < g.width ∧ y < g.height then f (g.pixel x y) else 0 := by
  unfold pixel
  by_cases hxy : x < g.width ∧ y < g.height
  · simp [hxy, map]
  · simp [hxy, map]

theorem pixel_of_le_width (g : Gray) {x y : Nat} (h : g.width ≤ x) : g.pixel x y = 0 := by
  have hxy : ¬ (x < g.width ∧ y < g.height) := by omega
  simp [pixel, hxy]

theorem pixel_of_le_height (g : Gray) {x y : Nat} (h : g.height ≤ y) : g.pixel x y = 0 := by
  have hxy : ¬ (x < g.width ∧ y < g.height) := by omega
  simp [pixel, hxy]

end Gray

end WindowSurvey
