import WindowSurvey.Outline.Trace
/-!
# What tracing finds

Tracing marks pixels in a buffer. What it finds can be said without the buffer: a grid pixel is the corner of
a box when it is foreground and lies in the square of no earlier corner, and the box covers the corner with
the foreground of its square that no earlier square holds.

## Main definitions

* `Extent.IsHull` — the least rows and columns that hold a set of pixels
* `Tracing.InSquare`, `Tracing.Taken` — the squares searched from corners
* `Tracing.corners` — the corners, chosen one after the other from the grid
* `Tracing.Boxed` — the boxes of a list of corners
-/

namespace WindowSurvey

namespace Gray

/-- Whether a pixel is foreground. -/
def IsForeground (g : Gray) (x y : Nat) : Prop := g.pixel x y ≠ background

instance (g : Gray) (x y : Nat) : Decidable (g.IsForeground x y) :=
  inferInstanceAs (Decidable (g.pixel x y ≠ background))

/-- Outside the picture is no foreground. -/
theorem IsForeground.lt {g : Gray} {x y : Nat} (h : g.IsForeground x y) :
    x < g.width ∧ y < g.height := by
  constructor
  · exact Nat.lt_of_not_le fun hx => h (g.pixel_of_le_width hx)
  · exact Nat.lt_of_not_le fun hy => h (g.pixel_of_le_height hy)

end Gray

/-! ## Hulls -/

namespace Extent

/-- The extent holds a set of pixels, and each of its four sides touches the set. -/
structure IsHull (e : Extent) (S : Nat → Nat → Prop) : Prop where
  covers : ∀ {x y}, S x y → e.minX ≤ x ∧ x ≤ e.maxX ∧ e.minY ≤ y ∧ y ≤ e.maxY
  left : ∃ y, S e.minX y
  right : ∃ y, S e.maxX y
  top : ∃ x, S x e.minY
  bottom : ∃ x, S x e.maxY

variable {e e' : Extent} {S T : Nat → Nat → Prop}

theorem IsHull.congr (h : e.IsHull S) (hST : ∀ x y, S x y ↔ T x y) : e.IsHull T := by
  have : S = T := funext fun x => funext fun y => propext (hST x y)
  exact this ▸ h

/-- The hull of a set holds the hull of a part of it. -/
theorem IsHull.mono (h : e.IsHull S) (h' : e'.IsHull T) (hTS : ∀ x y, T x y → S x y) :
    (e.minX ≤ e'.minX ∧ e'.maxX ≤ e.maxX) ∧ e.minY ≤ e'.minY ∧ e'.maxY ≤ e.maxY := by
  obtain ⟨y₁, hleft⟩ := h'.left
  obtain ⟨y₂, hright⟩ := h'.right
  obtain ⟨x₁, htop⟩ := h'.top
  obtain ⟨x₂, hbottom⟩ := h'.bottom
  exact ⟨⟨(h.covers (hTS _ _ hleft)).1, (h.covers (hTS _ _ hright)).2.1⟩,
    (h.covers (hTS _ _ htop)).2.2.1, (h.covers (hTS _ _ hbottom)).2.2.2⟩

theorem IsHull.unique (h : e.IsHull S) (h' : e'.IsHull S) : e = e' := by
  have hle := h.mono h' fun _ _ => id
  have hge := h'.mono h fun _ _ => id
  cases e
  cases e'
  simp only [Extent.mk.injEq] at hle hge ⊢
  omega

theorem isHull_point (x y : Nat) : (point x y).IsHull fun u v => u = x ∧ v = y where
  covers h := by
    simp only [point]
    omega
  left := ⟨y, rfl, rfl⟩
  right := ⟨y, rfl, rfl⟩
  top := ⟨x, rfl, rfl⟩
  bottom := ⟨x, rfl, rfl⟩

theorem IsHull.cover (h : e.IsHull S) (x y : Nat) :
    (e.cover x y).IsHull fun u v => S u v ∨ (u = x ∧ v = y) where
  covers {u v} huv := by
    simp only [Extent.cover]
    rcases huv with huv | ⟨rfl, rfl⟩
    · have := h.covers huv
      omega
    · omega
  left := by
    rcases Nat.le_total e.minX x with hx | hx
    · exact h.left.imp fun v hv => .inl (by simpa [Extent.cover, Nat.min_eq_left hx] using hv)
    · exact ⟨y, .inr ⟨Nat.min_eq_right hx, rfl⟩⟩
  right := by
    rcases Nat.le_total x e.maxX with hx | hx
    · exact h.right.imp fun v hv => .inl (by simpa [Extent.cover, Nat.max_eq_left hx] using hv)
    · exact ⟨y, .inr ⟨Nat.max_eq_right hx, rfl⟩⟩
  top := by
    rcases Nat.le_total e.minY y with hy | hy
    · exact h.top.imp fun u hu => .inl (by simpa [Extent.cover, Nat.min_eq_left hy] using hu)
    · exact ⟨x, .inr ⟨rfl, Nat.min_eq_right hy⟩⟩
  bottom := by
    rcases Nat.le_total y e.maxY with hy | hy
    · exact h.bottom.imp fun u hu => .inl (by simpa [Extent.cover, Nat.max_eq_left hy] using hu)
    · exact ⟨x, .inr ⟨rfl, Nat.max_eq_right hy⟩⟩

end Extent

/-! ## Claiming a square -/

namespace Claim

variable {g : Gray} {c c' c'' : Claim} {S T : Nat → Nat → Prop}

/-- Whether a pixel of the picture is claimed. -/
def IsClaimed (g : Gray) (c : Claim) (x y : Nat) : Prop :=
  c.claimed.getD (y * g.width + x) true = true

/-- The second claim is the first one after all foreground of a set has been claimed: the box has grown by what
was free of it. -/
structure Extends (g : Gray) (S : Nat → Nat → Prop) (c c' : Claim) : Prop where
  size : c'.claimed.size = c.claimed.size
  claimed : ∀ {x y}, x < g.width → y < g.height →
    (c'.IsClaimed g x y ↔ c.IsClaimed g x y ∨ S x y ∧ g.IsForeground x y)
  hull : ∀ {T : Nat → Nat → Prop}, c.extent.IsHull T → c'.extent.IsHull fun x y =>
    T x y ∨ S x y ∧ g.IsForeground x y ∧ ¬ c.IsClaimed g x y

theorem Extends.congr (h : Extends g S c c') (hST : ∀ x y, S x y ↔ T x y) : Extends g T c c' := by
  have : S = T := funext fun x => funext fun y => propext (hST x y)
  exact this ▸ h

/-- A buffer holds each pixel at a place of its own. -/
theorem index_inj {width x y u v : Nat} (hx : x < width) (hu : u < width) :
    y * width + x = v * width + u ↔ u = x ∧ v = y := by
  constructor
  · intro h
    have hdiv := congrArg (· / width) h
    have hmod := congrArg (· % width) h
    simp only [Nat.mul_comm _ width, Nat.mul_add_div (Nat.zero_lt_of_lt hx), Nat.div_eq_of_lt hx,
      Nat.div_eq_of_lt hu, Nat.mul_add_mod, Nat.mod_eq_of_lt hx, Nat.mod_eq_of_lt hu] at hdiv hmod
    omega
  · rintro ⟨rfl, rfl⟩
    rfl

theorem extends_empty (g : Gray) (c : Claim) : Extends g (fun _ _ => False) c c where
  size := rfl
  claimed _ _ := by simp
  hull h := h.congr fun x y => by simp

theorem Extends.trans (h : Extends g S c c') (h' : Extends g T c' c'') :
    Extends g (fun x y => S x y ∨ T x y) c c'' where
  size := h'.size.trans h.size
  claimed hx hy := by
    rw [h'.claimed hx hy, h.claimed hx hy]
    grind
  hull hT := (h'.hull (h.hull hT)).congr fun x y => by
    by_cases hf : g.IsForeground x y
    · rw [h.claimed hf.lt.1 hf.lt.2]
      grind
    · simp [hf]

theorem extends_pixel {x y : Nat} (hx : x < g.width) (hy : y < g.height)
    (hsize : c.claimed.size = g.pixels.size) :
    Extends g (fun u v => u = x ∧ v = y) c (c.pixel g x y) := by
  obtain ⟨claimed, extent⟩ := c
  by_cases hskip : (g.pixel x y == Gray.background || claimed.getD (y * g.width + x) true) = true
  · have hnone {u v : Nat} (huv : u = x ∧ v = y) (hf : g.IsForeground u v) :
        IsClaimed g ⟨claimed, extent⟩ u v := by
      obtain ⟨rfl, rfl⟩ := huv
      rw [Bool.or_eq_true, beq_iff_eq] at hskip
      exact hskip.resolve_left hf
    rw [pixel, if_pos hskip]
    exact {
      size := rfl
      claimed := fun _ _ => ⟨.inl, fun h => h.elim id fun h => hnone h.1 h.2⟩
      hull := fun hT => hT.congr fun u v =>
        ⟨.inl, fun h => h.elim id fun h => absurd (hnone h.1 h.2.1) h.2.2⟩ }
  · rw [pixel, if_neg hskip]
    rw [Bool.or_eq_true, beq_iff_eq, not_or] at hskip
    obtain ⟨hf, hfree⟩ := hskip
    have hindex {u v : Nat} (hu : u < g.width) : y * g.width + x = v * g.width + u ↔ u = x ∧ v = y :=
      index_inj hx hu
    have hlt : y * g.width + x < claimed.size := by
      rw [show claimed.size = g.pixels.size from hsize, g.size_eq]
      exact Gray.index_lt hx hy
    exact {
      size := Array.size_setIfInBounds
      claimed := fun {u v} hu hv => by
        simp only [IsClaimed, Array.getD_eq_getD_getElem?, Array.getElem?_setIfInBounds, hindex hu]
        by_cases huv : u = x ∧ v = y
        · obtain ⟨rfl, rfl⟩ := huv
          simp [hlt, Gray.IsForeground, hf]
        · simp [huv]
      hull := fun hT => (hT.cover x y).congr fun u v => by
        have : u = x ∧ v = y → g.IsForeground u v ∧ ¬ IsClaimed g ⟨claimed, extent⟩ u v := by
          rintro ⟨rfl, rfl⟩
          exact ⟨hf, hfree⟩
        grind }

theorem extends_row {x y count : Nat} (hx : x + count ≤ g.width) (hy : y < g.height)
    (hsize : c.claimed.size = g.pixels.size) :
    Extends g (fun u v => (x ≤ u ∧ u < x + count) ∧ v = y) c (row g y count x c) := by
  induction count generalizing x c with
  | zero => exact (extends_empty g c).congr fun u v => ⟨False.elim, fun h => by omega⟩
  | succ count ih =>
    have hpixel := extends_pixel (c := c) (show x < g.width by omega) hy hsize
    refine (hpixel.trans (ih (by omega) (hpixel.size.trans hsize))).congr fun u v => ?_
    omega

theorem extends_square {x y count rows : Nat} (hx : x + count ≤ g.width) (hy : y + rows ≤ g.height)
    (hsize : c.claimed.size = g.pixels.size) :
    Extends g (fun u v => (x ≤ u ∧ u < x + count) ∧ y ≤ v ∧ v < y + rows) c
      (square g x count rows y c) := by
  induction rows generalizing y c with
  | zero => exact (extends_empty g c).congr fun u v => ⟨False.elim, fun h => by omega⟩
  | succ rows ih =>
    have hrow := extends_row (c := c) hx (show y < g.height by omega) hsize
    refine (hrow.trans (ih (by omega) (hrow.size.trans hsize))).congr fun u v => ?_
    omega

end Claim

/-! ## Corners and their boxes -/

namespace Tracing

variable {g : Gray} {window : Nat} {cs : List (Nat × Nat)} {bs : List PixelBox} {t : Tracing}
  {c p : Nat × Nat} {x y : Nat}

/-- Whether a pixel lies in the square that is searched from a corner. -/
def InSquare (window : Nat) (c : Nat × Nat) (x y : Nat) : Prop :=
  (c.1 ≤ x ∧ x < c.1 + window) ∧ c.2 ≤ y ∧ y < c.2 + window

instance (window : Nat) (c : Nat × Nat) (x y : Nat) : Decidable (InSquare window c x y) :=
  inferInstanceAs (Decidable (_ ∧ _))

/-- Whether a pixel lies in the square of a corner of the list. -/
def Taken (window : Nat) (cs : List (Nat × Nat)) (x y : Nat) : Prop := ∃ c ∈ cs, InSquare window c x y

instance (window : Nat) (cs : List (Nat × Nat)) (x y : Nat) : Decidable (Taken window cs x y) :=
  inferInstanceAs (Decidable (∃ c ∈ cs, InSquare window c x y))

theorem taken_cons : Taken window (c :: cs) x y ↔ InSquare window c x y ∨ Taken window cs x y := by
  simp [Taken]

/-- The pixels that a corner claims when the corners of the list were there before. -/
def Share (g : Gray) (window : Nat) (cs : List (Nat × Nat)) (c : Nat × Nat) (x y : Nat) : Prop :=
  g.IsForeground x y ∧ InSquare window c x y ∧ ¬ Taken window cs x y

/-- The corners and their boxes, last first. A corner is a foreground pixel outside of all earlier squares, and
its box is the hull of the corner with its share. -/
inductive Boxed (g : Gray) (window : Nat) : List (Nat × Nat) → List PixelBox → Prop
  | nil : Boxed g window [] []
  | cons {c : Nat × Nat} {cs : List (Nat × Nat)} {e : Extent} {bs : List PixelBox}
      (foreground : g.IsForeground c.1 c.2) (free : ¬ Taken window cs c.1 c.2)
      (hull : e.IsHull fun x y => (x = c.1 ∧ y = c.2) ∨ Share g window cs c x y)
      (rest : Boxed g window cs bs) : Boxed g window (c :: cs) (e.toBox :: bs)

/-- The corners after one more pixel of the grid, last first. -/
def addCorner (g : Gray) (window : Nat) (cs : List (Nat × Nat)) (p : Nat × Nat) : List (Nat × Nat) :=
  if g.IsForeground p.1 p.2 ∧ ¬ Taken window cs p.1 p.2 then p :: cs else cs

/-- A state of tracing holds what the corners found so far account for. -/
structure Represents (g : Gray) (window : Nat) (cs : List (Nat × Nat)) (t : Tracing) : Prop where
  size : t.claimed.size = g.pixels.size
  claimed : ∀ {x y}, x < g.width → y < g.height →
    (t.claimed.getD (y * g.width + x) true = true ↔ g.IsForeground x y ∧ Taken window cs x y)
  boxed : Boxed g window cs t.boxes

theorem represents_start (g : Gray) (window : Nat) : Represents g window [] (start g) where
  size := Array.size_replicate
  claimed {x y} hx hy := by
    have hlt : y * g.width + x < g.width * g.height := Gray.index_lt hx hy
    simp [start, Taken, Array.getD_eq_getD_getElem?, g.size_eq, hlt]
  boxed := .nil

/-- One step of tracing is one step of choosing corners. -/
theorem Represents.seed (h : Represents g window cs t) (hx : x < g.width) (hy : y < g.height) :
    Represents g window (addCorner g window cs (x, y)) (t.seed g window x y) := by
  obtain ⟨claimed, boxes⟩ := t
  have hclaimed := h.claimed hx hy
  by_cases hskip : (g.pixel x y == Gray.background || claimed.getD (y * g.width + x) true) = true
  · have hno : ¬ (g.IsForeground x y ∧ ¬ Taken window cs x y) := by
      rw [Bool.or_eq_true, beq_iff_eq, hclaimed] at hskip
      rintro ⟨hf, hfree⟩
      exact hskip.elim hf fun h => hfree h.2
    rw [addCorner, if_neg hno, Tracing.seed, if_pos hskip]
    exact h
  · rw [Tracing.seed, if_neg hskip]
    rw [Bool.or_eq_true, beq_iff_eq, not_or, hclaimed] at hskip
    obtain ⟨hf, hfree⟩ := hskip
    have hfree : ¬ Taken window cs x y := fun ht => hfree ⟨hf, ht⟩
    rw [addCorner, if_pos ⟨hf, hfree⟩]
    have hext := Claim.extends_square (c := ⟨claimed, Extent.point x y⟩)
      (show x + (min (x + window) g.width - x) ≤ g.width by omega)
      (show y + (min (y + window) g.height - y) ≤ g.height by omega) h.size
    have hsquare {u v : Nat} (hu : u < g.width) (hv : v < g.height) :
        ((x ≤ u ∧ u < x + (min (x + window) g.width - x)) ∧
          y ≤ v ∧ v < y + (min (y + window) g.height - y)) ↔ InSquare window (x, y) u v := by
      simp only [InSquare]
      omega
    have hbefore {u v : Nat} (hu : u < g.width) (hv : v < g.height) :
        Claim.IsClaimed g ⟨claimed, Extent.point x y⟩ u v ↔
          g.IsForeground u v ∧ Taken window cs u v := h.claimed hu hv
    simp only
    generalize Claim.square g x (min (x + window) g.width - x) (min (y + window) g.height - y) y
      ⟨claimed, Extent.point x y⟩ = after at hext
    exact {
      size := hext.size.trans h.size
      claimed := fun {u v} hu hv => by
        refine (hext.claimed hu hv).trans ?_
        rw [hbefore hu hv, hsquare hu hv, taken_cons]
        by_cases hf : g.IsForeground u v <;> simp [hf, or_comm]
      boxed := .cons hf hfree ((hext.hull (Extent.isHull_point x y)).congr fun u v => by
        by_cases huv : g.IsForeground u v
        · rw [hbefore huv.lt.1 huv.lt.2, hsquare huv.lt.1 huv.lt.2]
          simp [Share, huv]
        · simp [Share, huv]) h.boxed }

/-! ## The whole picture -/

/-- The pixels of the grid, row by row. -/
def grid (g : Gray) (stride : Nat) : List (Nat × Nat) :=
  (gridLine stride g.height).flatMap fun y => (gridLine stride g.width).map fun x => (x, y)

/-- The corners of a picture, last first. -/
def corners (g : Gray) (stride window : Nat) : List (Nat × Nat) :=
  (grid g stride).foldl (addCorner g window) []

theorem mem_gridLine {stride limit n : Nat} (hs : 0 < stride) :
    n ∈ gridLine stride limit ↔ stride ∣ n ∧ n < limit := by
  simp only [gridLine, List.mem_map, List.mem_range]
  constructor
  · rintro ⟨k, hk, rfl⟩
    refine ⟨Nat.dvd_mul_left stride k, ?_⟩
    have h := (Nat.lt_div_iff_mul_lt hs).1 hk
    omega
  · rintro ⟨⟨k, rfl⟩, hk⟩
    refine ⟨k, (Nat.lt_div_iff_mul_lt hs).2 ?_, Nat.mul_comm k stride⟩
    rw [Nat.mul_comm]
    omega

theorem mem_grid {stride : Nat} (hs : 0 < stride) :
    (x, y) ∈ grid g stride ↔ (stride ∣ x ∧ x < g.width) ∧ stride ∣ y ∧ y < g.height := by
  simp only [grid, List.mem_flatMap, List.mem_map, mem_gridLine hs, Prod.mk.injEq]
  grind

/-- Whether a pixel is read before another one: in a row further up, or in the same row further left. -/
def Before (p q : Nat × Nat) : Prop := p.2 < q.2 ∨ p.2 = q.2 ∧ p.1 < q.1

theorem pairwise_gridLine {stride : Nat} (hs : 0 < stride) (limit : Nat) :
    (gridLine stride limit).Pairwise (· < ·) := by
  rw [gridLine, List.pairwise_map]
  exact List.pairwise_lt_range.imp fun h => Nat.mul_lt_mul_of_pos_right h hs

/-- The grid is read row by row. -/
theorem pairwise_grid {stride : Nat} (hs : 0 < stride) (g : Gray) :
    (grid g stride).Pairwise Before := by
  rw [grid, List.pairwise_flatMap]
  refine ⟨fun y _ => ?_, (pairwise_gridLine hs _).imp fun hy p hp q hq => ?_⟩
  · rw [List.pairwise_map]
    exact (pairwise_gridLine hs _).imp fun hx => .inr ⟨rfl, hx⟩
  · obtain ⟨_, -, rfl⟩ := List.mem_map.1 hp
    obtain ⟨_, -, rfl⟩ := List.mem_map.1 hq
    exact .inl hy

theorem Represents.seeds {ps : List (Nat × Nat)} (h : Represents g window cs t)
    (hps : ∀ p ∈ ps, p.1 < g.width ∧ p.2 < g.height) :
    Represents g window (ps.foldl (addCorner g window) cs)
      (ps.foldl (fun t p => t.seed g window p.1 p.2) t) := by
  induction ps generalizing cs t with
  | nil => exact h
  | cons p ps ih =>
    have hp := hps p List.mem_cons_self
    exact ih (h.seed hp.1 hp.2) fun q hq => hps q (List.mem_cons_of_mem p hq)

/-- The state of tracing after the last seed. -/
def whole (g : Gray) (stride window : Nat) : Tracing :=
  (gridLine (max stride 1) g.height).foldl
    (fun t y => (gridLine (max stride 1) g.width).foldl (fun t x => t.seed g window x y) t) (start g)

theorem traceBoxes_eq (g : Gray) (stride window : Nat) :
    traceBoxes g stride window = (whole g stride window).boxes.reverse := rfl

/-- In the end what is marked, and what is boxed, is what the corners account for. -/
theorem represents_whole (g : Gray) (stride window : Nat) :
    Represents g window (corners g (max stride 1) window) (whole g stride window) := by
  have hgrid : ∀ p ∈ grid g (max stride 1), p.1 < g.width ∧ p.2 < g.height := fun p hp => by
    have := (mem_grid (by omega)).1 hp
    exact ⟨this.1.2, this.2.2⟩
  have h := (represents_start g window).seeds hgrid
  refine Eq.subst (motive := Represents g window _) ?_ h
  simp only [whole, grid, List.foldl_flatMap, List.foldl_map]

/-- The boxes of a picture are the boxes of its corners. -/
theorem boxed_traceBoxes (g : Gray) (stride window : Nat) :
    Boxed g window (corners g (max stride 1) window) (traceBoxes g stride window).reverse := by
  rw [traceBoxes_eq, List.reverse_reverse]
  exact (represents_whole g stride window).boxed

end Tracing

end WindowSurvey
