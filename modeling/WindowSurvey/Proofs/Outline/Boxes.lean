import WindowSurvey.Proofs.Outline.Tracing
/-!
# The boxes of a picture

A box begins at its corner, lies in the picture and is no larger than the square searched from the corner.
Which grid pixels are corners is decided by the foreground alone: a corner is a foreground pixel of the grid
that lies in the square of no corner read before it.

## Main definitions

* `PixelBox.LiesIn` — boxes with pixels, all of them in the picture
-/

namespace WindowSurvey

/-- The box has pixels, and all of them lie in a picture of the given sides. -/
structure PixelBox.LiesIn (b : PixelBox) (width height : Nat) : Prop where
  width_pos : 0 < b.width
  height_pos : 0 < b.height
  right_le : b.x + b.width ≤ width
  bottom_le : b.y + b.height ≤ height

namespace Tracing

variable {g : Gray} {window : Nat} {cs : List (Nat × Nat)} {bs : List PixelBox} {c : Nat × Nat}
  {e : Extent} {b : PixelBox}

/-! ## One box -/

/-- The hull of a corner with its share begins at the corner. -/
theorem hull_corner (h : e.IsHull fun x y => (x = c.1 ∧ y = c.2) ∨ Share g window cs c x y) :
    e.minX = c.1 ∧ e.minY = c.2 ∧ c.1 ≤ e.maxX ∧ c.2 ≤ e.maxY := by
  have hle {x y : Nat} (hxy : (x = c.1 ∧ y = c.2) ∨ Share g window cs c x y) : c.1 ≤ x ∧ c.2 ≤ y := by
    rcases hxy with ⟨rfl, rfl⟩ | ⟨-, hsquare, -⟩
    · exact ⟨Nat.le_refl _, Nat.le_refl _⟩
    · exact ⟨hsquare.1.1, hsquare.2.1⟩
  have hcorner := h.covers (.inl ⟨rfl, rfl⟩)
  obtain ⟨y, hy⟩ := h.left
  obtain ⟨x, hx⟩ := h.top
  have h₁ := (hle hy).1
  have h₂ := (hle hx).2
  omega

/-- A box begins at its corner, lies in the picture, and is no larger than the square searched. -/
theorem toBox_of_hull (hc : g.IsForeground c.1 c.2)
    (h : e.IsHull fun x y => (x = c.1 ∧ y = c.2) ∨ Share g window cs c x y) :
    (e.toBox.x, e.toBox.y) = c ∧ e.toBox.LiesIn g.width g.height ∧
      e.toBox.width ≤ max window 1 ∧ e.toBox.height ≤ max window 1 := by
  have hbound {x y : Nat} (hxy : (x = c.1 ∧ y = c.2) ∨ Share g window cs c x y) :
      (x < g.width ∧ y < g.height) ∧ x < c.1 + max window 1 ∧ y < c.2 + max window 1 := by
    rcases hxy with ⟨rfl, rfl⟩ | ⟨hf, hsquare, -⟩
    · exact ⟨hc.lt, by omega, by omega⟩
    · exact ⟨hf.lt, by have := hsquare.1.2; omega, by have := hsquare.2.2; omega⟩
  obtain ⟨hx, hy, hx', hy'⟩ := hull_corner h
  obtain ⟨y, hright⟩ := h.right
  obtain ⟨x, hbottom⟩ := h.bottom
  have h₁ := hbound hright
  have h₂ := hbound hbottom
  refine ⟨Prod.ext hx hy, ⟨?_, ?_, ?_, ?_⟩, ?_, ?_⟩ <;>
    simp only [Extent.toBox] <;> omega

/-! ## All boxes -/

theorem Boxed.map_corner (h : Boxed g window cs bs) : bs.map (fun b => (b.x, b.y)) = cs := by
  induction h with
  | nil => rfl
  | cons hf _ hull _ ih => rw [List.map_cons, ih, (toBox_of_hull hf hull).1]

theorem Boxed.liesIn (h : Boxed g window cs bs) (hb : b ∈ bs) :
    b.LiesIn g.width g.height ∧ b.width ≤ max window 1 ∧ b.height ≤ max window 1 := by
  induction h with
  | nil => cases hb
  | cons hf _ hull _ ih =>
    rcases List.mem_cons.1 hb with rfl | hb
    · exact (toBox_of_hull hf hull).2
    · exact ih hb

theorem liesIn_of_mem_traceBoxes {stride : Nat} (h : b ∈ traceBoxes g stride window) :
    b.LiesIn g.width g.height :=
  ((boxed_traceBoxes g stride window).liesIn (List.mem_reverse.2 h)).1

theorem le_window_of_mem_traceBoxes {stride : Nat} (h : b ∈ traceBoxes g stride window) :
    b.width ≤ max window 1 ∧ b.height ≤ max window 1 :=
  ((boxed_traceBoxes g stride window).liesIn (List.mem_reverse.2 h)).2

/-- Boxes are known when it is known what the hull of each corner is. -/
theorem Boxed.eq_map {α : Type} {as : List α} {corner : α → Nat × Nat} {box : α → PixelBox}
    (h : Boxed g window (as.map corner) bs)
    (hbox : ∀ a before, a :: before <:+ as → ∀ e : Extent, e.IsHull (fun x y =>
      (x = (corner a).1 ∧ y = (corner a).2) ∨ Share g window (before.map corner) (corner a) x y) →
        e.toBox = box a) :
    bs = as.map box := by
  induction as generalizing bs with
  | nil =>
    cases h
    rfl
  | cons a as ih =>
    cases h with
    | cons _ _ hull rest =>
      rw [List.map_cons, hbox a as (List.suffix_refl _) _ hull,
        ih rest fun b before hb => hbox b before (hb.trans (List.suffix_cons _ _))]

/-! ## Which pixels are corners -/

theorem Before.asymm {p q : Nat × Nat} (h : Before p q) : ¬ Before q p := by
  unfold Before at *
  omega

instance : Std.Irrefl Before := ⟨fun _ h => h.asymm h⟩

instance : Std.Antisymm Before := ⟨fun _ _ h h' => absurd h' h.asymm⟩

/-- A set of grid pixels is the set of corners when its members are the foreground pixels of the grid that lie
in the square of no earlier member. -/
theorem foldl_addCorner_eq_filter {ps : List (Nat × Nat)} (hps : ps.Pairwise Before)
    (isCorner : Nat × Nat → Bool)
    (h : ∀ p ∈ ps, isCorner p = true ↔ g.IsForeground p.1 p.2 ∧
      ∀ c ∈ ps, Before c p → isCorner c = true → ¬ InSquare window c p.1 p.2) :
    ps.foldl (addCorner g window) [] = (ps.filter isCorner).reverse := by
  suffices hrest : ∀ rest done, ps = done ++ rest →
      rest.foldl (addCorner g window) (done.filter isCorner).reverse = (ps.filter isCorner).reverse
    from hrest ps [] rfl
  intro rest
  induction rest with
  | nil =>
    rintro done rfl
    rw [List.append_nil]
    rfl
  | cons p rest ih =>
    intro done he
    have hp : p ∈ ps := by simp [he]
    -- the pixels read before this one are those that are done
    have hdone (c : Nat × Nat) : c ∈ done ↔ c ∈ ps ∧ Before c p := by
      rw [he, List.pairwise_append, List.pairwise_cons] at hps
      constructor
      · intro hc
        exact ⟨by simp [he, hc], hps.2.2 c hc p List.mem_cons_self⟩
      · rintro ⟨hc, hbefore⟩
        rw [he, List.mem_append, List.mem_cons] at hc
        rcases hc with hc | rfl | hc
        · exact hc
        · exact absurd hbefore hbefore.asymm
        · exact absurd hbefore (hps.2.1.1 c hc).asymm
    have htaken : (g.IsForeground p.1 p.2 ∧
        ¬ Taken window (done.filter isCorner).reverse p.1 p.2) ↔ isCorner p = true := by
      rw [h p hp]
      refine and_congr_right fun _ => ?_
      simp only [Taken, List.mem_reverse, List.mem_filter, not_exists, not_and, hdone]
      exact ⟨fun h c hc hbefore hcorner => h c ⟨⟨hc, hbefore⟩, hcorner⟩,
        fun h c hc => h c hc.1.1 hc.1.2 hc.2⟩
    have hstep : addCorner g window (done.filter isCorner).reverse p =
        ((done ++ [p]).filter isCorner).reverse := by
      by_cases hcorner : isCorner p = true
      · rw [addCorner, if_pos (htaken.2 hcorner)]
        simp [hcorner]
      · rw [addCorner, if_neg fun h => hcorner (htaken.1 h)]
        simp [hcorner]
    rw [List.foldl_cons, hstep]
    exact ih (done ++ [p]) (by simp [he])

end Tracing

end WindowSurvey
