import WindowSurvey.Proofs.Outline.Boxes
/-!
# How tracing divides the foreground

Every box has a claim: the foreground of the square searched from its corner that lies in the square of no
earlier corner. The claims are what tracing marks. No two of them share a pixel, each box is the hull of its
corner and its claim, and together they are the foreground of all squares. Said this way neither corners nor
boxes depend on the order of the scan any more, but for the order of the corners themselves.

## Main definitions

* `PixelBox.corner`, `PixelBox.Holds` — the upper left pixel of a box, and all of its pixels
* `Tracing.Claims` — the pixels that a corner claims among other corners
* `Tracing.Spans` — a box is the hull of its corner and its claim
* `Tracing.Divides` — boxes and claims that divide the foreground of a picture

## Main statements

* `Tracing.mem_corners_iff`, `Tracing.mem_traceBoxes_iff` — which pixels are corners, and which boxes are found
* `Tracing.divides_traceBoxes` — what tracing marks is divided among the boxes it finds
-/

namespace WindowSurvey

namespace PixelBox

/-- The upper left pixel. -/
def corner (b : PixelBox) : Nat × Nat := (b.x, b.y)

/-- Whether a pixel lies in the box. -/
def Holds (b : PixelBox) (x y : Nat) : Prop :=
  (b.x ≤ x ∧ x < b.x + b.width) ∧ b.y ≤ y ∧ y < b.y + b.height

end PixelBox

/-- The box of a hull holds all that the hull was made of. -/
theorem Extent.IsHull.holds {e : Extent} {S : Nat → Nat → Prop} (h : e.IsHull S) {x y : Nat}
    (hxy : S x y) : e.toBox.Holds x y := by
  have := h.covers hxy
  simp only [PixelBox.Holds, toBox]
  omega

namespace Tracing

variable {g : Gray} {stride window : Nat} {cs ps : List (Nat × Nat)} {bs : List PixelBox}
  {b : PixelBox} {c p : Nat × Nat} {x y : Nat}

/-! ## Corners -/

theorem foldl_addCorner_sublist (ps cs : List (Nat × Nat)) :
    (ps.foldl (addCorner g window) cs).reverse.Sublist (cs.reverse ++ ps) := by
  induction ps generalizing cs with
  | nil => simp
  | cons p ps ih =>
    rw [List.foldl_cons, addCorner]
    split
    · simpa using ih (p :: cs)
    · exact (ih cs).trans (List.Sublist.append_left (List.sublist_cons_self p ps) _)

theorem subset_foldl_addCorner (ps cs : List (Nat × Nat)) :
    cs ⊆ ps.foldl (addCorner g window) cs := by
  induction ps generalizing cs with
  | nil => exact List.Subset.refl cs
  | cons p ps ih =>
    refine List.Subset.trans ?_ (ih (addCorner g window cs p))
    rw [addCorner]
    split
    · exact List.subset_cons_self p cs
    · exact List.Subset.refl cs

/-- A foreground pixel of the grid becomes a corner unless it lies in the square of an earlier one. -/
theorem mem_foldl_addCorner_or (hps : ps.Pairwise Before) (hcs : ∀ c ∈ cs, ∀ q ∈ ps, Before c q)
    (hp : p ∈ ps) (hf : g.IsForeground p.1 p.2) :
    p ∈ ps.foldl (addCorner g window) cs ∨
      ∃ c ∈ ps.foldl (addCorner g window) cs, Before c p ∧ InSquare window c p.1 p.2 := by
  induction ps generalizing cs with
  | nil => cases hp
  | cons q ps ih =>
    rw [List.foldl_cons]
    rcases List.mem_cons.1 hp with rfl | hp
    · by_cases ht : Taken window cs p.1 p.2
      · obtain ⟨c, hc, hsquare⟩ := ht
        have hno : addCorner g window cs p = cs := if_neg fun h => h.2 ⟨c, hc, hsquare⟩
        rw [hno]
        exact .inr ⟨c, subset_foldl_addCorner ps cs hc, hcs c hc p List.mem_cons_self, hsquare⟩
      · have hadd : addCorner g window cs p = p :: cs := if_pos ⟨hf, ht⟩
        rw [hadd]
        exact .inl (subset_foldl_addCorner ps (p :: cs) List.mem_cons_self)
    · rw [List.pairwise_cons] at hps
      refine ih hps.2 (fun c hc r hr => ?_) hp
      have hc' : c = q ∨ c ∈ cs := by
        rw [addCorner] at hc
        split at hc
        · exact List.mem_cons.1 hc
        · exact .inr hc
      rcases hc' with rfl | hc'
      · exact hps.1 r hr
      · exact hcs c hc' r (List.mem_cons_of_mem _ hr)

/-- Later corners stand further in front, since corners are listed last first. -/
theorem pairwise_corners (hs : 0 < stride) (g : Gray) (window : Nat) :
    (corners g stride window).Pairwise fun a b => Before b a :=
  List.pairwise_reverse.1 ((pairwise_grid hs g).sublist (foldl_addCorner_sublist _ []))

/-- Corners are foreground and lie in the square of no earlier corner. -/
theorem Boxed.free_of_mem (h : Boxed g window cs bs) (hcs : cs.Pairwise fun a b => Before b a)
    (hc : c ∈ cs) : g.IsForeground c.1 c.2 ∧
      ∀ a ∈ cs, Before a c → ¬ InSquare window a c.1 c.2 := by
  induction h with
  | nil => cases hc
  | @cons c₀ cs _ _ hf hfree _ _ ih =>
    rw [List.pairwise_cons] at hcs
    rcases List.mem_cons.1 hc with rfl | hmem
    · refine ⟨hf, fun a ha hbefore hsquare => ?_⟩
      rcases List.mem_cons.1 ha with rfl | ha
      · exact hbefore.asymm hbefore
      · exact hfree ⟨a, ha, hsquare⟩
    · obtain ⟨hf, hfree⟩ := ih hcs.2 hmem
      refine ⟨hf, fun a ha hbefore => ?_⟩
      rcases List.mem_cons.1 ha with rfl | ha
      · exact absurd (hcs.1 c hmem) hbefore.asymm
      · exact hfree a ha hbefore

theorem mem_corners_or (hs : 0 < stride) (hp : p ∈ grid g stride) (hf : g.IsForeground p.1 p.2) :
    p ∈ corners g stride window ∨
      ∃ c ∈ corners g stride window, Before c p ∧ InSquare window c p.1 p.2 :=
  mem_foldl_addCorner_or (pairwise_grid hs g) (by simp) hp hf

/-- A corner is a foreground pixel of the grid that lies in the square of no corner read before it. -/
theorem mem_corners_iff : c ∈ corners g (max stride 1) window ↔
    c ∈ grid g (max stride 1) ∧ g.IsForeground c.1 c.2 ∧
      ∀ a ∈ corners g (max stride 1) window, Before a c → ¬ InSquare window a c.1 c.2 := by
  have hs : 0 < max stride 1 := by omega
  constructor
  · intro hc
    have hgrid : c ∈ [] ++ grid g (max stride 1) :=
      (foldl_addCorner_sublist _ []).subset (List.mem_reverse.2 hc)
    exact ⟨hgrid, (boxed_traceBoxes g stride window).free_of_mem (pairwise_corners hs g window) hc⟩
  · rintro ⟨hgrid, hf, hfree⟩
    refine (mem_corners_or hs hgrid hf).resolve_right ?_
    rintro ⟨a, ha, hbefore, hsquare⟩
    exact hfree a ha hbefore hsquare

/-- The corners are the corners of the boxes. -/
theorem map_corner_traceBoxes (g : Gray) (stride window : Nat) :
    (traceBoxes g stride window).map PixelBox.corner = (corners g (max stride 1) window).reverse := by
  rw [← (boxed_traceBoxes g stride window).map_corner, List.map_reverse, List.reverse_reverse]
  rfl

theorem mem_corners_iff_exists : c ∈ corners g (max stride 1) window ↔
    ∃ b ∈ traceBoxes g stride window, b.corner = c := by
  rw [← List.mem_reverse, ← map_corner_traceBoxes, List.mem_map]

/-- A pixel lies in the square of a corner when it lies in the square searched for a box. -/
theorem taken_corners_iff : Taken window (corners g (max stride 1) window) x y ↔
    ∃ b ∈ traceBoxes g stride window, InSquare window b.corner x y := by
  constructor
  · rintro ⟨c, hc, hsquare⟩
    obtain ⟨b, hb, rfl⟩ := mem_corners_iff_exists.1 hc
    exact ⟨b, hb, hsquare⟩
  · rintro ⟨b, hb, hsquare⟩
    exact ⟨b.corner, mem_corners_iff_exists.2 ⟨b, hb, rfl⟩, hsquare⟩

/-- Boxes are found in the order in which their corners are read. -/
theorem pairwise_traceBoxes (g : Gray) (stride window : Nat) :
    (traceBoxes g stride window).Pairwise fun a b => Before a.corner b.corner := by
  rw [← List.pairwise_map (f := PixelBox.corner), map_corner_traceBoxes, List.pairwise_reverse]
  exact pairwise_corners (by omega) g window

/-- A box starts at a foreground pixel of the grid. -/
theorem seeded_of_mem_traceBoxes (hb : b ∈ traceBoxes g stride window) :
    g.IsForeground b.x b.y ∧ max stride 1 ∣ b.x ∧ max stride 1 ∣ b.y := by
  obtain ⟨hgrid, hf, -⟩ := mem_corners_iff.1 (mem_corners_iff_exists.2 ⟨b, hb, rfl⟩)
  have hon := (mem_grid (by omega)).1 hgrid
  exact ⟨hf, hon.1.1, hon.2.1⟩

/-! ## Claims -/

/-- The pixels that a corner claims: the foreground of its square that lies in the square of no corner of the
list that is read before it. -/
def Claims (g : Gray) (window : Nat) (cs : List (Nat × Nat)) (c : Nat × Nat) (x y : Nat) : Prop :=
  g.IsForeground x y ∧ InSquare window c x y ∧ ∀ a ∈ cs, Before a c → ¬ InSquare window a x y

/-- A box is the hull of its corner and what its corner claims. -/
def Spans (g : Gray) (window : Nat) (cs : List (Nat × Nat)) (b : PixelBox) : Prop :=
  ∃ e : Extent, e.toBox = b ∧
    e.IsHull fun x y => (x = b.x ∧ y = b.y) ∨ Claims g window cs b.corner x y

/-- Of all corners the last one claims its share. -/
theorem claims_cons_self (hc : ∀ a ∈ cs, Before a c) :
    Claims g window (c :: cs) c x y ↔ Share g window cs c x y := by
  refine and_congr_right fun _ => and_congr_right fun _ => ?_
  constructor
  · rintro h ⟨a, ha, hsquare⟩
    exact h a (List.mem_cons_of_mem c ha) (hc a ha) hsquare
  · intro h a ha hbefore hsquare
    rcases List.mem_cons.1 ha with rfl | ha
    · exact hbefore.asymm hbefore
    · exact h ⟨a, ha, hsquare⟩

/-- A later corner takes nothing away from the claims of earlier ones. -/
theorem claims_cons_of_before {c₀ : Nat × Nat} (hc : Before c c₀) :
    Claims g window (c₀ :: cs) c x y ↔ Claims g window cs c x y := by
  refine and_congr_right fun _ => and_congr_right fun _ => ?_
  constructor
  · exact fun h a ha => h a (List.mem_cons_of_mem c₀ ha)
  · intro h a ha hbefore
    rcases List.mem_cons.1 ha with rfl | ha
    · exact absurd hc hbefore.asymm
    · exact h a ha hbefore

/-- A foreground pixel in some square is claimed by the first corner whose square holds it. -/
theorem exists_claims (hcs : cs.Pairwise fun a b => Before b a) (hf : g.IsForeground x y)
    (ht : Taken window cs x y) : ∃ c ∈ cs, Claims g window cs c x y := by
  induction cs with
  | nil =>
    obtain ⟨_, h, -⟩ := ht
    cases h
  | cons c cs ih =>
    rw [List.pairwise_cons] at hcs
    by_cases hearlier : Taken window cs x y
    · obtain ⟨a, ha, hclaims⟩ := ih hcs.2 hearlier
      exact ⟨a, List.mem_cons_of_mem c ha, (claims_cons_of_before (hcs.1 a ha)).2 hclaims⟩
    · have hsquare := (taken_cons.1 ht).resolve_right hearlier
      exact ⟨c, List.mem_cons_self, (claims_cons_self hcs.1).2 ⟨hf, hsquare, hearlier⟩⟩

/-- The claims of two corners have no pixel in common. -/
theorem not_claims_of_before {a : Nat × Nat} (ha : a ∈ cs) (hbefore : Before a c)
    (h : Claims g window cs a x y) : ¬ Claims g window cs c x y :=
  fun h' => h'.2.2 a ha hbefore h.2.1

theorem Boxed.spans (h : Boxed g window cs bs) (hcs : cs.Pairwise fun a b => Before b a)
    (hb : b ∈ bs) : Spans g window cs b := by
  induction h with
  | nil => cases hb
  | @cons c cs e bs hf _ hull hrest ih =>
    rw [List.pairwise_cons] at hcs
    rcases List.mem_cons.1 hb with rfl | hb
    · have hcorner : e.toBox.corner = c := (toBox_of_hull hf hull).1
      obtain ⟨hx, hy⟩ := Prod.mk.inj hcorner
      refine ⟨e, rfl, hull.congr fun x y => ?_⟩
      rw [hcorner, claims_cons_self hcs.1, hx, hy]
    · obtain ⟨e', he', hull'⟩ := ih hcs.2 hb
      have hbefore : Before b.corner c := by
        refine hcs.1 _ ?_
        rw [← hrest.map_corner]
        exact List.mem_map_of_mem hb
      exact ⟨e', he', hull'.congr fun x y => by rw [claims_cons_of_before hbefore]⟩

/-- There is one hull for each corner. -/
theorem Spans.unique {b' : PixelBox} (h : Spans g window cs b) (h' : Spans g window cs b')
    (hcorner : b.corner = b'.corner) : b = b' := by
  obtain ⟨e, rfl, hull⟩ := h
  obtain ⟨e', rfl, hull'⟩ := h'
  obtain ⟨hx, hy⟩ := Prod.mk.inj hcorner
  rw [hcorner, hx, hy] at hull
  rw [hull.unique hull']

/-- The boxes found are the hulls of the corners and their claims. -/
theorem mem_traceBoxes_iff : b ∈ traceBoxes g stride window ↔
    b.corner ∈ corners g (max stride 1) window ∧
      Spans g window (corners g (max stride 1) window) b := by
  have hspans {b : PixelBox} (hb : b ∈ traceBoxes g stride window) :=
    (boxed_traceBoxes g stride window).spans (pairwise_corners (by omega) g window)
      (List.mem_reverse.2 hb)
  constructor
  · exact fun hb => ⟨mem_corners_iff_exists.2 ⟨b, hb, rfl⟩, hspans hb⟩
  · rintro ⟨hcorner, hb⟩
    obtain ⟨b', hb', hbb'⟩ := mem_corners_iff_exists.1 hcorner
    rwa [hb.unique (hspans hb') hbb'.symm]

/-! ## The division of the foreground -/

/-- Boxes and claims divide the foreground of a picture: the corners are foreground pixels of the grid in the
order of reading, no pixel is claimed twice, every box is the hull of its corner and its claim, every
foreground pixel of the grid lies in a box, and the claims are the foreground of the squares. -/
structure Divides (g : Gray) (stride window : Nat) (boxes : List PixelBox)
    (claim : PixelBox → Nat → Nat → Prop) : Prop where
  inOrder : boxes.Pairwise fun a b => Before a.corner b.corner
  seeded : ∀ b ∈ boxes, g.IsForeground b.x b.y ∧ max stride 1 ∣ b.x ∧ max stride 1 ∣ b.y
  claimed : ∀ b ∈ boxes, ∀ x y, claim b x y → g.IsForeground x y ∧ InSquare window b.corner x y
  disjoint : boxes.Pairwise fun a b => ∀ x y, claim a x y → ¬ claim b x y
  tight : ∀ b ∈ boxes, ∃ e : Extent, e.toBox = b ∧
    e.IsHull fun x y => (x = b.x ∧ y = b.y) ∨ claim b x y
  inside : ∀ b ∈ boxes, b.LiesIn g.width g.height ∧ b.width ≤ max window 1 ∧ b.height ≤ max window 1
  covered : ∀ x y, g.IsForeground x y → max stride 1 ∣ x → max stride 1 ∣ y → ∃ b ∈ boxes, b.Holds x y
  all : ∀ x y, (∃ b ∈ boxes, claim b x y) ↔
    g.IsForeground x y ∧ ∃ b ∈ boxes, InSquare window b.corner x y

/-- Every foreground pixel of the grid lies in a box. -/
theorem exists_holds (hf : g.IsForeground x y) (hx : max stride 1 ∣ x) (hy : max stride 1 ∣ y) :
    ∃ b ∈ traceBoxes g stride window, b.Holds x y := by
  have hs : 0 < max stride 1 := by omega
  have hgrid : (x, y) ∈ grid g (max stride 1) := (mem_grid hs).2 ⟨⟨hx, hf.lt.1⟩, hy, hf.lt.2⟩
  have hor : (x, y) ∈ corners g (max stride 1) window ∨ _ := mem_corners_or hs hgrid hf
  rcases hor with hc | ⟨a, ha, -, hsquare⟩
  · obtain ⟨b, hb, hbc⟩ := mem_corners_iff_exists.1 hc
    obtain ⟨-, e, rfl, hull⟩ := mem_traceBoxes_iff.1 hb
    obtain ⟨rfl, rfl⟩ := Prod.mk.inj hbc
    exact ⟨_, hb, hull.holds (.inl ⟨rfl, rfl⟩)⟩
  · obtain ⟨c, hc, hclaims⟩ := exists_claims (pairwise_corners hs g window) hf ⟨a, ha, hsquare⟩
    obtain ⟨b, hb, rfl⟩ := mem_corners_iff_exists.1 hc
    obtain ⟨-, e, rfl, hull⟩ := mem_traceBoxes_iff.1 hb
    exact ⟨_, hb, hull.holds (.inr hclaims)⟩

/-- Some box claims a pixel when it is foreground and lies in the square of some corner. -/
theorem exists_claims_iff :
    (∃ b ∈ traceBoxes g stride window, Claims g window (corners g (max stride 1) window) b.corner x y) ↔
      g.IsForeground x y ∧ Taken window (corners g (max stride 1) window) x y := by
  constructor
  · rintro ⟨b, hb, hf, hsquare, -⟩
    exact ⟨hf, b.corner, mem_corners_iff_exists.2 ⟨b, hb, rfl⟩, hsquare⟩
  · rintro ⟨hf, ht⟩
    obtain ⟨c, hc, hclaims⟩ := exists_claims (pairwise_corners (by omega) g window) hf ht
    obtain ⟨b, hb, rfl⟩ := mem_corners_iff_exists.1 hc
    exact ⟨b, hb, hclaims⟩

/-- The pixels that tracing marks are divided among the boxes that it finds, whatever the picture, the stride
and the window are. -/
theorem divides_traceBoxes (g : Gray) (stride window : Nat) :
    ∃ claim : PixelBox → Nat → Nat → Prop,
      Divides g stride window (traceBoxes g stride window) claim ∧
      ∀ x y, x < g.width → y < g.height →
        ((whole g stride window).claimed.getD (y * g.width + x) true = true ↔
          ∃ b ∈ traceBoxes g stride window, claim b x y) := by
  have hcorner {b : PixelBox} (hb : b ∈ traceBoxes g stride window) :
      b.corner ∈ corners g (max stride 1) window := mem_corners_iff_exists.2 ⟨b, hb, rfl⟩
  refine ⟨fun b => Claims g window (corners g (max stride 1) window) b.corner, ?_, fun x y hx hy => ?_⟩
  · exact {
      inOrder := pairwise_traceBoxes g stride window
      seeded := fun b => seeded_of_mem_traceBoxes
      claimed := fun b _ x y h => ⟨h.1, h.2.1⟩
      disjoint := (pairwise_traceBoxes g stride window).imp_of_mem fun ha _ hbefore x y h =>
        not_claims_of_before (hcorner ha) hbefore h
      tight := fun b hb => (mem_traceBoxes_iff.1 hb).2
      inside := fun b hb => ⟨liesIn_of_mem_traceBoxes hb, le_window_of_mem_traceBoxes hb⟩
      covered := fun x y hf hx hy => exists_holds hf hx hy
      all := fun x y => by
        rw [exists_claims_iff, taken_corners_iff] }
  · rw [(represents_whole g stride window).claimed hx hy, exists_claims_iff]

end Tracing

end WindowSurvey
