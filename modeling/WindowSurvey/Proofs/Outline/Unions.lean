import WindowSurvey.Proofs.Outline.Claims
/-!
# Tracing pictures that keep apart

Two pictures are laid over each other. When no square searched in one of them holds foreground of the other,
a pixel is a corner of the union exactly when it is a corner of one of the two, since only the squares of that
picture could have taken it; and each corner claims in the union what it claims in its own picture. So the
boxes of the union are those of the two pictures, in the order of their corners.

## Main definitions

* `Gray.Unites` — a picture that shows two others without a common pixel
* `Tracing.Spares` — no square searched in a picture holds foreground of another
* `Gray.over` — one of two pictures, laid over the other
* `PixelBox.startsBefore` — the order in which corners are read

## Main statements

* `Tracing.traceBoxes_of_unites` — the boxes of the union are merged from the boxes of the two pictures
-/

namespace WindowSurvey

/-- The foreground of the picture is that of two pictures of its size, which have no foreground pixel in
common. -/
structure Gray.Unites (u a b : Gray) : Prop where
  width_left : a.width = u.width
  height_left : a.height = u.height
  width_right : b.width = u.width
  height_right : b.height = u.height
  foreground : ∀ x y, u.IsForeground x y ↔ a.IsForeground x y ∨ b.IsForeground x y
  separate : ∀ x y, a.IsForeground x y → ¬ b.IsForeground x y

/-- Whether the corner of a box is read before that of another, or is the same. -/
def PixelBox.startsBefore (p q : PixelBox) : Bool := p.y < q.y || (p.y == q.y && p.x ≤ q.x)

/-- The foreground of a picture, laid over another picture of its size. -/
def Gray.over (a b : Gray) : Gray :=
  .build a.width a.height fun x y => if a.pixel x y = background then b.pixel x y else a.pixel x y

theorem Gray.isForeground_build {width height x y : Nat} {f : Nat → Nat → UInt8} :
    (build width height f).IsForeground x y ↔ (x < width ∧ y < height) ∧ f x y ≠ background := by
  rw [IsForeground, pixel_build]
  split
  · rename_i h
    simp [h]
  · rename_i h
    simp [h, background]

/-- Pictures of one size without a common foreground pixel are united by laying one over the other. -/
theorem Gray.unites_over {a b : Gray} (hw : b.width = a.width) (hh : b.height = a.height)
    (hseparate : ∀ x y, a.IsForeground x y → ¬ b.IsForeground x y) : (a.over b).Unites a b where
  width_left := rfl
  height_left := rfl
  width_right := hw
  height_right := hh
  foreground x y := by
    have ha : a.IsForeground x y → x < a.width ∧ y < a.height := IsForeground.lt
    have hb : b.IsForeground x y → x < a.width ∧ y < a.height := fun h => hw ▸ hh ▸ h.lt
    rw [Gray.over, isForeground_build]
    split
    · rename_i h
      exact ⟨fun h' => .inr h'.2, fun h' => h'.elim (absurd h) fun h' => ⟨hb h', h'⟩⟩
    · rename_i h
      exact ⟨fun _ => .inl h, fun _ => ⟨ha h, h⟩⟩
  separate := hseparate

theorem Gray.Unites.symm {u a b : Gray} (h : u.Unites a b) : u.Unites b a where
  width_left := h.width_right
  height_left := h.height_right
  width_right := h.width_left
  height_right := h.height_left
  foreground x y := (h.foreground x y).trans or_comm
  separate x y hb ha := h.separate x y ha hb

namespace Tracing

/-- No square that is searched in the first picture holds foreground of the second. -/
def Spares (stride window : Nat) (a b : Gray) : Prop :=
  ∀ p ∈ traceBoxes a stride window, ∀ x y, InSquare window p.corner x y → ¬ b.IsForeground x y

variable {u a b : Gray} {stride window : Nat} {c p : Nat × Nat} {q : PixelBox} {x y : Nat}

/-! ## The order of corners -/

theorem startsBefore_iff {p q : PixelBox} :
    p.startsBefore q = true ↔ Before p.corner q.corner ∨ p.corner = q.corner := by
  simp only [PixelBox.startsBefore, Before, PixelBox.corner, Bool.or_eq_true, Bool.and_eq_true,
    decide_eq_true_eq, beq_iff_eq, Prod.mk.injEq]
  omega

theorem startsBefore_trans (p q r : PixelBox) (hpq : p.startsBefore q = true)
    (hqr : q.startsBefore r = true) : p.startsBefore r = true := by
  simp only [PixelBox.startsBefore, Bool.or_eq_true, Bool.and_eq_true, decide_eq_true_eq,
    beq_iff_eq] at *
  omega

theorem startsBefore_total (p q : PixelBox) : (p.startsBefore q || q.startsBefore p) = true := by
  simp only [PixelBox.startsBefore, Bool.or_eq_true, Bool.and_eq_true, decide_eq_true_eq, beq_iff_eq]
  omega

/-- Boxes that start at one pixel of a picture are the same. -/
theorem eq_of_startsBefore {p q : PixelBox} (hp : p ∈ traceBoxes u stride window)
    (hq : q ∈ traceBoxes u stride window) (hpq : p.startsBefore q = true)
    (hqp : q.startsBefore p = true) : p = q := by
  have hcorner : p.corner = q.corner := by
    rcases startsBefore_iff.1 hpq with h | h
    · rcases startsBefore_iff.1 hqp with h' | h'
      · exact absurd h' h.asymm
      · exact h'.symm
    · exact h
  exact (mem_traceBoxes_iff.1 hp).2.unique (mem_traceBoxes_iff.1 hq).2 hcorner

/-- No box is found twice. -/
theorem nodup_traceBoxes (g : Gray) (stride window : Nat) : (traceBoxes g stride window).Nodup :=
  (pairwise_traceBoxes g stride window).imp fun {p q} hbefore he => by
    subst he
    exact hbefore.asymm hbefore

/-! ## Corners and claims of the union -/

theorem Spares.not_inSquare (h : Spares stride window a b)
    (hc : c ∈ corners a (max stride 1) window) (hf : b.IsForeground x y) :
    ¬ InSquare window c x y := by
  obtain ⟨p, hp, rfl⟩ := mem_corners_iff_exists.1 hc
  exact fun hsquare => h p hp x y hsquare hf

theorem grid_left (hu : u.Unites a b) : grid a stride = grid u stride := by
  rw [grid, grid, hu.width_left, hu.height_left]

/-- A foreground pixel of the first picture is a corner there when no square of either picture has taken it. -/
theorem mem_corners_left_iff (hu : u.Unites a b) (hba : Spares stride window b a)
    (hp : p ∈ grid u (max stride 1)) (hf : a.IsForeground p.1 p.2) :
    p ∈ corners a (max stride 1) window ↔
      ∀ c ∈ grid u (max stride 1), Before c p →
        (c ∈ corners a (max stride 1) window ∨ c ∈ corners b (max stride 1) window) →
        ¬ InSquare window c p.1 p.2 := by
  rw [mem_corners_iff, grid_left hu]
  constructor
  · rintro ⟨-, -, hfree⟩ c - hbefore (hc | hc)
    · exact hfree c hc hbefore
    · exact hba.not_inSquare hc hf
  · intro hfree
    refine ⟨hp, hf, fun c hc hbefore => ?_⟩
    have hgrid : c ∈ grid u (max stride 1) := grid_left hu ▸ (mem_corners_iff.1 hc).1
    exact hfree c hgrid hbefore (.inl hc)

/-- The corners of the union are the corners of the two pictures. -/
theorem mem_corners_of_unites (hu : u.Unites a b) (hab : Spares stride window a b)
    (hba : Spares stride window b a) : c ∈ corners u (max stride 1) window ↔
      c ∈ corners a (max stride 1) window ∨ c ∈ corners b (max stride 1) window := by
  have hleft {c : Nat × Nat} (hc : c ∈ corners a (max stride 1) window) :
      c ∈ grid u (max stride 1) ∧ a.IsForeground c.1 c.2 := by
    rw [mem_corners_iff, grid_left hu] at hc
    exact ⟨hc.1, hc.2.1⟩
  have hright {c : Nat × Nat} (hc : c ∈ corners b (max stride 1) window) :
      c ∈ grid u (max stride 1) ∧ b.IsForeground c.1 c.2 := by
    rw [mem_corners_iff, grid_left hu.symm] at hc
    exact ⟨hc.1, hc.2.1⟩
  have hchosen : ∀ p ∈ grid u (max stride 1),
      decide (p ∈ corners a (max stride 1) window ∨ p ∈ corners b (max stride 1) window) = true ↔
        u.IsForeground p.1 p.2 ∧ ∀ c ∈ grid u (max stride 1), Before c p →
          decide (c ∈ corners a (max stride 1) window ∨ c ∈ corners b (max stride 1) window) = true →
          ¬ InSquare window c p.1 p.2 := fun p hp => by
    simp only [decide_eq_true_eq, hu.foreground]
    constructor
    · rintro (hc | hc)
      · have hf := (hleft hc).2
        exact ⟨.inl hf, (mem_corners_left_iff hu hba hp hf).1 hc⟩
      · have hf := (hright hc).2
        refine ⟨.inr hf, fun c hgrid hbefore hor => ?_⟩
        exact (mem_corners_left_iff hu.symm hab hp hf).1 hc c hgrid hbefore hor.symm
    · rintro ⟨hf | hf, hfree⟩
      · exact .inl ((mem_corners_left_iff hu hba hp hf).2 hfree)
      · exact .inr ((mem_corners_left_iff hu.symm hab hp hf).2 fun c hgrid hbefore hor =>
          hfree c hgrid hbefore hor.symm)
  rw [corners, foldl_addCorner_eq_filter (pairwise_grid (by omega) u) _ hchosen, List.mem_reverse,
    List.mem_filter, decide_eq_true_eq]
  exact ⟨And.right, fun hc => ⟨hc.elim (fun h => (hleft h).1) fun h => (hright h).1, hc⟩⟩

/-- In the union a corner of the first picture claims what it claims there. -/
theorem claims_of_unites (hu : u.Unites a b) (hab : Spares stride window a b)
    (hba : Spares stride window b a) (hc : c ∈ corners a (max stride 1) window) :
    Claims u window (corners u (max stride 1) window) c x y ↔
      Claims a window (corners a (max stride 1) window) c x y := by
  constructor
  · rintro ⟨hf, hsquare, hfree⟩
    have hf : a.IsForeground x y :=
      ((hu.foreground x y).1 hf).resolve_right fun hf => hab.not_inSquare hc hf hsquare
    exact ⟨hf, hsquare, fun c' hc' => hfree c' ((mem_corners_of_unites hu hab hba).2 (.inl hc'))⟩
  · rintro ⟨hf, hsquare, hfree⟩
    refine ⟨(hu.foreground x y).2 (.inl hf), hsquare, fun c' hc' hbefore => ?_⟩
    rcases (mem_corners_of_unites hu hab hba).1 hc' with hc' | hc'
    · exact hfree c' hc' hbefore
    · exact hba.not_inSquare hc' hf

/-- A box that starts at a corner of the first picture is found in the union when it is found there. -/
theorem mem_traceBoxes_left_iff (hu : u.Unites a b) (hab : Spares stride window a b)
    (hba : Spares stride window b a) (hc : q.corner ∈ corners a (max stride 1) window) :
    q ∈ traceBoxes u stride window ↔ q ∈ traceBoxes a stride window := by
  have hcu := (mem_corners_of_unites hu hab hba).2 (.inl hc)
  rw [mem_traceBoxes_iff, mem_traceBoxes_iff]
  simp only [Spans, hcu, hc, claims_of_unites hu hab hba hc]

theorem mem_traceBoxes_of_unites (hu : u.Unites a b) (hab : Spares stride window a b)
    (hba : Spares stride window b a) : q ∈ traceBoxes u stride window ↔
      q ∈ traceBoxes a stride window ∨ q ∈ traceBoxes b stride window := by
  constructor
  · intro hq
    rcases (mem_corners_of_unites hu hab hba).1 (mem_traceBoxes_iff.1 hq).1 with hc | hc
    · exact .inl ((mem_traceBoxes_left_iff hu hab hba hc).1 hq)
    · exact .inr ((mem_traceBoxes_left_iff hu.symm hba hab hc).1 hq)
  · rintro (hq | hq)
    · exact (mem_traceBoxes_left_iff hu hab hba (mem_traceBoxes_iff.1 hq).1).2 hq
    · exact (mem_traceBoxes_left_iff hu.symm hba hab (mem_traceBoxes_iff.1 hq).1).2 hq

/-! ## The boxes of the union -/

/-- When no square searched in one of two pictures holds foreground of the other, tracing their union finds the
boxes of both, each as it is found alone, in the order of their corners. -/
theorem traceBoxes_of_unites {u a b : Gray} {stride window : Nat} (hu : u.Unites a b)
    (hab : Spares stride window a b) (hba : Spares stride window b a) :
    traceBoxes u stride window =
      (traceBoxes a stride window).merge (traceBoxes b stride window) PixelBox.startsBefore := by
  have hsorted (g : Gray) :
      (traceBoxes g stride window).Pairwise fun p q => p.startsBefore q = true :=
    (pairwise_traceBoxes g stride window).imp fun h => startsBefore_iff.2 (.inl h)
  have hperm : (traceBoxes u stride window).Perm
      ((traceBoxes a stride window).merge (traceBoxes b stride window) PixelBox.startsBefore) := by
    refine List.Perm.trans ?_ (List.merge_perm_append _).symm
    refine (List.perm_ext_iff_of_nodup (nodup_traceBoxes u stride window) ?_).2 fun q => ?_
    · refine List.nodup_append.2 ⟨nodup_traceBoxes a _ _, nodup_traceBoxes b _ _, ?_⟩
      rintro p hp q hq rfl
      have hfa := (mem_corners_iff.1 (mem_traceBoxes_iff.1 hp).1).2.1
      have hfb := (mem_corners_iff.1 (mem_traceBoxes_iff.1 hq).1).2.1
      exact hu.separate _ _ hfa hfb
    · rw [List.mem_append, mem_traceBoxes_of_unites hu hab hba]
  refine hperm.eq_of_pairwise (fun p q hp hq => eq_of_startsBefore hp (hperm.mem_iff.2 hq))
    (hsorted u) ?_
  exact List.pairwise_merge startsBefore_trans startsBefore_total _ _ (hsorted a) (hsorted b)

/-! ### A patch between two patches -/

namespace Patches

def middle : Gray := .build 12 6 fun x y => if (6 ≤ x ∧ x < 9) ∧ y < 3 then 255 else 0

def outer : Gray :=
  .build 12 6 fun x y => if (2 ≤ x ∧ x < 4 ∧ 1 ≤ y ∧ y < 5) ∨ (10 ≤ x ∧ 4 ≤ y) then 255 else 0

theorem boxes_middle : traceBoxes middle 2 4 = [⟨6, 0, 3, 3⟩] := by decide +kernel

theorem boxes_outer : traceBoxes outer 2 4 = [⟨2, 2, 2, 3⟩, ⟨10, 4, 2, 2⟩] := by decide +kernel

theorem isForeground_middle {x y : Nat} (h : middle.IsForeground x y) :
    (6 ≤ x ∧ x < 9) ∧ y < 3 :=
  Decidable.byContradiction fun hno => (Gray.isForeground_build.1 h).2 (if_neg hno)

theorem isForeground_outer {x y : Nat} (h : outer.IsForeground x y) :
    (2 ≤ x ∧ x < 4 ∧ 1 ≤ y ∧ y < 5) ∨ (10 ≤ x ∧ 4 ≤ y) :=
  Decidable.byContradiction fun hno => (Gray.isForeground_build.1 h).2 (if_neg hno)

theorem unites : (middle.over outer).Unites middle outer :=
  Gray.unites_over rfl rfl fun x y hm ho => by
    have := isForeground_middle hm
    have := isForeground_outer ho
    omega

theorem middle_spares : Spares 2 4 middle outer := by
  intro p hp x y hsquare hf
  rw [boxes_middle, List.mem_singleton] at hp
  subst hp
  have := isForeground_outer hf
  simp only [InSquare, PixelBox.corner] at hsquare
  omega

theorem outer_spares : Spares 2 4 outer middle := by
  intro p hp x y hsquare hf
  rw [boxes_outer] at hp
  have := isForeground_middle hf
  rcases List.mem_cons.1 hp with rfl | hp
  · simp only [InSquare, PixelBox.corner] at hsquare
    omega
  · rw [List.mem_singleton] at hp
    subst hp
    simp only [InSquare, PixelBox.corner] at hsquare
    omega

end Patches

/-- The box of the patch in the middle is found before the others, and none of the three is changed, though two
of them are cut off at the grid and at the border. -/
theorem traceBoxes_patches :
    (Patches.middle.over Patches.outer).Unites Patches.middle Patches.outer ∧
    Spares 2 4 Patches.middle Patches.outer ∧ Spares 2 4 Patches.outer Patches.middle ∧
    traceBoxes (Patches.middle.over Patches.outer) 2 4 =
      [⟨6, 0, 3, 3⟩, ⟨2, 2, 2, 3⟩, ⟨10, 4, 2, 2⟩] := by
  have h := traceBoxes_of_unites Patches.unites Patches.middle_spares Patches.outer_spares
  rw [Patches.boxes_middle, Patches.boxes_outer] at h
  exact ⟨Patches.unites, Patches.middle_spares, Patches.outer_spares,
    h.trans (by simp [PixelBox.startsBefore])⟩

end Tracing

end WindowSurvey
