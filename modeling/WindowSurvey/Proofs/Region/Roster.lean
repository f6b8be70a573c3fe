import WindowSurvey.Region.Roster
/-!
# First sightings, and the order in which they are shown

A roster keeps the first region of every key. Which regions these are can be said without a roster, and so
can the order in which they are shown: it is the stable sort of those that are not small.

## Main definitions

* `Region.firsts` — the first region of each key
* `Roster.Indexed` — the keys of a roster are those of its regions
* `Region.Arranged` — what it means to be sorted stably, without a way of sorting
-/

namespace WindowSurvey

namespace Region

variable {x y : Region} {xs ys : List Region}

/-! ## First sightings -/

/-- The regions of a list whose key no region before them has. -/
def firsts : List Region → List Region
  | [] => []
  | x :: xs => x :: (firsts xs).filter fun y => x.key != y.key

/-- Whether a region of the list has the key. -/
def keyIn (xs : List Region) (k : SightingKey) : Bool := xs.any fun x => x.key == k

@[simp] theorem keyIn_nil (k : SightingKey) : keyIn [] k = false := rfl

@[simp] theorem keyIn_cons (x : Region) (xs : List Region) (k : SightingKey) :
    keyIn (x :: xs) k = (x.key == k || keyIn xs k) := rfl

theorem keyIn_iff {k : SightingKey} : keyIn xs k = true ↔ ∃ x ∈ xs, x.key = k := by
  simp [keyIn]

theorem keyIn_append (xs ys : List Region) (k : SightingKey) :
    keyIn (xs ++ ys) k = (keyIn xs k || keyIn ys k) := by
  simp [keyIn]

theorem firsts_sublist (xs : List Region) : (firsts xs).Sublist xs := by
  induction xs with
  | nil => exact .slnil
  | cons x xs ih => exact (List.filter_sublist.trans ih).cons_cons x

theorem mem_of_mem_firsts (h : x ∈ firsts xs) : x ∈ xs := (firsts_sublist xs).subset h

/-- No two first sightings have one key. -/
theorem pairwise_firsts (xs : List Region) : (firsts xs).Pairwise fun a b => a.key ≠ b.key := by
  induction xs with
  | nil => exact .nil
  | cons x xs ih =>
    refine .cons (fun y hy => ?_) (ih.filter _)
    simpa using (List.mem_filter.1 hy).2

/-- Every key that occurs has a first sighting. -/
theorem keyIn_firsts (xs : List Region) (k : SightingKey) : keyIn (firsts xs) k = keyIn xs k := by
  induction xs with
  | nil => rfl
  | cons x xs ih =>
    by_cases hk : x.key = k
    · simp [firsts, hk]
    · have hrest : keyIn ((firsts xs).filter fun y => x.key != y.key) k = keyIn (firsts xs) k := by
        rw [Bool.eq_iff_iff, keyIn_iff, keyIn_iff]
        constructor
        · rintro ⟨y, hy, rfl⟩
          exact ⟨y, (List.mem_filter.1 hy).1, rfl⟩
        · rintro ⟨y, hy, rfl⟩
          exact ⟨y, List.mem_filter.2 ⟨hy, by simpa using hk⟩, rfl⟩
      rw [firsts, keyIn_cons, keyIn_cons, hrest, ih]

/-- Of a second list only the keys count that the first one has not. -/
theorem firsts_append (xs ys : List Region) :
    firsts (xs ++ ys) = firsts xs ++ (firsts ys).filter fun y => !keyIn xs y.key := by
  induction xs with
  | nil =>
    rw [List.nil_append, firsts, List.nil_append, List.filter_eq_self.2]
    exact fun y _ => rfl
  | cons x xs ih =>
    simp only [List.cons_append, firsts, ih, List.filter_append, List.filter_filter]
    congr 2
    exact List.filter_congr fun y _ => by rw [keyIn_cons, Bool.not_or]; rfl

/-- Sightings of known windows add nothing. -/
theorem firsts_append_of_keyIn (h : ∀ y ∈ ys, keyIn xs y.key = true) :
    firsts (xs ++ ys) = firsts xs := by
  have hnone : (firsts ys).filter (fun y => !keyIn xs y.key) = [] := by
    refine List.filter_eq_nil_iff.2 fun y hy => ?_
    simp [h y (mem_of_mem_firsts hy)]
  rw [firsts_append, hnone, List.append_nil]

/-- In lists that are put together, a first sighting stands in the first list that has its key. -/
theorem mem_firsts_flatten {ls : List (List Region)} (h : x ∈ firsts ls.flatten) :
    ∃ (k : Nat) (l : List Region), ls[k]? = some l ∧ x ∈ l ∧
      ∀ j l', j < k → ls[j]? = some l' → keyIn l' x.key = false := by
  induction ls with
  | nil => cases h
  | cons l ls ih =>
    rw [List.flatten_cons, firsts_append, List.mem_append, List.mem_filter] at h
    rcases h with hx | ⟨hx, hl⟩
    · exact ⟨0, l, rfl, mem_of_mem_firsts hx, fun j l' hj _ => by omega⟩
    · obtain ⟨k, l', hk, hmem, hbefore⟩ := ih hx
      refine ⟨k + 1, l', hk, hmem, fun j l'' hj hl'' => ?_⟩
      cases j with
      | zero =>
        cases hl''
        simpa using hl
      | succ j => exact hbefore j l'' (by omega) hl''

/-- A list without repeated keys consists of first sightings. -/
theorem firsts_eq_self (h : xs.Pairwise fun a b => a.key ≠ b.key) : firsts xs = xs := by
  induction h with
  | nil => rfl
  | cons hx _ ih =>
    rw [firsts, ih, List.filter_eq_self.2]
    exact fun y hy => by simpa using hx y hy

end Region

/-! ## Rosters -/

namespace Roster

open Region (firsts keyIn)

variable {r : Roster} {x : Region} {xs : List Region}

/-- The keys that were seen are those of the regions. -/
def Indexed (r : Roster) : Prop := ∀ k, r.seen.contains k = keyIn r.regions k

theorem indexed_empty : empty.Indexed := by
  intro k
  simp [empty, regions]

/-- Entering a region with a new key puts it behind the others; else nothing changes. -/
theorem insert_eq (h : r.Indexed) (x : Region) :
    (r.insert x).1 = !keyIn r.regions x.key ∧ (r.insert x).2.Indexed ∧
      (r.insert x).2.regions = r.regions ++ [x].filter fun y => !keyIn r.regions y.key := by
  obtain ⟨seen, found⟩ := r
  have hseen := h x.key
  cases hk : keyIn (regions ⟨seen, found⟩) x.key with
  | true =>
    have hc : seen.contains x.key = true := hseen.trans hk
    have hi : insert ⟨seen, found⟩ x = (false, ⟨seen, found⟩) := by simp only [insert, hc, if_true]
    rw [hi]
    exact ⟨rfl, h, by simp [hk]⟩
  | false =>
    have hc : seen.contains x.key = false := hseen.trans hk
    have hi : insert ⟨seen, found⟩ x = (true, ⟨seen.insert x.key, found.push x⟩) := by
      simp [insert, hc]
    rw [hi]
    refine ⟨rfl, fun k => ?_, ?_⟩
    · have hold : seen.contains k = keyIn found.toList k := h k
      simp [Std.HashSet.contains_insert, hold, regions, Region.keyIn_append, Bool.or_comm]
    · rw [List.filter_cons_of_pos (by rw [hk, Bool.not_false])]
      simp [regions]

/-- Entering many regions adds the first sightings among them that are new. -/
theorem insertAll_eq (h : r.Indexed) (xs : List Region) :
    (r.insertAll xs).2.Indexed ∧
      (r.insertAll xs).2.regions = r.regions ++ (firsts xs).filter fun y => !keyIn r.regions y.key := by
  induction xs generalizing r with
  | nil => exact ⟨h, by simp [insertAll, firsts]⟩
  | cons x xs ih =>
    obtain ⟨-, hi, hr⟩ := insert_eq h x
    obtain ⟨hall, hregions⟩ := ih hi
    refine ⟨hall, ?_⟩
    rw [insertAll, hregions, hr, firsts, List.append_assoc]
    congr 1
    cases hk : keyIn r.regions x.key with
    | true =>
      have hx : ∀ y : Region, (!keyIn r.regions y.key && x.key != y.key) = !keyIn r.regions y.key := by
        intro y
        by_cases hy : x.key = y.key
        · simp [← hy, hk]
        · simp [hy]
      simp only [hk, List.filter_cons, List.filter_nil, Bool.not_true, Bool.false_eq_true, if_false,
        List.append_nil, List.nil_append, List.filter_filter, hx]
    | false =>
      simp only [hk, List.filter_cons, List.filter_nil, Bool.not_false, if_true, List.cons_append,
        List.nil_append, List.filter_filter]
      congr 1
      refine List.filter_congr fun y _ => ?_
      rw [Region.keyIn_append, Region.keyIn_cons, Region.keyIn_nil, Bool.or_false, Bool.not_or]
      rfl

/-- An empty roster into which regions are entered holds their first sightings. -/
theorem regions_insertAll_empty (xs : List Region) : (empty.insertAll xs).2.regions = firsts xs := by
  rw [(insertAll_eq indexed_empty xs).2]
  simp [regions, empty]

/-- A roster grows by one when a region is entered, and else not. -/
theorem size_insert (r : Roster) (x : Region) :
    (r.insert x).2.size = r.size + if (r.insert x).1 then 1 else 0 := by
  obtain ⟨seen, found⟩ := r
  rw [insert]
  split
  · rfl
  · exact Array.size_push x

/-- The count of regions that were entered is what a roster grows by. -/
theorem size_insertAll (r : Roster) (xs : List Region) :
    (r.insertAll xs).2.size = r.size + (r.insertAll xs).1 := by
  induction xs generalizing r with
  | nil => rfl
  | cons x xs ih =>
    simp only [insertAll, ih, size_insert]
    omega

/-- An empty roster takes in all regions of a list without repeated keys. -/
theorem insertAll_empty_of_pairwise (h : xs.Pairwise fun a b => a.key ≠ b.key) :
    (empty.insertAll xs).1 = xs.length ∧ (empty.insertAll xs).2.regions = xs := by
  have hregions : (empty.insertAll xs).2.regions = xs := by
    rw [regions_insertAll_empty, Region.firsts_eq_self h]
  have hsize := size_insertAll empty xs
  have hlength : (empty.insertAll xs).2.size = xs.length := congrArg List.length hregions
  refine ⟨?_, hregions⟩
  rw [← hlength, hsize]
  exact (Nat.zero_add _).symm

/-- Entering two lists one after the other is entering both. -/
theorem insertAll_append (r : Roster) (xs ys : List Region) :
    (r.insertAll (xs ++ ys)).2 = ((r.insertAll xs).2.insertAll ys).2 := by
  induction xs generalizing r with
  | nil => rfl
  | cons x xs ih => exact ih (r.insert x).2

end Roster

/-! ## The order of showing -/

namespace Region

variable {found shown : List Region}

/-- Whether a region is worth showing. -/
def isWorth (x : Region) : Bool := x.category != .small

/-- Whether a region is as large as told. -/
def isAs (category : Category) (area : Int) (x : Region) : Bool :=
  x.category = category ∧ Binary64.totalKey x.area = area

/-- The regions shown are those worth showing, from large to small: by category, then by area in the order
of all doubles. Regions that are equally large stand in the order in which they were found. -/
structure Arranged (found shown : List Region) : Prop where
  perm : shown.Perm (found.filter isWorth)
  descending : shown.Pairwise fun a b => b.category.rank < a.category.rank ∨
    a.category = b.category ∧ Binary64.totalKey b.area ≤ Binary64.totalKey a.area
  stable : ∀ category area,
    shown.filter (isAs category area) = (found.filter isWorth).filter (isAs category area)

theorem showsBefore_iff {a b : Region} : a.showsBefore b = true ↔
    b.category.rank < a.category.rank ∨
      a.category = b.category ∧ Binary64.totalKey b.area ≤ Binary64.totalKey a.area := by
  have hrank : a.category.rank = b.category.rank ↔ a.category = b.category :=
    ⟨Category.rank_injective, congrArg Category.rank⟩
  simp [showsBefore, hrank]

theorem showsBefore_trans (a b c : Region) (hab : a.showsBefore b = true)
    (hbc : b.showsBefore c = true) : a.showsBefore c = true := by
  rw [showsBefore_iff] at *
  rcases hab with h₁ | ⟨e₁, h₁⟩ <;> rcases hbc with h₂ | ⟨e₂, h₂⟩
  · exact .inl (by omega)
  · exact .inl (e₂ ▸ h₁)
  · exact .inl (e₁ ▸ h₂)
  · exact .inr ⟨e₁.trans e₂, by omega⟩

theorem showsBefore_total (a b : Region) : (a.showsBefore b || b.showsBefore a) = true := by
  rw [Bool.or_eq_true, showsBefore_iff, showsBefore_iff]
  rcases Nat.lt_trichotomy a.category.rank b.category.rank with h | h | h
  · exact .inr (.inl h)
  · have he := Category.rank_injective h
    rcases Int.le_total (Binary64.totalKey b.area) (Binary64.totalKey a.area) with ha | ha
    · exact .inl (.inr ⟨he, ha⟩)
    · exact .inr (.inr ⟨he.symm, ha⟩)
  · exact .inl (.inl h)

/-- Equally large regions may be shown in either order. -/
theorem showsBefore_of_isAs {category : Category} {area : Int} {a b : Region}
    (ha : a.isAs category area = true) (hb : b.isAs category area = true) : a.showsBefore b = true := by
  simp only [isAs, decide_eq_true_eq] at ha hb
  rw [showsBefore_iff]
  exact .inr ⟨ha.1.trans hb.1.symm, by omega⟩

/-- Regions that may be shown in either order are equally large. -/
theorem isAs_of_showsBefore {a b : Region} (hab : a.showsBefore b = true)
    (hba : b.showsBefore a = true) : b.isAs a.category (Binary64.totalKey a.area) = true := by
  rw [showsBefore_iff] at hab hba
  rcases hab with h₁ | ⟨e₁, h₁⟩ <;> rcases hba with h₂ | ⟨e₂, h₂⟩
  · omega
  · rw [e₂] at h₁
    omega
  · rw [e₁] at h₂
    omega
  · simp [isAs, e₁, Int.le_antisymm h₁ h₂]

theorem arranged_arrange (found : List Region) : Arranged found (arrange found) where
  perm := List.mergeSort_perm _ _
  descending :=
    (List.pairwise_mergeSort showsBefore_trans showsBefore_total _).imp fun h => showsBefore_iff.1 h
  stable category area := by
    -- equally large regions are in order as they were found, so they come through as they stand
    have hsub : ((found.filter isWorth).filter (isAs category area)).Sublist (arrange found) := by
      refine List.sublist_mergeSort showsBefore_trans showsBefore_total ?_ List.filter_sublist
      refine List.pairwise_filter.2 (List.pairwise_of_forall fun a b ha hb => ?_)
      exact showsBefore_of_isAs ha hb
    have hperm : (arrange found).Perm (found.filter isWorth) := List.mergeSort_perm _ _
    have hfilter := hsub.filter (isAs category area)
    rw [List.filter_eq_self.2 fun a ha => (List.mem_filter.1 ha).2] at hfilter
    exact (hfilter.eq_of_length (hperm.filter _).length_eq.symm).symm

/-- There is one way only to arrange regions. -/
theorem Arranged.unique {other : List Region} (h : Arranged found shown) (h' : Arranged found other) :
    shown = other := by
  have hperm := h.perm.trans h'.perm.symm
  have hstable := fun category area => (h.stable category area).trans (h'.stable category area).symm
  have hd := h.descending
  have hd' := h'.descending
  clear h h'
  induction shown generalizing other with
  | nil => exact hperm.nil_eq
  | cons x xs ih =>
    cases other with
    | nil => exact absurd hperm.length_eq (by simp)
    | cons y ys =>
      -- the heads are equally large, and the first of the equally large regions is the same in both
      have hxy : x = y := by
        rcases List.mem_cons.1 (hperm.subset List.mem_cons_self) with e | hx
        · exact e
        rcases List.mem_cons.1 (hperm.symm.subset List.mem_cons_self) with e | hy
        · exact e.symm
        have hyx := isAs_of_showsBefore (showsBefore_iff.2 ((List.pairwise_cons.1 hd).1 y hy))
          (showsBefore_iff.2 ((List.pairwise_cons.1 hd').1 x hx))
        have hs := hstable x.category (Binary64.totalKey x.area)
        rw [List.filter_cons_of_pos (by simp [isAs]), List.filter_cons_of_pos hyx] at hs
        exact (List.cons.inj hs).1
      subst hxy
      refine congrArg (x :: ·) (ih ((List.perm_cons x).1 hperm) (fun category area => ?_)
        (List.pairwise_cons.1 hd).2 (List.pairwise_cons.1 hd').2)
      have hs := hstable category area
      by_cases hx : x.isAs category area = true
      · rw [List.filter_cons_of_pos hx, List.filter_cons_of_pos hx] at hs
        exact (List.cons.inj hs).2
      · rwa [List.filter_cons_of_neg hx, List.filter_cons_of_neg hx] at hs

theorem arranged_iff : Arranged found shown ↔ shown = arrange found :=
  ⟨fun h => h.unique (arranged_arrange found), fun h => h ▸ arranged_arrange found⟩

theorem perm_arrange (found : List Region) : (arrange found).Perm (found.filter isWorth) :=
  (arranged_arrange found).perm

/-- All regions but the small ones are shown, and no others. -/
theorem mem_arrange {x : Region} : x ∈ arrange found ↔ x ∈ found ∧ x.category ≠ .small := by
  rw [(perm_arrange found).mem_iff, List.mem_filter, isWorth, bne_iff_ne]

/-- Regions with different keys are shown with different keys. -/
theorem pairwise_arrange (h : found.Pairwise fun a b => a.key ≠ b.key) :
    (arrange found).Pairwise fun a b => a.key ≠ b.key :=
  ((perm_arrange found).pairwise_iff fun hab => hab.symm).2 (h.filter _)

end Region

/-! ## What a roster shows -/

namespace Roster

variable {xs : List Region}

/-- Small regions only are nothing to show. -/
theorem finish_of_small (h : ∀ x ∈ xs, x.category = .small) : (empty.insertAll xs).2.finish = [] := by
  refine List.eq_nil_iff_forall_not_mem.2 fun x hx => ?_
  rw [finish, regions_insertAll_empty, Region.mem_arrange] at hx
  exact hx.2 (h x (Region.mem_of_mem_firsts hx.1))

/-- One region that is not small is all that is shown. -/
theorem finish_singleton {x : Region} (h : x.category ≠ .small) :
    (empty.insertAll [x]).2.finish = [x] := by
  have hfirsts : Region.firsts [x] = [x] := rfl
  rw [finish, regions_insertAll_empty, hfirsts, Region.arrange,
    List.filter_cons_of_pos (by simpa using h), List.filter_nil, List.mergeSort_singleton]

end Roster

end WindowSurvey
