import Mathlib.Data.Finset.Card
import Mathlib.Data.Finset.SDiff
import WindowSurvey.Proofs.Region.Roster
/-!
# The keys of a roster, and how many are new

Whatever is entered, one by one or many at once, a roster holds the first region of every key and the keys of
those regions, each once. So what entering answers can be read off the keys: a region is new when its key is, and
of many regions as many are new as there are new keys among theirs.

## Main definitions

* `Roster.Entry`, `Roster.after` — what may be entered, and the roster after some entries
* `Roster.newKeys` — the keys of a batch that a roster does not have

## Main statements

* `Roster.holds_after` — a roster holds the first sightings of all that was entered
* `Roster.keys_entered_once` — keys, answers and counts after any entries
-/

namespace WindowSurvey.Roster

open Region (firsts keyIn)

variable {r : Roster} {x : Region} {xs done : List Region} {k : SightingKey}

/-! ## Entries -/

/-- What may be entered: one region, or a batch of regions. -/
inductive Entry where
  | one (x : Region)
  | batch (xs : List Region)

/-- The regions of an entry. -/
def Entry.regions : Entry → List Region
  | one x => [x]
  | batch xs => xs

/-- The roster with an entry. -/
def enter (r : Roster) : Entry → Roster
  | .one x => (r.insert x).2
  | .batch xs => (r.insertAll xs).2

/-- The roster after entries, empty before the first of them. -/
def after (entries : List Entry) : Roster := entries.foldl enter empty

/-- The regions of all entries in their order. -/
def entered (entries : List Entry) : List Region := entries.flatMap Entry.regions

/-- A roster that holds the first sightings of some regions. -/
structure Holds (r : Roster) (done : List Region) : Prop where
  indexed : r.Indexed
  regions_eq : r.regions = firsts done

theorem holds_empty : empty.Holds [] := ⟨indexed_empty, rfl⟩

theorem Holds.keyIn_eq (h : r.Holds done) (k : SightingKey) : keyIn r.regions k = keyIn done k := by
  rw [h.regions_eq, Region.keyIn_firsts]

/-- An entry adds its first sightings, as far as their keys are new. -/
theorem Holds.enter (h : r.Holds done) (entry : Entry) :
    (r.enter entry).Holds (done ++ entry.regions) := by
  have hnew (ys : List Region) : r.regions ++ ys.filter (fun y => !keyIn r.regions y.key) =
      firsts done ++ ys.filter fun y => !keyIn done y.key := by
    simp only [h.keyIn_eq]
    rw [h.regions_eq]
  cases entry with
  | one x =>
    obtain ⟨-, hindexed, hregions⟩ := insert_eq h.indexed x
    refine ⟨hindexed, ?_⟩
    rw [Region.firsts_append, ← hnew]
    exact hregions
  | batch xs =>
    obtain ⟨hindexed, hregions⟩ := insertAll_eq h.indexed xs
    refine ⟨hindexed, ?_⟩
    rw [Region.firsts_append, ← hnew]
    exact hregions

theorem Holds.foldl_enter (h : r.Holds done) (entries : List Entry) :
    (entries.foldl Roster.enter r).Holds (done ++ entered entries) := by
  induction entries generalizing r done with
  | nil => simpa [entered] using h
  | cons entry entries ih =>
    have hrest := ih (h.enter entry)
    rwa [List.append_assoc] at hrest

/-- A roster holds the first sightings of all that was entered. -/
theorem holds_after (entries : List Entry) : (after entries).Holds (entered entries) :=
  holds_empty.foldl_enter entries

/-! ## Keys -/

/-- The keys of a roster's regions, one for each region. -/
def keys (r : Roster) : List SightingKey := r.regions.map Region.key

theorem mem_keys_iff : k ∈ r.keys ↔ keyIn r.regions k = true := by
  rw [Region.keyIn_iff, keys, List.mem_map]

theorem Holds.nodup_keys (h : r.Holds done) : r.keys.Nodup := by
  rw [keys, h.regions_eq, List.Nodup, List.pairwise_map]
  exact Region.pairwise_firsts done

/-- The keys that a roster has seen are those of its regions. -/
theorem Indexed.mem_seen_iff (h : r.Indexed) : k ∈ r.seen ↔ k ∈ r.keys := by
  rw [mem_keys_iff, ← h k, Std.HashSet.mem_iff_contains]

/-- A region is entered when its key is new. -/
theorem Indexed.insert_fst_iff (h : r.Indexed) : (r.insert x).1 = true ↔ x.key ∉ r.keys := by
  rw [(insert_eq h x).1, mem_keys_iff, Bool.not_eq_true, Bool.not_eq_true']

/-- A region whose key was seen changes nothing. -/
theorem Indexed.insert_of_mem_keys (h : r.Indexed) (hx : x.key ∈ r.keys) :
    r.insert x = (false, r) := by
  have hseen : r.seen.contains x.key = true := by
    rw [h x.key]
    exact mem_keys_iff.1 hx
  obtain ⟨seen, found⟩ := r
  simp only [insert, hseen, if_true]

/-- A batch of regions whose keys were all seen changes nothing. -/
theorem Indexed.insertAll_of_mem_keys (h : r.Indexed) (hxs : ∀ x ∈ xs, x.key ∈ r.keys) :
    r.insertAll xs = (0, r) := by
  induction xs with
  | nil => rfl
  | cons x xs ih =>
    rw [insertAll, h.insert_of_mem_keys (hxs x List.mem_cons_self)]
    simp only [ih fun y hy => hxs y (List.mem_cons_of_mem x hy)]
    rfl

/-! ## Counts -/

/-- The keys of a batch that the roster does not have. -/
def newKeys (r : Roster) (xs : List Region) : Finset SightingKey :=
  (xs.map Region.key).toFinset \ r.keys.toFinset

/-- The first sightings that a batch adds have the new keys, each once. -/
theorem card_newKeys (r : Roster) (xs : List Region) :
    (r.newKeys xs).card = ((firsts xs).filter fun y => !keyIn r.regions y.key).length := by
  have hnodup : (((firsts xs).filter fun y => !keyIn r.regions y.key).map Region.key).Nodup := by
    rw [List.Nodup, List.pairwise_map]
    exact (Region.pairwise_firsts xs).filter _
  rw [← List.length_map Region.key, ← List.toFinset_card_of_nodup hnodup]
  congr 1
  ext k
  have hbatch : k ∈ (xs.map Region.key).toFinset ↔ ∃ y ∈ firsts xs, y.key = k := by
    rw [List.mem_toFinset, List.mem_map, ← Region.keyIn_iff, ← Region.keyIn_iff, Region.keyIn_firsts]
  rw [newKeys, Finset.mem_sdiff, hbatch, List.mem_toFinset, List.mem_toFinset, mem_keys_iff,
    List.mem_map]
  constructor
  · rintro ⟨⟨y, hy, rfl⟩, hnew⟩
    exact ⟨y, List.mem_filter.2 ⟨hy, by simpa using hnew⟩, rfl⟩
  · rintro ⟨y, hy, rfl⟩
    obtain ⟨hy, hnew⟩ := List.mem_filter.1 hy
    exact ⟨⟨y, hy, rfl⟩, by simpa using hnew⟩

/-- As many regions of a batch are entered as there are new keys. -/
theorem Indexed.insertAll_fst (h : r.Indexed) (xs : List Region) :
    (r.insertAll xs).1 = (r.newKeys xs).card := by
  have hsize := size_insertAll r xs
  have hlength := congrArg List.length (insertAll_eq h xs).2
  rw [List.length_append, ← card_newKeys] at hlength
  have hgrown : (r.insertAll xs).2.size = r.size + (r.newKeys xs).card := hlength
  omega

/-- The counts of two batches add up. -/
theorem insertAll_append_fst (r : Roster) (xs ys : List Region) :
    (r.insertAll (xs ++ ys)).1 = (r.insertAll xs).1 + ((r.insertAll xs).2.insertAll ys).1 := by
  have hboth := size_insertAll r (xs ++ ys)
  rw [insertAll_append, size_insertAll, size_insertAll] at hboth
  omega

/-! ## Any entries -/

/-- After any entries a roster holds the first region of every key that was entered. It has seen the keys of its
regions, which are all different. Entering a region tells whether its key is new, and changes nothing when it is
not. Entering a batch tells by how much the roster grows, which is how many new keys the batch has; two batches
one after the other are one batch; and a batch without new keys changes nothing. -/
theorem keys_entered_once (entries : List Entry) :
    (after entries).regions = firsts (entered entries) ∧
      (∀ k, k ∈ (after entries).seen ↔ k ∈ (after entries).keys) ∧ (after entries).keys.Nodup ∧
      (∀ x, ((after entries).insert x).1 = true ↔ x.key ∉ (after entries).seen) ∧
      (∀ x, ((after entries).insert x).1 = false → ((after entries).insert x).2 = after entries) ∧
      (∀ xs, ((after entries).insertAll xs).2.size =
          (after entries).size + ((after entries).insertAll xs).1 ∧
        ((after entries).insertAll xs).1 = ((after entries).newKeys xs).card) ∧
      (∀ xs ys, (after entries).insertAll (xs ++ ys) =
        (((after entries).insertAll xs).1 + (((after entries).insertAll xs).2.insertAll ys).1,
          (((after entries).insertAll xs).2.insertAll ys).2)) ∧
      ∀ xs : List Region, (∀ x ∈ xs, x.key ∈ (after entries).seen) →
        (after entries).insertAll xs = (0, after entries) := by
  have hholds := holds_after entries
  have hindexed := hholds.indexed
  generalize after entries = r at *
  refine ⟨hholds.regions_eq, fun k => hindexed.mem_seen_iff, hholds.nodup_keys, fun x => ?_,
    fun x hx => ?_, fun xs => ⟨size_insertAll r xs, hindexed.insertAll_fst xs⟩, fun xs ys => ?_,
    fun xs hxs => ?_⟩
  · rw [hindexed.mem_seen_iff, hindexed.insert_fst_iff]
  · have hkey : x.key ∈ r.keys := by
      by_contra hnew
      rw [hindexed.insert_fst_iff.2 hnew] at hx
      cases hx
    rw [hindexed.insert_of_mem_keys hkey]
  · exact Prod.ext (insertAll_append_fst r xs ys) (insertAll_append r xs ys)
  · exact hindexed.insertAll_of_mem_keys fun x hx => hindexed.mem_seen_iff.1 (hxs x hx)

/-- A region seen in a round, with a thumbnail of one byte. -/
def sighting (width : Float) (cycle : Nat) : Region :=
  ⟨⟨0, 0, width, 40⟩, cycle, #[1], .medium⟩

/-- A batch in which one window is seen twice, as wide as `64` and then as `64.5`, gives the roster one region for
it, and seeing that window again changes nothing. -/
theorem keys_entered_once_twin :
    (∀ x ∈ [sighting 64.5 7], x.key ∈ (after [.batch [sighting 64 0, sighting 64.5 1],
      .one (sighting 80 1)]).seen) ∧
    (after [.batch [sighting 64 0, sighting 64.5 1], .one (sighting 80 1)]).regions =
      [sighting 64 0, sighting 80 1] ∧
    (after [.batch [sighting 64 0, sighting 64.5 1], .one (sighting 80 1)]).insertAll
      [sighting 64.5 7] = (0, after [.batch [sighting 64 0, sighting 64.5 1], .one (sighting 80 1)]) := by
  have h := keys_entered_once [.batch [sighting 64 0, sighting 64.5 1], .one (sighting 80 1)]
  have hfirsts : firsts (entered [.batch [sighting 64 0, sighting 64.5 1], .one (sighting 80 1)]) =
      [sighting 64 0, sighting 80 1] := by
    have hsame : ((sighting 64 0).key != (sighting 64.5 1).key) = false := by decide +kernel
    have hother : ((sighting 64 0).key != (sighting 80 1).key) = true := by decide +kernel
    have hother' : ((sighting 64.5 1).key != (sighting 80 1).key) = true := by decide +kernel
    simp [entered, Entry.regions, firsts, hsame, hother, hother']
  have hregions := h.1.trans hfirsts
  have hseen : ∀ x ∈ [sighting 64.5 7], x.key ∈ (after [.batch [sighting 64 0, sighting 64.5 1],
      .one (sighting 80 1)]).seen := by
    intro x hx
    obtain rfl := List.mem_singleton.1 hx
    have hkey : (sighting 64 0).key = (sighting 64.5 7).key := by decide +kernel
    rw [h.2.1, keys, hregions, ← hkey]
    exact List.mem_cons_self
  exact ⟨hseen, hregions, h.2.2.2.2.2.2.2 _ hseen⟩

end WindowSurvey.Roster
