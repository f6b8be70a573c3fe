import WindowSurvey.RunId
/-!
# The written form of a run identifier is read back

The written form has all thirty-two digits of the number, in five groups with hyphens between them. A reader that
finds the hyphens in their places and takes them out has the digits again, and digits with zeros in front name the
number they name without.

## Main statements

* `RunId.ofText_text` — the written form of every identifier is read as that identifier
-/

namespace WindowSurvey.RunId

variable {n : Nat} {cs ds : List Char}

/-! ## Digits -/

/-- A digit is read as its value. -/
theorem hexDigit?_digitChar (h : n < 16) : Json.hexDigit? n.digitChar = some n := by
  match n with
  | 0 | 1 | 2 | 3 | 4 | 5 | 6 | 7 | 8 | 9 | 10 | 11 | 12 | 13 | 14 | 15 => rfl
  | _ + 16 => omega

theorem ofDigits?_append (cs ds : List Char) (n : Nat) :
    ofDigits? (cs ++ ds) n = (ofDigits? cs n).bind (ofDigits? ds) := by
  induction cs generalizing n with
  | nil => rfl
  | cons c cs ih =>
    simp only [List.cons_append, ofDigits?, ih]
    cases Json.hexDigit? c <;> rfl

theorem ofDigits?_toDigits (n : Nat) : ofDigits? (Nat.toDigits 16 n) 0 = some n := by
  induction n using Nat.strongRecOn with
  | ind n ih =>
    rcases Nat.lt_or_ge n 16 with h | h
    · rw [Nat.toDigits_of_lt_base h]
      simp [ofDigits?, hexDigit?_digitChar h]
    · rw [Nat.toDigits_of_base_le (by decide) h, ofDigits?_append, ih (n / 16) (by omega)]
      simp [ofDigits?, hexDigit?_digitChar (Nat.mod_lt n (show 0 < 16 by decide)), Nat.div_add_mod']

theorem ofDigits?_replicate (k : Nat) : ofDigits? (List.replicate k '0') 0 = some 0 := by
  induction k with
  | zero => rfl
  | succ k ih => exact ih

/-- Zeros in front of a number leave it as it is. -/
theorem ofDigits?_hexDigits (count n : Nat) : ofDigits? (hexDigits count n) 0 = some n := by
  rw [hexDigits, ofDigits?_append, ofDigits?_replicate]
  exact ofDigits?_toDigits n

theorem length_hexDigits {count : Nat} (hcount : 0 < count) (h : n < Nat.pow 16 count) :
    (hexDigits count n).length = count := by
  have hle := (Nat.length_toDigits_le_iff (n := n) (show 1 < 16 by decide) hcount).2 h
  rw [hexDigits, List.length_append, List.length_replicate]
  omega

/-- Where a number is read there is no hyphen. -/
theorem ne_hyphen_of_ofDigits? (h : (ofDigits? cs n).isSome) : ∀ c ∈ cs, c ≠ '-' := by
  induction cs generalizing n with
  | nil => simp
  | cons c cs ih =>
    intro d hd
    rcases List.mem_cons.1 hd with rfl | hd
    · rintro rfl
      simp [ofDigits?, show Json.hexDigit? '-' = none from rfl] at h
    · cases hc : Json.hexDigit? c with
      | none => simp [ofDigits?, hc] at h
      | some v => exact ih (by simpa [ofDigits?, hc] using h) d hd

/-! ## Groups -/

/-- The digits with a hyphen behind each of the first four groups. -/
def grouped (ds : List Char) : List Char :=
  ds.take 8 ++ '-' :: ((ds.drop 8).take 4 ++ '-' :: ((ds.drop 12).take 4 ++ '-' ::
    ((ds.drop 16).take 4 ++ '-' :: (ds.drop 20).take 12)))

theorem toList_text (id : RunId) : id.text.toList = grouped (hexDigits 32 id.value.toNat) := by
  simp [text, groups, cut, grouped, List.intercalate]

variable (hds : ds.length = 32)
include hds

theorem length_grouped : (grouped ds).length = 36 := by
  simp [grouped, hds]

theorem hyphens_grouped : hyphenPlaces.all (fun i => (grouped ds)[i]? = some '-') = true := by
  simp [hyphenPlaces, grouped, List.getElem?_append, List.getElem?_cons, hds]

/-- Taking out the hyphens leaves the digits. -/
theorem filter_grouped (h : ∀ c ∈ ds, c ≠ '-') : (grouped ds).filter (· != '-') = ds := by
  have hall (es : List Char) (hes : es.Sublist ds) : es.filter (· != '-') = es :=
    List.filter_eq_self.2 fun c hc => by simpa using h c (hes.subset hc)
  have hpart (k m : Nat) : (ds.drop k).take m |>.Sublist ds :=
    (List.take_sublist _ _).trans (List.drop_sublist _ _)
  have hlast : (ds.drop 20).take 12 = ds.drop 20 := List.take_of_length_le (by simp [hds])
  have hnext (k : Nat) : (ds.drop k).take 4 ++ ds.drop (k + 4) = ds.drop k := by
    rw [← List.drop_drop, List.take_append_drop]
  simp only [grouped, List.filter_append, List.filter_cons, hall _ (List.take_sublist 8 ds),
    hall _ (hpart _ _), hlast]
  simp [hall _ (List.drop_sublist 20 ds), hnext]

theorem ofGroups?_grouped (h : (ofDigits? ds 0).isSome) :
    ofGroups? (grouped ds) = (ofDigits? ds 0).map fun n => ⟨BitVec.ofNat 128 n⟩ := by
  rw [ofGroups?, if_pos ⟨length_grouped hds, hyphens_grouped hds⟩,
    filter_grouped hds (ne_hyphen_of_ofDigits? h), ofPlain?, if_pos hds]

omit hds

/-! ## Whole texts -/

/-- The written form of an identifier is read as that identifier. -/
theorem ofText_text (id : RunId) : ofText id.text = .ok id := by
  have hlength : (hexDigits 32 id.value.toNat).length = 32 :=
    length_hexDigits (by decide) id.value.isLt
  have hdigits := ofDigits?_hexDigits 32 id.value.toNat
  have hread : ofGroups? id.text.toList = some id := by
    rw [toList_text, ofGroups?_grouped hlength (by rw [hdigits]; rfl), hdigits]
    simp
  have h36 : id.text.toList.length = 36 := by rw [toList_text, length_grouped hlength]
  simp only [ofText, h36, hread]

theorem ofJson_toJson (id : RunId) : ofJson id.toJson = .ok id := by
  simp only [toJson, Json.ofString, ofJson, ofText_text]

end WindowSurvey.RunId
