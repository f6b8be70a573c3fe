import Mathlib.Data.List.Forall2
import Mathlib.Data.List.Nodup
import WindowSurvey.Json.Decoding
/-!
# Which trees spell a record

A record is spelled by a list of its fields in order, of which fields that may be missing can be left out at the
end, or by an object: its members stand in any order, among others with unknown names, and each field has at most
one. A reader accepts these trees and no others, and finds in every slot what the tree gives for it.

## Main definitions

* `Json.Field.Takes` — what may stand in the slot of a field
* `Json.known`, `Json.present` — the members of an object that fields know, and the slots that are filled
* `Json.Spells` — the trees that spell a record

## Main statements

* `Json.slots_eq_ok_iff` — a tree is accepted when it spells a record
-/

namespace WindowSurvey.Json

variable {ε α β : Type} {field : Field} {fields : List Field} {members : List (Option String × Json)}
  {filled : List (String × Json)} {vs : List (Option Json)} {name : String} {value : Json}

/-! ## Answers -/

theorem bind_eq_ok_iff {x : Except ε α} {f : α → Except ε β} {b : β} :
    (x >>= f) = .ok b ↔ ∃ a, x = .ok a ∧ f a = .ok b := by
  cases x with
  | error e => exact ⟨nofun, nofun⟩
  | ok a => exact ⟨fun h => ⟨a, rfl, h⟩, fun ⟨_, h, hf⟩ => by cases h; exact hf⟩

theorem map_eq_ok_iff {x : Except ε α} {f : α → β} {b : β} :
    x.map f = .ok b ↔ ∃ a, x = .ok a ∧ f a = b := by
  cases x with
  | error e => exact ⟨nofun, nofun⟩
  | ok a => exact ⟨fun h => ⟨a, rfl, by cases h; rfl⟩, fun ⟨_, h, hf⟩ => by cases h; rw [← hf]; rfl⟩

theorem orFault_eq_ok_iff {fault : Option Fault} {u : Unit} : orFault fault = .ok u ↔ fault = none := by
  cases fault with
  | none => exact ⟨fun _ => rfl, fun _ => rfl⟩
  | some f => exact ⟨nofun, nofun⟩

/-! ## Slots -/

/-- What may stand in the slot of a field: a value that can be read, or nothing where the field may be missing. -/
def Field.Takes (field : Field) : Option Json → Prop
  | some value => field.check value = .ok ()
  | none => field.mayMiss = true

theorem takes_required_iff {decode : Json → Result α} {slot : Option Json} :
    (Field.required name decode).Takes slot ↔ ∃ value a, slot = some value ∧ decode value = .ok a := by
  cases slot with
  | none => exact ⟨nofun, nofun⟩
  | some value => simp [Field.Takes, Field.required, map_eq_ok_iff]

theorem takes_optional_iff {decode : Json → Result α} {slot : Option Json} :
    (Field.optional name decode).Takes slot ↔ ∃ a, optionalSlot decode slot = .ok a := by
  cases slot with
  | none => exact ⟨fun _ => ⟨none, rfl⟩, fun _ => rfl⟩
  | some value => simp [Field.Takes, Field.optional, map_eq_ok_iff, optionalSlot]

theorem slot_eq_ok_iff {decode : Json → Result α} {slot : Option Json} {a : α} :
    Json.slot decode slot = .ok a ↔ ∃ value, slot = some value ∧ decode value = .ok a := by
  cases slot with
  | none => exact ⟨nofun, nofun⟩
  | some value => exact ⟨fun h => ⟨value, rfl, h⟩, fun ⟨_, h, ha⟩ => by cases h; exact ha⟩

/-- The slots that are filled, under the names of their fields. -/
def present (fields : List Field) (vs : List (Option Json)) : List (String × Json) :=
  (fields.zip vs).filterMap fun (field, slot) => slot.map (field.name, ·)

/-! ## Lists -/

theorem fillItems_eq_ok_iff {what : String} {total place : Nat} {cut : Option Fault}
    {values : List Json} : fillItems what total cut place fields values = .ok vs ↔
      cut = none ∧ List.Forall₂ Field.Takes fields vs ∧
        ∃ missing, vs = values.map some ++ List.replicate missing none := by
  induction fields generalizing values place vs with
  | nil =>
    cases values with
    | nil =>
      rw [fillItems, map_eq_ok_iff]
      simp only [orFault_eq_ok_iff, List.forall₂_nil_left_iff, List.map_nil, List.nil_append]
      constructor
      · rintro ⟨_, hcut, rfl⟩
        exact ⟨hcut, rfl, 0, rfl⟩
      · rintro ⟨hcut, rfl, -⟩
        exact ⟨(), hcut, rfl⟩
    | cons value values =>
      refine ⟨nofun, ?_⟩
      rintro ⟨-, htakes, missing, rfl⟩
      cases htakes
  | cons field fields ih =>
    cases values with
    | nil =>
      rw [fillItems, bind_eq_ok_iff]
      simp only [orFault_eq_ok_iff, List.map_nil, List.nil_append]
      by_cases hmiss : field.mayMiss = true
      · simp only [hmiss, if_true, map_eq_ok_iff, ih, List.map_nil, List.nil_append]
        constructor
        · rintro ⟨_, hcut, vs, ⟨-, htakes, missing, rfl⟩, rfl⟩
          exact ⟨hcut, .cons hmiss htakes, missing + 1, rfl⟩
        · rintro ⟨hcut, htakes, missing, rfl⟩
          cases missing with
          | zero => cases htakes
          | succ missing =>
            cases htakes with
            | cons _ htakes => exact ⟨(), hcut, _, ⟨hcut, htakes, missing, rfl⟩, rfl⟩
      · simp only [hmiss]
        constructor
        · rintro ⟨_, _, h⟩
          cases h
        · rintro ⟨_, htakes, missing, rfl⟩
          cases missing with
          | zero => cases htakes
          | succ missing =>
            cases htakes with
            | cons hmiss' _ => exact absurd hmiss' hmiss
    | cons value values =>
      rw [fillItems, bind_eq_ok_iff]
      simp only [map_eq_ok_iff, ih, List.map_cons, List.cons_append]
      constructor
      · rintro ⟨_, hcheck, vs, ⟨hcut, htakes, missing, rfl⟩, rfl⟩
        exact ⟨hcut, .cons hcheck htakes, missing, rfl⟩
      · rintro ⟨hcut, htakes, missing, rfl⟩
        cases htakes with
        | cons hcheck htakes => exact ⟨(), hcheck, _, ⟨hcut, htakes, missing, rfl⟩, rfl⟩

/-! ## Objects -/

/-- The members of an object whose names belong to fields. -/
def known (fields : List Field) (members : List (Option String × Json)) : List (String × Json) :=
  members.filterMap fun (name, value) =>
    name.bind fun name => if name ∈ fields.map Field.name then some (name, value) else none

/-- A member that does not stop a reader: its name is a string, and if no field has the name, no break stands
inside the value. -/
def IsPassed (fields : List Field) : Option String × Json → Prop
  | (none, _) => False
  | (some name, value) => name ∉ fields.map Field.name → value.fault? = none

theorem find?_eq_none_iff :
    fields.find? (fun field => field.name == name) = none ↔ name ∉ fields.map Field.name := by
  simp

theorem mem_of_find? (h : fields.find? (fun field => field.name == name) = some field) :
    field ∈ fields ∧ field.name = name :=
  ⟨List.mem_of_find?_eq_some h, by simpa using List.find?_some h⟩

/-- A look-up passes over pairs with other names. -/
theorem lookup_cons_of_ne {p : String × Json} (h : name ≠ p.1) : (p :: filled).lookup name = filled.lookup name := by
  rw [List.lookup_cons, beq_eq_false_iff_ne.2 h]

theorem isSome_lookup_iff : (filled.lookup name).isSome = true ↔ name ∈ filled.map Prod.fst := by
  induction filled with
  | nil => simp
  | cons p filled ih =>
    rw [List.map_cons, List.mem_cons, ← ih]
    by_cases h : name = p.1
    · simp [h]
    · simp [lookup_cons_of_ne h, h]

/-- Where names are not repeated, a look-up finds the pair with the name. -/
theorem lookup_eq_some_iff (h : (filled.map Prod.fst).Nodup) :
    filled.lookup name = some value ↔ (name, value) ∈ filled := by
  induction filled with
  | nil => simp
  | cons p filled ih =>
    obtain ⟨hp, hrest⟩ := List.nodup_cons.1 h
    obtain ⟨name', value'⟩ := p
    rw [List.mem_cons, Prod.mk.injEq]
    by_cases hname : name = name'
    · subst hname
      have hnot : (name, value) ∉ filled := fun hmem => hp (List.mem_map.2 ⟨_, hmem, rfl⟩)
      simp [hnot, eq_comm]
    · rw [lookup_cons_of_ne hname, ih hrest]
      simp [hname]

/-- A known member has a value that its field can read. -/
def IsRead (fields : List Field) (p : String × Json) : Prop :=
  ∀ field ∈ fields, field.name = p.1 → field.check p.2 = .ok ()

theorem known_cons_of_notMem (h : name ∉ fields.map Field.name) :
    known fields ((some name, value) :: members) = known fields members := by
  simp only [known, List.filterMap_cons, Option.bind_some, if_neg h]

theorem known_cons_of_mem (h : name ∈ fields.map Field.name) :
    known fields ((some name, value) :: members) = (name, value) :: known fields members := by
  simp only [known, List.filterMap_cons, Option.bind_some, if_pos h]

/-- Reading members fills the slots that were empty before, each at most once. -/
theorem fillMembers_eq_ok_iff (hfields : (fields.map Field.name).Nodup)
    (hfilled : (filled.map Prod.fst).Nodup) {out : List (String × Json)} :
    fillMembers fields filled members = .ok out ↔ (∀ m ∈ members, IsPassed fields m) ∧
      (∀ p ∈ known fields members, IsRead fields p) ∧
      ((filled ++ known fields members).map Prod.fst).Nodup ∧
      out = filled ++ known fields members := by
  induction members generalizing filled with
  | nil => simp [fillMembers, known, hfilled, eq_comm]
  | cons m members ih =>
    obtain ⟨name | name, value⟩ := m
    · simp [fillMembers, IsPassed]
    rw [fillMembers, List.forall_mem_cons]
    cases hfind : fields.find? fun field => field.name == name with
    | none =>
      have hunknown := find?_eq_none_iff.1 hfind
      simp only [bind_eq_ok_iff, orFault_eq_ok_iff, ih hfilled, known_cons_of_notMem hunknown, IsPassed]
      constructor
      · rintro ⟨_, hfault, hpassed, hrest⟩
        exact ⟨⟨fun _ => hfault, hpassed⟩, hrest⟩
      · rintro ⟨⟨hfault, hpassed⟩, hrest⟩
        exact ⟨(), hfault hunknown, hpassed, hrest⟩
    | some field =>
      obtain ⟨hmem, rfl⟩ := mem_of_find? hfind
      have hname : field.name ∈ fields.map Field.name := List.mem_map_of_mem hmem
      -- fields with one name are one field
      have hread : IsRead fields (field.name, value) ↔ field.check value = .ok () :=
        ⟨fun h => h field hmem rfl, fun h other ho he => List.inj_on_of_nodup_map hfields ho hmem he ▸ h⟩
      rw [known_cons_of_mem hname, List.forall_mem_cons, hread]
      by_cases hseen : field.name ∈ filled.map Prod.fst
      · simp only [isSome_lookup_iff.2 hseen, if_true]
        refine ⟨nofun, ?_⟩
        rintro ⟨-, -, hnodup, -⟩
        rw [List.map_append, List.nodup_append] at hnodup
        exact absurd rfl (hnodup.2.2 _ hseen _ List.mem_cons_self)
      · have hfilled' : ((filled ++ [(field.name, value)]).map Prod.fst).Nodup := by
          rw [List.map_append, List.nodup_append]
          refine ⟨hfilled, List.nodup_singleton _, fun a ha b hb hab => hseen ?_⟩
          have hb : b = field.name := List.mem_singleton.1 hb
          exact hb ▸ hab ▸ ha
        simp only [if_neg (isSome_lookup_iff.not.2 hseen), bind_eq_ok_iff, ih hfilled',
          List.append_assoc, List.singleton_append]
        constructor
        · rintro ⟨_, hcheck, hpassed, hrest⟩
          exact ⟨⟨fun h => absurd hname h, hpassed⟩, ⟨hcheck, hrest.1⟩, hrest.2⟩
        · rintro ⟨⟨-, hpassed⟩, ⟨hcheck, hreads⟩, hrest⟩
          exact ⟨(), hcheck, hpassed, hreads, hrest⟩

theorem collect_eq_ok_iff : collect filled fields = .ok vs ↔
    (∀ field ∈ fields, filled.lookup field.name = none → field.mayMiss = true) ∧
      vs = fields.map fun field => filled.lookup field.name := by
  induction fields generalizing vs with
  | nil => exact ⟨fun h => by cases h; exact ⟨nofun, rfl⟩, fun h => by rw [h.2]; rfl⟩
  | cons field fields ih =>
    rw [collect, List.forall_mem_cons, List.map_cons]
    cases filled.lookup field.name with
    | some value =>
      simp only [map_eq_ok_iff, ih]
      constructor
      · rintro ⟨_, ⟨hmiss, rfl⟩, rfl⟩
        exact ⟨⟨nofun, hmiss⟩, rfl⟩
      · rintro ⟨⟨-, hmiss⟩, rfl⟩
        exact ⟨_, ⟨hmiss, rfl⟩, rfl⟩
    | none =>
      by_cases hmay : field.mayMiss = true
      · simp only [hmay, if_true, map_eq_ok_iff, ih]
        constructor
        · rintro ⟨_, ⟨hmiss, rfl⟩, rfl⟩
          exact ⟨⟨fun _ => trivial, hmiss⟩, rfl⟩
        · rintro ⟨⟨-, hmiss⟩, rfl⟩
          exact ⟨_, ⟨hmiss, rfl⟩, rfl⟩
      · rw [if_neg hmay]
        exact ⟨nofun, fun h => absurd (h.1.1 rfl) hmay⟩

/-! ## Both forms -/

/-- The trees that spell a record, with what they give for its slots. -/
inductive Spells (fields : List Field) : Json → List (Option Json) → Prop
  /-- A list of the fields in their order. Only fields that may be missing are left out, and only at the end. -/
  | items {values : List Json} {missing : Nat}
      (takes : List.Forall₂ Field.Takes fields (values.map some ++ List.replicate missing none)) :
      Spells fields (.array values none) (values.map some ++ List.replicate missing none)
  /-- An object whose members are the filled slots in any order, among members with unknown names. -/
  | members {members : List (Option String × Json)} {vs : List (Option Json)}
      (passed : ∀ m ∈ members, IsPassed fields m)
      (known : (known fields members).Perm (present fields vs))
      (takes : List.Forall₂ Field.Takes fields vs) : Spells fields (.object members none) vs

theorem mem_present_iff {p : String × Json} :
    p ∈ present fields vs ↔ ∃ field, (field, some p.2) ∈ fields.zip vs ∧ field.name = p.1 := by
  simp only [present, List.mem_filterMap, Option.map_eq_some_iff, Prod.exists]
  constructor
  · rintro ⟨field, slot, hmem, value, rfl, rfl⟩
    exact ⟨field, hmem, rfl⟩
  · rintro ⟨field, hmem, hname⟩
    exact ⟨field, some p.2, hmem, p.2, rfl, Prod.ext hname rfl⟩

theorem present_cons {slot : Option Json} {vs : List (Option Json)} :
    present (field :: fields) (slot :: vs) =
      (slot.map (field.name, ·)).toList ++ present fields vs := by
  cases slot <;> rfl

/-- The filled slots have names of fields, in the order of the fields. -/
theorem present_fst_sublist : ((present fields vs).map Prod.fst).Sublist (fields.map Field.name) := by
  induction fields generalizing vs with
  | nil => simp [present]
  | cons field fields ih =>
    cases vs with
    | nil => simp [present]
    | cons slot vs =>
      rw [present_cons]
      cases slot with
      | none => exact ih.trans (List.sublist_cons_self _ _)
      | some value => exact ih.cons_cons _

theorem fst_mem_of_mem_known {p : String × Json} (h : p ∈ known fields members) :
    p.1 ∈ fields.map Field.name := by
  simp only [known, List.mem_filterMap, Prod.exists, Option.bind_eq_some_iff] at h
  obtain ⟨name, value, -, name', rfl, h⟩ := h
  split at h
  · cases h
    assumption
  · cases h

/-- Where names are not repeated, the order does not matter to a look-up. -/
theorem lookup_eq_of_perm {filled' : List (String × Json)} (h : (filled.map Prod.fst).Nodup)
    (hperm : filled.Perm filled') : filled.lookup name = filled'.lookup name := by
  have h' : (filled'.map Prod.fst).Nodup := (hperm.map Prod.fst).nodup_iff.1 h
  refine Option.ext fun value => ?_
  rw [lookup_eq_some_iff h, lookup_eq_some_iff h', hperm.mem_iff]

/-- Looking every field up in the filled slots gives the slots back. -/
theorem map_lookup_present (hfields : (fields.map Field.name).Nodup) (hlength : fields.length = vs.length) :
    fields.map (fun field => (present fields vs).lookup field.name) = vs := by
  induction fields generalizing vs with
  | nil => simpa [eq_comm] using hlength
  | cons field fields ih =>
    cases vs with
    | nil => cases hlength
    | cons slot vs =>
      obtain ⟨hname, hrest⟩ := List.nodup_cons.1 hfields
      have hothers : (present fields vs).lookup field.name = none := by
        rw [← Option.not_isSome_iff_eq_none, isSome_lookup_iff]
        exact fun hmem => hname (present_fst_sublist.subset hmem)
      rw [List.map_cons, present_cons]
      congr 1
      · cases slot with
        | none => exact hothers
        | some value => simp
      · refine Eq.trans (List.map_congr_left fun other hother => ?_) (ih hrest (Nat.succ.inj hlength))
        have hne : other.name ≠ field.name := fun h => hname (h ▸ List.mem_map_of_mem hother)
        cases slot with
        | none => rfl
        | some value => exact lookup_cons_of_ne hne

theorem mem_zip_map_iff {f : Field → Option Json} {slot : Option Json} :
    (field, slot) ∈ fields.zip (fields.map f) ↔ field ∈ fields ∧ slot = f field := by
  induction fields with
  | nil => simp
  | cons other fields ih =>
    rw [List.map_cons, List.zip_cons_cons, List.mem_cons, List.mem_cons, ih, Prod.mk.injEq, or_and_right]
    refine or_congr ⟨?_, ?_⟩ Iff.rfl
    · rintro ⟨rfl, h⟩
      exact ⟨rfl, h⟩
    · rintro ⟨rfl, h⟩
      exact ⟨rfl, h⟩

/-- The slots looked up among filled ones are the filled ones again. -/
theorem perm_present_map_lookup (hfields : (fields.map Field.name).Nodup)
    (hfilled : (filled.map Prod.fst).Nodup) (hnames : ∀ p ∈ filled, p.1 ∈ fields.map Field.name) :
    filled.Perm (present fields (fields.map fun field => filled.lookup field.name)) := by
  refine (List.perm_ext_iff_of_nodup hfilled.of_map
    (hfields.sublist present_fst_sublist).of_map).2 fun ⟨name, value⟩ => ?_
  simp only [mem_present_iff, mem_zip_map_iff]
  constructor
  · intro hmem
    obtain ⟨field, hfield, rfl⟩ := List.mem_map.1 (hnames _ hmem)
    exact ⟨field, ⟨hfield, ((lookup_eq_some_iff hfilled).2 hmem).symm⟩, rfl⟩
  · rintro ⟨field, ⟨-, hlookup⟩, rfl⟩
    exact (lookup_eq_some_iff hfilled).1 hlookup.symm

/-- Where every slot holds what its field takes, the filled slots can be read. -/
theorem isRead_of_mem_present (hfields : (fields.map Field.name).Nodup)
    (htakes : List.Forall₂ Field.Takes fields vs) {p : String × Json} (hp : p ∈ present fields vs) :
    IsRead fields p := by
  obtain ⟨field, hzip, hname⟩ := mem_present_iff.1 hp
  intro other hother hsame
  have hfield : field ∈ fields := (List.of_mem_zip hzip).1
  have hone : other = field := List.inj_on_of_nodup_map hfields hother hfield (hsame.trans hname.symm)
  exact hone ▸ (List.forall₂_iff_zip.1 htakes).2 hzip

theorem wrongType_ne_ok {what : String} {a : α} : value.wrongType what ≠ .ok a := by
  unfold wrongType
  cases value.describe <;> exact nofun

/-- A tree is accepted when it spells a record, and gives the slots it spells. -/
theorem slots_eq_ok_iff (hfields : (fields.map Field.name).Nodup) {what : String} {j : Json} :
    slots what fields j = .ok vs ↔ Spells fields j vs := by
  have hempty : (([] : List (String × Json)).map Prod.fst).Nodup := .nil
  constructor
  · intro h
    match j with
    | .object members cut =>
      obtain ⟨filled, hfill, _, hcut, hcollect⟩ : ∃ filled, _ ∧ ∃ u, _ ∧ _ := by
        simpa only [slots, bind_eq_ok_iff] using h
      obtain ⟨hpassed, hread, hnodup, rfl⟩ := (fillMembers_eq_ok_iff hfields hempty).1 hfill
      obtain ⟨hmiss, rfl⟩ := collect_eq_ok_iff.1 hcollect
      rw [List.nil_append] at *
      obtain rfl := orFault_eq_ok_iff.1 hcut
      refine .members hpassed (perm_present_map_lookup hfields hnodup fun _ => fst_mem_of_mem_known) ?_
      rw [List.forall₂_map_right_iff, List.forall₂_same]
      intro field hfield
      cases hlookup : (known fields members).lookup field.name with
      | none => exact hmiss field hfield hlookup
      | some value => exact hread _ ((lookup_eq_some_iff hnodup).1 hlookup) field hfield rfl
    | .array values cut =>
      obtain ⟨rfl, htakes, missing, rfl⟩ := fillItems_eq_ok_iff.1 h
      exact .items htakes
    | .null | .bool _ | .number _ | .text _ | .broken _ =>
      rw [slots] at h
      · exact (wrongType_ne_ok h).elim
      all_goals exact nofun
  · rintro (⟨htakes⟩ | ⟨hpassed, hperm, htakes⟩)
    · exact fillItems_eq_ok_iff.2 ⟨rfl, htakes, _, rfl⟩
    · rename_i members
      have hnodup : ((known fields members).map Prod.fst).Nodup :=
        (hperm.map Prod.fst).nodup_iff.2 (hfields.sublist present_fst_sublist)
      have hlookup : fields.map (fun field => (known fields members).lookup field.name) = vs := by
        rw [← map_lookup_present hfields htakes.length_eq]
        exact List.map_congr_left fun _ _ => lookup_eq_of_perm hnodup hperm
      have htakes' := htakes
      rw [← hlookup, List.forall₂_map_right_iff, List.forall₂_same] at htakes'
      simp only [slots, bind_eq_ok_iff]
      refine ⟨known fields members, (fillMembers_eq_ok_iff hfields hempty).2
        ⟨hpassed, fun p hp => isRead_of_mem_present hfields htakes (hperm.mem_iff.1 hp), hnodup, rfl⟩,
        (), rfl, collect_eq_ok_iff.2 ⟨fun field hfield hnone => ?_, hlookup.symm⟩⟩
      have := htakes' field hfield
      rwa [hnone] at this

/-- An object of the filled slots in the order of the fields spells the record. -/
theorem spells_ofMembers (htakes : List.Forall₂ Field.Takes fields vs) :
    Spells fields (.ofMembers (present fields vs)) vs := by
  have hnames (p : String × Json) (hp : p ∈ present fields vs) : p.1 ∈ fields.map Field.name :=
    present_fst_sublist.subset (List.mem_map_of_mem hp)
  refine .members ?_ (.of_eq ?_) htakes
  · intro m hm
    obtain ⟨p, hp, rfl⟩ := List.mem_map.1 hm
    exact fun hnot => absurd (hnames p hp) hnot
  · rw [known, List.filterMap_map]
    refine (List.filterMap_congr fun p hp => ?_).trans List.filterMap_some
    exact if_pos (hnames p hp)

/-- What is written for the slots of a record is found in them. -/
theorem slots_ofMembers_present (hfields : (fields.map Field.name).Nodup) {what : String}
    (htakes : List.Forall₂ Field.Takes fields vs) : slots what fields (.ofMembers (present fields vs)) = .ok vs :=
  (slots_eq_ok_iff hfields).2 (spells_ofMembers htakes)

end WindowSurvey.Json
