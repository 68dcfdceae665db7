import Mathlib
import FieldCopy.Keyed

/-!
# More on tables with text keys

**Filling.**  A table that is filled with a list has the keys of the list (`contains_ofList_iff`),
and a list of which only some items are entries fills a table with these (`foldl_insert`).  A key
has the value that it was given last (`find?_ofList`).

**Answers.**  Two tables that give the same answers are the same (`ext_find?`).  The first entry
whose key has some property is that of the least such key (`find?_entries_eq_some_iff`).

**Agreement.**  Two tables agree off some names if they answer alike for all others (`AgreeOff`).
Filling both with the same entries keeps that, and so does filling one of them under these names.
-/

namespace FieldCopy.Keyed

variable {α : Type}

/-! ## Filling -/

lemma look_isSome_iff {key : String} :
    ∀ {entries : List (String × α)}, (look key entries).isSome = true ↔ ∃ e ∈ entries, e.1 = key
  | [] => by simp [look]
  | e :: rest => by
      rw [look]
      split
      · rename_i h
        simp [h]
      · rename_i h
        rw [look_isSome_iff]
        simp [h]

/-- The keys of a table that was filled with a list are those of the list. -/
lemma contains_ofList_iff (entries : List (String × α)) (key : String) :
    (ofList entries).contains key = true ↔ ∃ value, (key, value) ∈ entries := by
  rw [contains]
  induction entries using List.reverseRecOn with
  | nil => simp [ofList]
  | append_singleton entries e ih =>
      have hlast : ofList (entries ++ [e]) = (ofList entries).insert e.1 e.2 := by
        rw [ofList, List.foldl_append]
        rfl
      rw [hlast, find?_insert]
      by_cases h : key = e.1
      · subst h
        simp only [if_pos, Option.isSome_some, true_iff]
        exact ⟨e.2, by simp⟩
      · rw [if_neg h, ih]
        refine exists_congr fun value => ?_
        simp only [List.mem_append, List.mem_singleton]
        exact ⟨.inl, fun hmem => hmem.resolve_right fun he => h (congrArg Prod.fst he)⟩

/-- A table that is filled by some items of a list only. -/
lemma foldl_insert {β : Type} (item? : β → Option (String × α)) (items : List β) :
    items.foldl (fun t b => (item? b).elim t fun e => t.insert e.1 e.2) empty
      = ofList (items.filterMap item?) := by
  rw [ofList, List.foldl_filterMap]
  congr 1
  funext t b
  cases item? b <;> rfl

/-- A key has the value that the list gives it last. -/
lemma find?_ofList (entries : List (String × α)) (key : String) :
    (ofList entries).find? key = (entries.filter fun e => e.1 = key).getLast?.map (·.2) := by
  induction entries using List.reverseRecOn with
  | nil => rfl
  | append_singleton entries e ih =>
      have hlast : ofList (entries ++ [e]) = (ofList entries).insert e.1 e.2 := by
        rw [ofList, List.foldl_append]
        rfl
      rw [hlast, find?_insert, List.filter_append]
      by_cases h : key = e.1
      · rw [if_pos h, List.filter_cons_of_pos (by simp [h]), List.filter_nil,
          List.getLast?_concat, Option.map_some]
      · have hne : e.1 ≠ key := fun heq => h heq.symm
        rw [if_neg h, ih, List.filter_cons_of_neg (by simp [hne]), List.filter_nil,
          List.append_nil]

/-- A key that the list gives one value only has this value. -/
lemma find?_ofList_of_unique {entries : List (String × α)} {key : String} {value : α}
    (given : (key, value) ∈ entries) (unique : ∀ other, (key, other) ∈ entries → other = value) :
    (ofList entries).find? key = some value := by
  have hmem : (key, value) ∈ entries.filter fun e => e.1 = key :=
    List.mem_filter.2 ⟨given, decide_eq_true rfl⟩
  obtain ⟨e, he⟩ := Option.ne_none_iff_exists.1 fun hnone =>
    List.ne_nil_of_mem hmem (List.getLast?_eq_none_iff.1 hnone)
  obtain ⟨hentry, hkey⟩ := List.mem_filter.1 (List.mem_of_getLast? he.symm)
  obtain rfl : e.1 = key := of_decide_eq_true hkey
  rw [find?_ofList, ← he, Option.map_some, unique e.2 hentry]

/-- A table grows by an entry unless it has one of that key. -/
lemma size_insert (t : Keyed α) (key : String) (value : α) :
    (t.insert key value).size + (t.contains key).toNat = t.size + 1 := by
  obtain ⟨entries, ordered⟩ := t
  change (place key value entries).length + (look key entries).isSome.toNat = entries.length + 1
  induction entries with
  | nil => rfl
  | cons e rest ih =>
      obtain ⟨hfirst, hrest⟩ := List.pairwise_cons.1 ordered
      rw [place]
      split
      · -- what stands behind is greater, and so the key is new
        rename_i hless
        have hnew : look key (e :: rest) = none := by
          rw [← Option.not_isSome_iff_eq_none, look_isSome_iff]
          rintro ⟨f, hf, rfl⟩
          rcases List.mem_cons.1 hf with rfl | hf
          · exact String.lt_irrefl _ hless
          · exact String.lt_irrefl _ (String.lt_trans hless (hfirst f hf))
        rw [hnew]
        rfl
      · split
        · rename_i heq
          rw [look, if_pos heq.symm]
          rfl
        · rename_i hne
          rw [look, if_neg (Ne.symm hne), List.length_cons, List.length_cons, ← ih hrest]
          omega

/-! ## Answers -/

/-- In the order of their keys, the entries are the answers. -/
lemma look_eq_some_iff {key : String} {value : α} : ∀ {entries : List (String × α)},
    entries.Pairwise (fun a b => a.1 < b.1) →
      (look key entries = some value ↔ (key, value) ∈ entries)
  | [], _ => by simp [look]
  | e :: rest, h => by
      obtain ⟨hfirst, hrest⟩ := List.pairwise_cons.1 h
      rw [look, List.mem_cons]
      split
      · rename_i hkey
        subst hkey
        have hmiss : (e.1, value) ∉ rest := fun hmem =>
          String.lt_irrefl e.1 (hfirst (e.1, value) hmem)
        rw [or_iff_left hmiss, Option.some.injEq]
        exact ⟨fun hvalue => hvalue ▸ rfl, fun he => (congrArg Prod.snd he).symm⟩
      · rename_i hkey
        rw [look_eq_some_iff hrest,
          or_iff_right fun he => hkey (congrArg Prod.fst he).symm]

/-- What is found first in an ordered list stands in front of all else that could be found. -/
lemma find?_eq_some_iff_of_pairwise {β : Type} {r : β → β → Prop} {l : List β} {p : β → Bool}
    {a : β} (ordered : l.Pairwise r) (asymm : ∀ x y, r x y → ¬ r y x) :
    l.find? p = some a ↔ a ∈ l ∧ p a = true ∧ ∀ b ∈ l, p b = true → b = a ∨ r a b := by
  rw [List.find?_eq_some_iff_append]
  constructor
  · rintro ⟨hp, front, back, rfl, hfront⟩
    refine ⟨by simp, hp, fun b hb hpb => ?_⟩
    rcases List.mem_append.1 hb with hb | hb
    · exact absurd hpb (by simpa using hfront b hb)
    · exact (List.mem_cons.1 hb).imp id fun hb =>
        (List.pairwise_cons.1 (List.pairwise_append.1 ordered).2.1).1 b hb
  · rintro ⟨hmem, hp, hleast⟩
    obtain ⟨front, back, rfl⟩ := List.append_of_mem hmem
    refine ⟨hp, front, back, rfl, fun b hb => ?_⟩
    have hba : r b a := (List.pairwise_append.1 ordered).2.2 b hb a List.mem_cons_self
    rw [Bool.not_eq_eq_eq_not, Bool.not_true, ← Bool.not_eq_true]
    intro hpb
    rcases hleast b (List.mem_append_left _ hb) hpb with rfl | hab
    · exact asymm _ _ hba hba
    · exact asymm _ _ hba hab

/-- **The first entry whose key has a property** is that of the least such key. -/
lemma find?_entries_eq_some_iff (t : Keyed α) {p : String → Bool} {key : String} {value : α} :
    (t.entries.find? fun e => p e.1) = some (key, value)
      ↔ t.find? key = some value ∧ p key = true
        ∧ ∀ other, t.contains other = true → p other = true → key ≤ other := by
  rw [find?_eq_some_iff_of_pairwise t.ordered fun _ _ hab hba =>
    String.lt_irrefl _ (String.lt_trans hab hba), find?, look_eq_some_iff t.ordered]
  refine and_congr_right fun hmem => and_congr_right fun _ => ⟨fun h other hother hp => ?_,
    fun h e he hp => ?_⟩
  · obtain ⟨e, he, rfl⟩ := look_isSome_iff.1 hother
    rcases h e he hp with rfl | hlt
    · exact String.le_refl _
    · exact String.not_lt.1 fun hgt => String.lt_irrefl _ (String.lt_trans hlt hgt)
  · have hle : key ≤ e.1 := h e.1 (look_isSome_iff.2 ⟨e, he, rfl⟩) hp
    by_cases hkey : e.1 = key
    · have hvalue := (look_eq_some_iff t.ordered).2 he
      rw [hkey, (look_eq_some_iff t.ordered).2 hmem] at hvalue
      exact .inl (Prod.ext hkey (Option.some.inj hvalue).symm)
    · exact .inr (lt_of_not_lt_of_ne (String.not_lt.2 hle) hkey)

/-- **Tables with the same answers are the same.** -/
lemma ext_find? {s t : Keyed α} (h : ∀ key, s.find? key = t.find? key) : s = t := by
  obtain ⟨s, hs⟩ := s
  obtain ⟨t, ht⟩ := t
  have hnodup : ∀ {l : List (String × α)}, l.Pairwise (fun a b => a.1 < b.1) → l.Nodup := by
    intro l hl
    refine hl.imp ?_
    rintro a b hlt rfl
    exact String.lt_irrefl a.1 hlt
  have hperm : s.Perm t := (List.perm_ext_iff_of_nodup (hnodup hs) (hnodup ht)).2 fun e => by
    have hkey : look e.1 s = look e.1 t := h e.1
    rw [← look_eq_some_iff hs, ← look_eq_some_iff ht, hkey]
  obtain rfl : s = t := hperm.eq_of_pairwise
    (fun a b _ _ hab hba => absurd (String.lt_trans hab hba) (String.lt_irrefl _)) hs ht
  rfl

/-! ## Agreement -/

variable {names : List String} {s t : Keyed α}

/-- Two tables give the same answers for all but some names. -/
def AgreeOff (names : List String) (s t : Keyed α) : Prop :=
  ∀ key, key ∉ names → s.find? key = t.find? key

namespace AgreeOff

lemma refl (names : List String) (s : Keyed α) : AgreeOff names s s := fun _ _ => rfl

lemma symm (h : AgreeOff names s t) : AgreeOff names t s := fun key hkey => (h key hkey).symm

/-- The same entry in both tables. -/
lemma insert (h : AgreeOff names s t) (key : String) (value : α) :
    AgreeOff names (s.insert key value) (t.insert key value) := by
  intro k hk
  rw [find?_insert, find?_insert, h k hk]

/-- An entry under one of the names in one of the tables. -/
lemma insert_left (h : AgreeOff names s t) {key : String} (hkey : key ∈ names) (value : α) :
    AgreeOff names (s.insert key value) t := by
  intro k hk
  have hne : k ≠ key := fun heq => hk (heq ▸ hkey)
  rw [find?_insert, if_neg hne, h k hk]

lemma mono {more : List String} (h : AgreeOff names s t) (hmore : names ⊆ more) :
    AgreeOff more s t := fun key hkey => h key fun hmem => hkey (hmore hmem)

end AgreeOff

end FieldCopy.Keyed
