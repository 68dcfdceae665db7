import Mathlib
import FieldCopy.Proofs.Catalog.Declaring

/-!
# What a written path means

Structures claim paths one after the other, and a written path is looked up in up to three ways.
What comes of both is said here without a table, in terms of the names that paths are made of.

**Leading words.**  `ModulePath.IsRest`: what is left of a path without the words in front that lead
to the root, and then without those that lead to the current module.

**Endings.**  `Catalog.FirstEnding`: the first structure whose path ends with some names.

**Main statement.**  `Catalog.structIdAtPath?_means`: a written path leads to the first structure
whose path ends with all its names, or else with its last two, or else with its last
(`Catalog.Meaning`).
-/

namespace FieldCopy

namespace ModulePath

/-! ## Leading words -/

/-- What is left of a path behind the repetitions of a word in front. -/
inductive Behind (word : String) : String → String → Prop where
  | nothing {path : String} (other : ¬ word.toList <+: path.toList) : Behind word path path
  | word {path rest : String} (behind : Behind word path rest) : Behind word (word ++ path) rest

lemma behind_dropRepeated {word : String} (hword : word.toList ≠ []) (s : List Char) :
    Behind word (String.ofList s) (String.ofList (Text.dropRepeated word.toList s)) := by
  by_cases h : word.toList <+: s
  · obtain ⟨rest, hrest⟩ := h
    have hlength : rest.length < s.length := by
      have hpos := List.length_pos_iff.2 hword
      rw [← hrest, List.length_append]
      omega
    rw [← hrest, Text.dropRepeated_append hword, String.ofList_append, String.ofList_toList]
    exact .word (behind_dropRepeated hword rest)
  · rw [Text.dropRepeated_of_not_prefix h]
    exact .nothing (by rwa [String.toList_ofList])
  termination_by s.length

/-- There is one thing left behind the repetitions of a word. -/
lemma Behind.unique {word path a b : String} (ha : Behind word path a) (hb : Behind word path b) :
    b = a := by
  induction ha with
  | nothing other =>
      cases hb with
      | nothing _ => rfl
      | word _ => exact absurd (String.toList_append ▸ List.prefix_append _ _) other
  | @word path rest _ ih =>
      generalize hwhole : word ++ path = whole at hb
      cases hb with
      | nothing other =>
          subst hwhole
          exact absurd (String.toList_append ▸ List.prefix_append _ _) other
      | word behind =>
          rw [← String.toList_inj, String.toList_append, String.toList_append] at hwhole
          obtain rfl := String.toList_inj.1 (List.append_cancel_left hwhole)
          exact ih behind

/-- What is left of a written path without the words in front that lead to the root, and then
without those that lead to the current module. -/
def IsRest (written path : String) : Prop :=
  ∃ middle, Behind "crate::" written middle ∧ Behind "self::" middle path

lemma isRest_iff {written path : String} : IsRest written path ↔ path = withoutRoot written := by
  have hrest : IsRest written (withoutRoot written) := by
    refine ⟨_, ?_, behind_dropRepeated (by decide) _⟩
    have hcrate := @behind_dropRepeated "crate::" (by decide) written.toList
    rwa [String.ofList_toList] at hcrate
  constructor
  · rintro ⟨middle, hcrate, hself⟩
    obtain ⟨middle', hcrate', hself'⟩ := hrest
    obtain rfl := hcrate.unique hcrate'
    exact hself'.unique hself
  · rintro rfl
    exact hrest

end ModulePath

open ModulePath

/-! ## Endings -/

namespace QualifiedName

variable {n : QualifiedName} {names : List String}

/-- The path of a name ends with these names. -/
def EndsWith (n : QualifiedName) (names : List String) : Prop := names <:+ segments n.path

lemma EndsWith.mono (h : n.EndsWith names) {fewer : List String} (hfewer : fewer <:+ names) :
    n.EndsWith fewer := hfewer.trans h

lemma claims_join_iff (h : segments (join names) = names) :
    n.claims (join names) = true ↔ n.EndsWith names := by
  rw [claims_iff, mem_suffixes_iff_suffix, h, EndsWith]

end QualifiedName

namespace Catalog

variable {ss : List QualifiedName} {names : List String} {id : StructId}

/-- The number of the first structure whose path ends with these names. -/
structure FirstEnding (ss : List QualifiedName) (names : List String) (id : StructId) : Prop where
  declared : id.index < ss.length
  ends : ss[id.index].EndsWith names
  first : ∀ j (h : j < id.index), ¬ ss[j].EndsWith names

/-- What is declared later does not come first. -/
lemma FirstEnding.append (h : FirstEnding ss names id) (more : List QualifiedName) :
    FirstEnding (ss ++ more) names id where
  declared := by
    rw [List.length_append]
    exact Nat.lt_add_right _ h.declared
  ends := by
    rw [List.getElem_append_left h.declared]
    exact h.ends
  first j hj := by
    rw [List.getElem_append_left (hj.trans h.declared)]
    exact h.first j hj

/-- What a path of these names means: the first structure whose path ends with all of them, or else
with the last two, or else with the last. -/
inductive Meaning (ss : List QualifiedName) (names : List String) : Option StructId → Prop where
  | whole {id : StructId} (found : FirstEnding ss names id) : Meaning ss names (some id)
  | lastTwo {id : StructId} (missing : ∀ s ∈ ss, ¬ s.EndsWith names) (long : 2 < names.length)
      (found : FirstEnding ss (names.rtake 2) id) : Meaning ss names (some id)
  | last {id : StructId} (missing : ∀ s ∈ ss, ¬ s.EndsWith names)
      (missingTwo : 2 < names.length → ∀ s ∈ ss, ¬ s.EndsWith (names.rtake 2))
      (found : FirstEnding ss (names.rtake 1) id) : Meaning ss names (some id)
  | nothing (missing : ∀ s ∈ ss, ¬ s.EndsWith (names.rtake 1)) : Meaning ss names none

/-! ## Tables -/

/-- Names lead to the first structure whose path ends with them. -/
lemma find?_join_eq_some_iff (h : segments (join names) = names) :
    (declareAll ss).structPaths.find? (join names) = some id ↔ FirstEnding ss names id := by
  rw [structPaths_declareAll, Option.map_eq_some_iff]
  constructor
  · rintro ⟨i, hi, rfl⟩
    obtain ⟨declared, ends, first⟩ := List.findIdx?_eq_some_iff_getElem.1 hi
    refine ⟨declared, (QualifiedName.claims_join_iff h).1 ends, fun j hj hends => ?_⟩
    exact first j hj ((QualifiedName.claims_join_iff h).2 hends)
  · rintro ⟨declared, ends, first⟩
    refine ⟨id.index, List.findIdx?_eq_some_iff_getElem.2 ⟨declared, ?_, fun j hj hclaims => ?_⟩,
      rfl⟩
    · exact (QualifiedName.claims_join_iff h).2 ends
    · exact first j hj ((QualifiedName.claims_join_iff h).1 hclaims)

lemma find?_join_eq_none_iff (h : segments (join names) = names) :
    (declareAll ss).structPaths.find? (join names) = none ↔ ∀ s ∈ ss, ¬ s.EndsWith names := by
  rw [structPaths_declareAll, Option.map_eq_none_iff, List.findIdx?_eq_none_iff]
  refine forall₂_congr fun s _ => ?_
  rw [← QualifiedName.claims_join_iff h, Bool.not_eq_true]

/-- The last names of a path are found again in the path that they make up. -/
lemma segments_join_rtake (path : String) {n : Nat} (hn : 0 < n) :
    segments (join ((segments path).rtake n)) = (segments path).rtake n := by
  refine segments_join_of_suffix (fun h => segments_ne_nil path ?_) (List.drop_suffix _ _)
  rw [List.rtake, List.drop_eq_nil_iff] at h
  exact List.length_eq_zero_iff.1 (by omega)

/-- What a table has for some names: for all of them, or else for the last two, or else for the
last. -/
def lookNames {α : Type} (table : Keyed α) (names : List String) : Option α :=
  table.find? (join names)
    <|> (if 2 < names.length then table.find? (join (names.rtake 2)) else none)
    <|> table.find? (join (names.rtake 1))

/-- A path is looked up by its names. -/
lemma lookPath_eq {α : Type} (table : Keyed α) (written : String) :
    lookPath table written = lookNames table (segments (withoutRoot written)) := by
  have hlast : (segments (withoutRoot written)).getLast?.bind table.find?
      = table.find? (join ((segments (withoutRoot written)).rtake 1)) := by
    obtain ⟨front, last, h⟩ :=
      (List.eq_nil_or_concat' _).resolve_left (segments_ne_nil (withoutRoot written))
    rw [h, List.getLast?_concat, Option.bind_some, List.rtake_concat_succ, List.rtake_zero, join,
      List.nil_append, String.intercalate_singleton]
  rw [lookNames, join_segments, ← hlast]
  rfl

/-! ## Meanings -/

/-- What is found for the names of a path is what they mean. -/
lemma meaning_lookNames (ss : List QualifiedName) (path : String) :
    Meaning ss (segments path) (lookNames (declareAll ss).structPaths (segments path)) := by
  have hall := congrArg segments (join_segments path)
  have htwo := segments_join_rtake path (n := 2) (by decide)
  have hone := segments_join_rtake path (n := 1) (by decide)
  rw [lookNames]
  generalize segments path = names at hall htwo hone ⊢
  cases hwhole : (declareAll ss).structPaths.find? (join names) with
  | some id => exact .whole ((find?_join_eq_some_iff hall).1 hwhole)
  | none =>
      have missing := (find?_join_eq_none_iff hall).1 hwhole
      have hlast : (2 < names.length → ∀ s ∈ ss, ¬ s.EndsWith (names.rtake 2)) →
          Meaning ss names ((declareAll ss).structPaths.find? (join (names.rtake 1))) := by
        intro missingTwo
        cases hend : (declareAll ss).structPaths.find? (join (names.rtake 1)) with
        | some id => exact .last missing missingTwo ((find?_join_eq_some_iff hone).1 hend)
        | none => exact .nothing ((find?_join_eq_none_iff hone).1 hend)
      by_cases long : 2 < names.length
      · rw [if_pos long]
        cases hend : (declareAll ss).structPaths.find? (join (names.rtake 2)) with
        | some id => exact .lastTwo missing long ((find?_join_eq_some_iff htwo).1 hend)
        | none => exact hlast fun _ => (find?_join_eq_none_iff htwo).1 hend
      · rw [if_neg long]
        exact hlast fun h => absurd h long

/-- What the names of a path mean is found for them. -/
lemma Meaning.lookNames_eq {path : String} {found : Option StructId}
    (h : Meaning ss (segments path) found) :
    lookNames (declareAll ss).structPaths (segments path) = found := by
  have hall := congrArg segments (join_segments path)
  have htwo := segments_join_rtake path (n := 2) (by decide)
  have hone := segments_join_rtake path (n := 1) (by decide)
  rw [lookNames]
  generalize segments path = names at hall htwo hone h ⊢
  have hskip : (2 < names.length → ∀ s ∈ ss, ¬ s.EndsWith (names.rtake 2)) →
      (if 2 < names.length then (declareAll ss).structPaths.find? (join (names.rtake 2)) else none)
        = none :=
    fun missingTwo => ite_eq_right_iff.2 fun long =>
      (find?_join_eq_none_iff htwo).2 (missingTwo long)
  cases h with
  | whole found =>
      rw [(find?_join_eq_some_iff hall).2 found]
      rfl
  | lastTwo missing long found =>
      rw [(find?_join_eq_none_iff hall).2 missing, if_pos long,
        (find?_join_eq_some_iff htwo).2 found]
      rfl
  | last missing missingTwo found =>
      rw [(find?_join_eq_none_iff hall).2 missing, hskip missingTwo,
        (find?_join_eq_some_iff hone).2 found]
      rfl
  | nothing missing =>
      -- a path that ends with more of the names ends with the last one
      have hmissing : ∀ {more}, names.rtake 1 <:+ more → ∀ s ∈ ss, ¬ s.EndsWith more :=
        fun hless s hs hends => missing s hs (hends.mono hless)
      rw [(find?_join_eq_none_iff hall).2 (hmissing (List.drop_suffix _ _)),
        hskip fun _ => hmissing (List.drop_suffix_drop_left names (by omega)),
        (find?_join_eq_none_iff hone).2 missing]
      rfl

lemma structIdAtPath?_eq_iff (ss : List QualifiedName) (written : String)
    (found : Option StructId) :
    (declareAll ss).structIdAtPath? written = found
      ↔ Meaning ss (segments (withoutRoot written)) found := by
  rw [structIdAtPath?, lookPath_eq]
  constructor
  · rintro rfl
    exact meaning_lookNames ss _
  · exact fun h => h.lookNames_eq

/-- **What a written path means.**  Without the words that lead to the root or the current module,
it leads to the first structure whose path ends with its names, or else with its last two, or else
with its last, and nowhere exactly if there is none.  A structure that is found by the whole path is
found whatever is declared later. -/
theorem structIdAtPath?_means (ss : List QualifiedName) (written : String) :
    ∃ path, (∀ other, IsRest written other ↔ other = path)
      ∧ (∀ id, (declareAll ss).struct? id = ss[id.index]?.map QualifiedName.struct)
      ∧ (∀ found, (declareAll ss).structIdAtPath? written = found
        ↔ Meaning ss (segments path) found)
      ∧ ∀ id, FirstEnding ss (segments path) id →
        ∀ more, (declareAll (ss ++ more)).structIdAtPath? written = some id := by
  refine ⟨withoutRoot written, fun other => isRest_iff, fun id => struct?_declareAll ss id.index,
    structIdAtPath?_eq_iff ss written, fun id hid more => ?_⟩
  exact (structIdAtPath?_eq_iff (ss ++ more) written (some id)).2 (.whole (hid.append more))

/-- No structure is at the whole path, but one is at its last two names. -/
example : (declareAll [⟨"Pet", "shop"⟩, ⟨"Pet", "store::model"⟩]).structIdAtPath?
    "crate::self::town::model::Pet" = some ⟨1⟩ := by decide

end Catalog

end FieldCopy
