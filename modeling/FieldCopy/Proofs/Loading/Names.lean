import Mathlib
import FieldCopy.Proofs.Catalog.Declaring

/-!
# Names and the paths they make up

**Names** are not empty, hold none of the marks that set the text of a type apart from a path, and
are none of the words that begin a type.  Modules, structures and enumerations have such names.

**Reading as a path.**  A text reads as a path if it consists of names (`ModulePath.Reads`).  The
path of a declared type does (`QualifiedName.IsProper.reads_path`); a text with a mark that is no
colon does not (`ModulePath.not_reads_of_mem`).

**Claims among names.**  What a declared type claims ends with its name:
`QualifiedName.IsProper.claims_name`, `QualifiedName.IsProper.name_of_claims`.
-/

namespace FieldCopy

namespace ModulePath

/-- The marks that set the text of a type apart from a path, and the mark between names. -/
def typeMarks : List Char := [':', '<', '&', '[', '(', '*', '!', '?', '+', '\'', ' ']

/-- The words that are types or begin them. -/
def typeWords : List String := ["_", "dyn", "impl"]

/-- A text that can be the name of a module or a type. -/
structure IsName (n : String) : Prop where
  nonempty : n ≠ ""
  marks : ∀ c ∈ n.toList, c ∉ typeMarks
  words : n ∉ typeWords

lemma all_marks_iff {n : String} :
    (n.toList.all fun c => !typeMarks.contains c) = true ↔ ∀ c ∈ n.toList, c ∉ typeMarks := by
  simp

instance (n : String) : Decidable (IsName n) :=
  decidable_of_iff
    (n ≠ "" ∧ (n.toList.all fun c => !typeMarks.contains c) = true ∧ n ∉ typeWords)
    ⟨fun h => ⟨h.1, all_marks_iff.1 h.2.1, h.2.2⟩,
      fun h => ⟨h.nonempty, all_marks_iff.2 h.marks, h.words⟩⟩

/-- A text that is a path of names. -/
def Reads (text : String) : Prop :=
  ∃ names : List String, names ≠ [] ∧ (∀ n ∈ names, IsName n) ∧ text = join names

/-- The path of a module: names, or nothing for the root. -/
def IsModule (package : String) : Prop :=
  ∃ names : List String, (∀ n ∈ names, IsName n) ∧ package = join names

lemma IsName.colon_notMem {n : String} (h : IsName n) : ':' ∉ n.toList :=
  fun hmem => h.marks ':' hmem (by decide)

lemma segments_of_names {names : List String} (hne : names ≠ []) (h : ∀ n ∈ names, IsName n) :
    segments (join names) = names :=
  segments_join hne fun n hn => (h n hn).colon_notMem

lemma join_ne_empty {names : List String} (hne : names ≠ []) (h : ∀ n ∈ names, IsName n) :
    join names ≠ "" := by
  intro hempty
  have hsegments := segments_of_names hne h
  rw [hempty, show segments "" = [""] by decide] at hsegments
  exact (h "" (hsegments ▸ List.mem_singleton_self "")).nonempty rfl

lemma isModule_root : IsModule "" := ⟨[], fun _ hn => absurd hn List.not_mem_nil, rfl⟩

/-- A name inside a module is one more name at the end. -/
lemma inside_join {names : List String} (h : ∀ n ∈ names, IsName n) (name : String) :
    inside (join names) name = join (names ++ [name]) := by
  rw [inside]
  split
  · rename_i hempty
    have hnil : names = [] := by
      by_contra hne
      exact join_ne_empty hne h (String.isEmpty_iff.1 hempty)
    rw [hnil, List.nil_append, join, String.intercalate_singleton]
  · rename_i hne
    have hnames : names ≠ [] := by
      rintro rfl
      exact hne rfl
    rw [join, join, String.intercalate_append_of_ne_nil hnames (List.cons_ne_nil _ _),
      String.intercalate_singleton]

lemma isModule_inside {package name : String} (hp : IsModule package) (hn : IsName name) :
    IsModule (inside package name) := by
  obtain ⟨names, hnames, rfl⟩ := hp
  refine ⟨names ++ [name], fun n hmem => ?_, inside_join hnames name⟩
  rcases List.mem_append.1 hmem with hmem | hmem
  · exact hnames n hmem
  · exact List.mem_singleton.1 hmem ▸ hn

/-! ## Texts that are no paths -/

lemma mem_intercalate {c : Char} {separator : List Char} :
    ∀ {pieces : List (List Char)}, c ∈ separator.intercalate pieces →
      c ∈ separator ∨ ∃ p ∈ pieces, c ∈ p
  | [], h => by simp at h
  | [p], h => by
      rw [List.intercalate_singleton] at h
      exact .inr ⟨p, List.mem_singleton_self p, h⟩
  | p :: q :: rest, h => by
      rw [List.intercalate_cons_cons, List.mem_append, List.mem_append] at h
      rcases h with (h | h) | h
      · exact .inr ⟨p, List.mem_cons_self, h⟩
      · exact .inl h
      · exact (mem_intercalate h).imp id fun ⟨r, hr, hc⟩ => ⟨r, List.mem_cons_of_mem p hr, hc⟩

/-- **A text with a mark other than a colon is no path.** -/
lemma not_reads_of_mem {c : Char} (hc : c ∈ typeMarks) (hcolon : c ≠ ':') {text : String}
    (hmem : c ∈ text.toList) : ¬ Reads text := by
  rintro ⟨names, -, hnames, rfl⟩
  rw [toList_join] at hmem
  rcases mem_intercalate hmem with h | ⟨p, hp, hcp⟩
  · simp at h
    exact hcolon h
  · obtain ⟨n, hn, rfl⟩ := List.mem_map.1 hp
    exact (hnames n hn).marks c hcp hc

lemma not_reads_empty : ¬ Reads "" := by
  rintro ⟨names, hne, hnames, h⟩
  exact join_ne_empty hne hnames h.symm

/-! ## Suffixes of paths of names -/

/-- The suffixes of a path of names are paths of its last names. -/
lemma mem_suffixes_iff {names : List String} (hne : names ≠ []) (h : ∀ n ∈ names, IsName n)
    {path : String} :
    path ∈ suffixes (join names) ↔ ∃ t, t ≠ [] ∧ t <:+ names ∧ path = join t := by
  rw [mem_suffixes_iff_join, segments_of_names hne h]

lemma withoutRoot_of_colon_notMem {path : String} (h : ':' ∉ path.toList) :
    withoutRoot path = path := by
  have hcrate : ¬ "crate::".toList <+: path.toList := fun hp => h (hp.subset (by decide))
  have hself : ¬ "self::".toList <+: path.toList := fun hp => h (hp.subset (by decide))
  rw [withoutRoot, Text.dropRepeated_of_not_prefix hcrate, Text.dropRepeated_of_not_prefix hself,
    String.ofList_toList]

end ModulePath

open ModulePath

namespace QualifiedName

/-- The name of something in a module. -/
structure IsProper (n : QualifiedName) : Prop where
  package : IsModule n.package
  name : IsName n.name

section

variable {n : QualifiedName}

lemma IsProper.names (h : n.IsProper) :
    ∃ front : List String,
      (∀ m ∈ front ++ [n.name], IsName m) ∧ n.path = join (front ++ [n.name]) := by
  obtain ⟨front, hfront, hpackage⟩ := h.package
  refine ⟨front, fun m hm => ?_, by rw [path, hpackage, inside_join hfront]⟩
  rcases List.mem_append.1 hm with hm | hm
  · exact hfront m hm
  · exact List.mem_singleton.1 hm ▸ h.name

/-- **The path of a type in a module reads as a path.** -/
lemma IsProper.reads_path (h : n.IsProper) : Reads n.path := by
  obtain ⟨front, hnames, hpath⟩ := h.names
  exact ⟨front ++ [n.name], by simp, hnames, hpath⟩

/-- What is claimed with a path of names ends with the name. -/
lemma IsProper.suffix_of_claims (h : n.IsProper) {path : String} (hclaims : n.claims path = true) :
    ∃ front : List String,
      (∀ m ∈ front ++ [n.name], IsName m) ∧ path = join (front ++ [n.name]) := by
  obtain ⟨front, hnames, hpath⟩ := h.names
  rw [claims_iff, hpath, mem_suffixes_iff (by simp) hnames] at hclaims
  obtain ⟨t, hne, hsuffix, rfl⟩ := hclaims
  have hlast : t.getLast hne = n.name := by
    rw [hsuffix.getLast hne, List.getLast_append_singleton]
  refine ⟨t.dropLast, ?_, ?_⟩
  · rw [← hlast, List.dropLast_append_getLast]
    exact fun m hm => hnames m (hsuffix.subset hm)
  · rw [← hlast, List.dropLast_append_getLast]

/-- A type claims its name. -/
lemma IsProper.claims_name (h : n.IsProper) : n.claims n.name = true := by
  obtain ⟨front, hnames, hpath⟩ := h.names
  rw [claims_iff, hpath, mem_suffixes_iff (by simp) hnames]
  refine ⟨[n.name], List.cons_ne_nil _ _, List.suffix_append front [n.name], ?_⟩
  rw [join, String.intercalate_singleton]

/-- A type that claims a path has its last name. -/
lemma IsProper.name_of_claims (h : n.IsProper) {front : List String} {name : String}
    (hnames : ∀ m ∈ front ++ [name], IsName m)
    (hclaims : n.claims (join (front ++ [name])) = true) :
    n.name = name := by
  obtain ⟨front', hnames', hpath⟩ := h.suffix_of_claims hclaims
  have hsegments := congrArg segments hpath
  rw [segments_of_names (by simp) hnames, segments_of_names (by simp) hnames'] at hsegments
  have hlast := congrArg List.getLast? hsegments
  rw [List.getLast?_concat, List.getLast?_concat] at hlast
  exact (Option.some.inj hlast).symm

end

end QualifiedName

/-! ## Looking for names -/

namespace Catalog

variable {ss : List QualifiedName}

/-- A path whose last name no structure has leads nowhere. -/
lemma find?_eq_none_of_name (hproper : ∀ s ∈ ss, s.IsProper) {name : String}
    (h : ∀ s ∈ ss, s.name ≠ name) {front : List String}
    (hnames : ∀ m ∈ front ++ [name], IsName m) :
    (declareAll ss).structPaths.find? (join (front ++ [name])) = none := by
  rw [structPaths_declareAll, Option.map_eq_none_iff, List.findIdx?_eq_none_iff]
  intro s hs
  by_contra hclaims
  exact h s hs ((hproper s hs).name_of_claims hnames (by simpa using hclaims))

/-- **A name in a module leads to no structure if no structure has that name.** -/
lemma structIdAtPath?_eq_none (hproper : ∀ s ∈ ss, s.IsProper) {n : QualifiedName}
    (hn : n.IsProper) (h : ∀ s ∈ ss, s.name ≠ n.name) :
    (declareAll ss).structIdAtPath? n.path = none := by
  have hroot : n.claims (withoutRoot n.path) = true :=
    QualifiedName.claims_iff.2 (withoutRoot_mem_suffixes n.path)
  obtain ⟨front, hnames, hpath⟩ := hn.suffix_of_claims hroot
  have hlastTwo : (front ++ [n.name]).drop ((front ++ [n.name]).length - 2)
      = front.drop ((front ++ [n.name]).length - 2) ++ [n.name] := by
    rw [List.drop_append_of_le_length]
    simp
  have hlast : n.name = join ([] ++ [n.name]) := by
    rw [List.nil_append, join, String.intercalate_singleton]
  have hsub : ∀ m ∈ front.drop ((front ++ [n.name]).length - 2) ++ [n.name], IsName m := by
    intro m hm
    refine hnames m ?_
    rcases List.mem_append.1 hm with hm | hm
    · exact List.mem_append_left _ (List.mem_of_mem_drop hm)
    · exact List.mem_append_right _ hm
  rw [structIdAtPath?, lookPath, hpath, segments_of_names (by simp) hnames, hlastTwo,
    find?_eq_none_of_name hproper h hnames, find?_eq_none_of_name hproper h hsub,
    List.getLast?_concat, Option.bind_some, hlast,
    find?_eq_none_of_name hproper h fun m hm => hnames m (List.mem_append_right _ hm)]
  simp

end Catalog

end FieldCopy
