import Mathlib
import FieldCopy.Proofs.Elements.Names
import FieldCopy.Proofs.Parsing.Names

/-!
# What paths lead to in parsed files

Declared types have the paths of modules and words for names, so if the files are of modules whose
paths have no marks of types in them (`ParsedFile.IsUnmarked`), the paths of declared types have
none.

**Main statement.**  `Loading.clean_namesIn`: in the root module, what is found for paths are paths,
and an enumeration is found by its name.
-/

namespace FieldCopy

open Source ModulePath

/-- The file is that of a module whose path has none of the marks of types, and what it declares are
words. -/
structure ParsedFile.IsUnmarked (f : ParsedFile) : Prop where
  package : ∀ c ∈ f.package.toList, c ∉ TypeText.marks
  worded : ∀ i ∈ f.items, i.Worded

namespace TypeText

lemma isPath_inside {package name : String} (hpackage : ∀ c ∈ package.toList, c ∉ marks)
    (hname : IsPath name) : IsPath (inside package name) := by
  rw [inside]
  split
  · exact hname
  · refine ⟨by simp, fun c hc hmark => ?_⟩
    rw [String.toList_append, String.toList_append, List.mem_append, List.mem_append] at hc
    rcases hc with (hc | hc) | hc
    · exact hpackage c hc hmark
    · obtain rfl : c = ':' := by simpa using hc
      exact absurd hmark (by decide)
    · exact hname.plain c hc hmark

end TypeText

/-! ## Declared types -/

mutual

lemma isPath_typesOf {package : String} (hp : ∀ c ∈ package.toList, c ∉ TypeText.marks) :
    ∀ {i : Item}, i.Worded → ∀ d ∈ typesOf package i, TypeText.IsPath d.path
  | _, .record hn _ | _, .enumeration hn => by
      rw [typesOf, List.forall_mem_singleton]
      exact TypeText.isPath_inside hp (TypeText.isPath_of_isWord hn)
  | _, .module hn h => by
      rw [typesOf]
      exact isPath_typesOfAll (TypeText.isPath_inside hp (TypeText.isPath_of_isWord hn)).plain h
  | _, .function _ => List.forall_mem_nil _
  | _, .implementation _ => List.forall_mem_nil _
  | _, .trait _ => List.forall_mem_nil _
  | _, .use _ => List.forall_mem_nil _
  | _, .other => List.forall_mem_nil _

lemma isPath_typesOfAll {package : String} (hp : ∀ c ∈ package.toList, c ∉ TypeText.marks) :
    ∀ {is : List Item}, (∀ i ∈ is, i.Worded) →
      ∀ d ∈ typesOfAll package is, TypeText.IsPath d.path
  | [], _ => List.forall_mem_nil _
  | i :: rest, h => by
      rw [typesOfAll]
      exact List.forall_mem_append.2 ⟨isPath_typesOf hp (h i List.mem_cons_self),
        isPath_typesOfAll hp fun i hi => h i (List.mem_cons_of_mem _ hi)⟩

end

namespace Loading

variable {files : List ParsedFile} (unmarked : ∀ f ∈ files, f.IsUnmarked)

include unmarked

lemma isPath_declarations : ∀ d ∈ declarations files, TypeText.IsPath d.path := by
  intro d hd
  obtain ⟨f, hf, hd⟩ := List.mem_flatMap.1 hd
  exact isPath_typesOfAll (unmarked f hf).package (unmarked f hf).worded d hd

/-- A path leads to structures with paths. -/
lemma isPath_structPath? {scope : Scope} {written path : String}
    (h : scope.structPath? (Declared.ofFiles files).catalog written = some path) :
    TypeText.IsPath path := by
  obtain ⟨id, -, hpath⟩ := Option.bind_eq_some_iff.1 h
  rw [ofFiles_eq, Catalog.struct?_declareAll] at hpath
  obtain ⟨s, hs, rfl⟩ := Option.map_eq_some_iff.1 hpath
  obtain ⟨n, hn, rfl⟩ := Option.map_eq_some_iff.1 hs
  exact isPath_declarations unmarked _ (mem_namesOfKind.1 (List.mem_of_getElem? hn))

omit unmarked in
/-- A suffix of a path has its last name. -/
lemma getLast?_segments {path p : String} (h : path ∈ suffixes p) :
    (segments path).getLast? = (segments p).getLast? := by
  obtain ⟨front, hfront⟩ := mem_suffixes_iff_suffix.1 h
  rw [← hfront, List.getLast?_append_of_ne_nil _ (segments_ne_nil path)]

omit unmarked in
/-- In the root module, an enumeration is found by what its path ends with. -/
lemma exists_enumeration {written path : String}
    (h : (namesIn files "").enumeration? written = some path) :
    ∃ e ∈ enumerationsOf files, e.path = path ∧ withoutRoot written ∈ suffixes path := by
  have hfind : (enumerationTable (enumerationsOf files)).find? (withoutRoot written)
      = some path := by
    rw [← h]
    change _ = (Declared.ofFiles files).enumerations.find? (withoutRoot written)
    rw [ofFiles_eq]
  rw [find?_enumerations] at hfind
  obtain ⟨e, he, rfl⟩ := Option.map_eq_some_iff.1 hfind
  have hclaims := List.find?_some he
  exact ⟨e, List.mem_of_find?_eq_some he, rfl, QualifiedName.claims_iff.1 hclaims⟩

/-- **In the root module paths lead to paths,** and an enumeration is found by its name. -/
theorem clean_namesIn : (namesIn files "").Clean where
  structs _ _ h := isPath_structPath? unmarked h
  enumerations written path h := by
    obtain ⟨e, he, rfl, -⟩ := exists_enumeration h
    exact isPath_declarations unmarked _ (mem_namesOfKind.1 he)
  names written path h := by
    obtain ⟨e, -, -, hsuffix⟩ := exists_enumeration h
    rw [← getLast?_segments hsuffix, getLast?_segments (withoutRoot_mem_suffixes written)]

end Loading

end FieldCopy
