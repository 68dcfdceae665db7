import Mathlib
import FieldCopy.Proofs.Loading.Building

/-!
# Names of a module's own types

A plain name is looked for in its module first and then anywhere, among the structures first and
then among the enumerations.  Whole paths are keys of the same tables as their suffixes, and a key
is for the first who claims it.

**Structures.**  The path of a structure leads to the first structure with that suffix.

**Enumerations.**  A structure with the name of an enumeration is found in its place, wherever it
is declared; if there is none, the path leads to the first enumeration with that suffix.

**Main statement.**  `own_name_iff`: when the name of a type leads to that type in its own module.
`exists_foreign_type`: there are files in which it does not.
-/

namespace FieldCopy

open Source ModulePath Catalog

/-! ## Plain names -/

namespace Source

/-- A type that is written as one name. -/
def Ty.ofName (name : String) : Ty := .path (.ofName name)

lemma Ty.ofName_isProper (name : String) : (Ty.ofName name).IsProper := ⟨True.intro, True.intro⟩

lemma Path.displayName_ofName (name : String) : (Path.ofName name).displayName = name := by
  simp [Path.displayName, Path.shorten, Path.ofName, Path.segments, Segment.name]

end Source

lemma Lowering.type_ofName (scope : Scope) (name : String) :
    Lowering.type scope (.ofName name) = Lowering.named scope name [] := by
  have hlast : (Path.ofName name).last? = some (.mk name .none) := rfl
  have harguments : Lowering.pathArguments scope (.ofName name) = [] := rfl
  rw [Ty.ofName, Lowering.type, hlast, harguments, Path.displayName_ofName]
  rfl

/-- A name is looked for in its module and then anywhere. -/
lemma Scope.resolve_name {α : Type} (s : Scope) (find : String → Option α) {name : String}
    (h : IsName name) : s.resolve find name = (find (inside s.package name)).or (find name) := by
  have hsimple : isSimple name = true := by
    rw [isSimple, Text.cutAt_eq_none h.colon_notMem]
    rfl
  rw [Scope.resolve, hsimple, Bool.and_true, inside]
  by_cases hempty : s.package.isEmpty = true
  · rw [hempty, if_pos rfl]
    cases find name <;> rfl
  · rw [if_neg hempty, Bool.eq_false_iff.2 hempty]
    cases find (s.package ++ "::" ++ name) <;> rfl

/-! ## Looking for a name -/

namespace Loading

/-- Finds the type of a plain name in a module. -/
def plainName (files : List ParsedFile) (package name : String) : Lowering TypeId :=
  Lowering.type (.ofFiles files package) (.ofName name)

section

variable {files : List ParsedFile} {c : Catalog}
  (hc : Fits (structsOf files) (enumerationsOf files) c)

include hc

lemma struct?_name {name : String} (hname : IsName name) (package : String) :
    (Scope.ofFiles files package).struct? c name
      = ((declareAll (structsOf files)).structIdAtPath? (inside package name)).or
          ((declareAll (structsOf files)).structIdAtPath? name) := by
  rw [Scope.struct?, Scope.resolve_name _ _ hname, hc.structIdAtPath?_eq, hc.structIdAtPath?_eq]
  rfl

/-- **In the module of a structure, its name leads to the first that claims the path.** -/
lemma struct?_own {name package : String} (hname : IsName name) {k : Fin (structsOf files).length}
    (hk : (structsOf files).get k = ⟨name, package⟩) :
    ∃ i : Fin (structsOf files).length,
      (Scope.ofFiles files package).struct? c name = some ⟨i⟩
        ∧ ((structsOf files).get i).claims (withoutRoot (inside package name))
        ∧ ∀ j < i, ¬ ((structsOf files).get j).claims (withoutRoot (inside package name)) := by
  obtain ⟨i, hi, hclaims, hfirst⟩ := structIdAtPath?_path (structsOf files) k
  rw [hk] at hi hclaims hfirst
  refine ⟨i, ?_, hclaims, hfirst⟩
  have hpath : (declareAll (structsOf files)).structIdAtPath? (inside package name) = some ⟨i⟩ := hi
  rw [struct?_name hc hname, hpath, Option.some_or]

/-- A name that a structure has leads to a structure. -/
lemma struct?_of_name (proper : ∀ s ∈ structsOf files, s.IsProper) {s : QualifiedName}
    (hs : s ∈ structsOf files) (package : String) :
    ∃ i : Fin (structsOf files).length,
      (Scope.ofFiles files package).struct? c s.name = some ⟨i⟩ := by
  have hname : IsName s.name := (proper s hs).name
  cases hfound : (Scope.ofFiles files package).struct? c s.name with
  | some id =>
      obtain ⟨key, hkey⟩ := Lowering.exists_find_of_resolve hfound
      exact ⟨⟨id.index, hc.lt_of_structIdAtPath? hkey⟩, rfl⟩
  | none =>
      rw [struct?_name hc hname, Option.or_eq_none_iff] at hfound
      have hkey := hfound.2
      rw [structIdAtPath?, lookPath, withoutRoot_of_colon_notMem hname.colon_notMem,
        Option.orElse_eq_none, structPaths_declareAll, Option.map_eq_none_iff,
        List.findIdx?_eq_none_iff] at hkey
      have hfalse := hkey.1 s hs
      rw [(proper s hs).claims_name] at hfalse
      exact absurd hfalse (by simp)

/-- A name that no structure has leads to none. -/
lemma struct?_eq_none (proper : ∀ s ∈ structsOf files, s.IsProper) {n : QualifiedName}
    (hn : n.IsProper) (h : ∀ s ∈ structsOf files, s.name ≠ n.name) :
    (Scope.ofFiles files n.package).struct? c n.name = none := by
  have hroot : QualifiedName.IsProper ⟨n.name, ""⟩ := ⟨isModule_root, hn.name⟩
  have hpath : QualifiedName.path ⟨n.name, ""⟩ = n.name := by
    rw [QualifiedName.path, inside]
    rfl
  have hname := structIdAtPath?_eq_none proper hroot h
  rw [hpath] at hname
  rw [struct?_name hc hn.name, hname, Option.or_none]
  exact structIdAtPath?_eq_none proper hn h

end

/-- **In the module of an enumeration, its name leads to the first that claims the path.** -/
lemma enumeration?_own {files : List ParsedFile} {name package : String} (hname : IsName name)
    {k : Fin (enumerationsOf files).length}
    (hk : (enumerationsOf files).get k = ⟨name, package⟩) :
    ∃ i : Fin (enumerationsOf files).length,
      (Scope.ofFiles files package).enumeration? name = some ((enumerationsOf files).get i).path
        ∧ ((enumerationsOf files).get i).claims (inside package name)
        ∧ ∀ j < i, ¬ ((enumerationsOf files).get j).claims (inside package name) := by
  have hself : ((enumerationsOf files).get k).claims (inside package name) = true := by
    rw [hk]
    exact QualifiedName.claims_iff.2 (self_mem_suffixes _)
  have hfound : (Scope.ofFiles files package).enumeration? name
      = ((enumerationTable (enumerationsOf files)).find? (inside package name)).or
          ((enumerationTable (enumerationsOf files)).find? name) := by
    rw [scope_ofFiles, Scope.enumeration?, withoutRoot_of_colon_notMem hname.colon_notMem,
      Scope.resolve_name _ _ hname]
    rfl
  cases he : (enumerationsOf files).find? fun e => e.claims (inside package name) with
  | none =>
      have hnone := List.find?_eq_none.1 he _ (List.get_mem _ k)
      exact absurd hself hnone
  | some e =>
      obtain ⟨hclaims, i, hi, rfl, hfirst⟩ := List.find?_eq_some_iff_getElem.1 he
      refine ⟨⟨i, hi⟩, ?_, hclaims, fun j hj => ?_⟩
      · rw [hfound, find?_enumerations, he, Option.map_some, Option.some_or]
        rfl
      · have hj' := hfirst j hj
        simpa using hj'

section

variable {files : List ParsedFile} (proper : ∀ f ∈ files, f.IsProper)
  (distinct : ((declarations files).map TypeDeclaration.path).Nodup)

include proper distinct

/-- A type that was asked for keeps its name, and its shape is right for the name. -/
lemma type?_later {c c' : Catalog} (hc : Fits (structsOf files) (enumerationsOf files) c)
    {name : String} {shape : Shape}
    (hfit : Fitting (structsOf files) (enumerationsOf files) name shape)
    (later : Passes files (c.intern name shape).2 c') :
    ∃ s, c'.type? (c.intern name shape).1 = some ⟨(c.intern name shape).1, name, s⟩
      ∧ Fitting (structsOf files) (enumerationsOf files) name s := by
  obtain ⟨s, hs⟩ := hc.type?_intern_self name shape
  have hintern := hc.intern hfit
  exact ⟨s, later.type? proper distinct hintern hs, hintern.shapes _ _ hs⟩

/-- A name that leads to a structure is that structure. -/
lemma found_of_struct {c c' : Catalog} (hc : Fits (structsOf files) (enumerationsOf files) c)
    {name package : String} (i : Fin (structsOf files).length)
    (hi : (Scope.ofFiles files package).struct? c name = some ⟨i⟩)
    (later : Passes files (plainName files package name c).2 c') :
    c'.type? (plainName files package name c).1
      = some ⟨(plainName files package name c).1, ((structsOf files).get i).path, .struct ⟨i⟩⟩ := by
  rw [plainName, Lowering.type_ofName, Lowering.named_of_struct hc i hi] at later ⊢
  obtain ⟨s, hs, hfit⟩ := type?_later proper distinct hc
    ((distinct_of_proper proper distinct).fitting_struct i) later
  rw [hs, hfit.struct i rfl]

/-- A name that leads to no structure but to an enumeration is that enumeration. -/
lemma found_of_enumeration {c c' : Catalog}
    (hc : Fits (structsOf files) (enumerationsOf files) c) {name package : String}
    (i : Fin (enumerationsOf files).length)
    (hnone : (Scope.ofFiles files package).struct? c name = none)
    (hi : (Scope.ofFiles files package).enumeration? name
      = some ((enumerationsOf files).get i).path)
    (later : Passes files (plainName files package name c).2 c') :
    c'.type? (plainName files package name c).1
      = some ⟨(plainName files package name c).1, ((enumerationsOf files).get i).path, .basic⟩ := by
  have htype : plainName files package name c
      = c.intern ((enumerationsOf files).get i).path .basic := by
    rw [plainName, Lowering.type_ofName, Lowering.named_of_none hnone, hi]
    rfl
  have hfit : Fitting (structsOf files) (enumerationsOf files) ((enumerationsOf files).get i).path
      .basic :=
    Distinct.fitting_basic fun s hs => (distinct_of_proper proper distinct).disjoint s hs _
      (List.get_mem _ i)
  rw [htype] at later ⊢
  obtain ⟨s, hs, hs'⟩ := type?_later proper distinct hc hfit later
  rw [hs, hs'.enumeration _ (List.get_mem _ i) rfl]

/-- **A module's own structure is found exactly if no structure in front of it has its path as a
suffix.** -/
lemma own_struct_iff {c c' : Catalog} (hc : Fits (structsOf files) (enumerationsOf files) c)
    {name package : String} (k : Fin (structsOf files).length)
    (hk : (structsOf files).get k = ⟨name, package⟩)
    (later : Passes files (plainName files package name c).2 c') :
    c'.type? (plainName files package name c).1
        = some ⟨(plainName files package name c).1, inside package name, .struct ⟨k⟩⟩
      ↔ ∀ j < k, withoutRoot (inside package name) ∉ suffixes ((structsOf files).get j).path := by
  have hproper := (distinct_of_proper proper distinct).structs _ (List.get_mem _ k)
  have hname : IsName name := by
    have hname := hproper.name
    rw [hk] at hname
    exact hname
  obtain ⟨i, hi, hclaims, hfirst⟩ := struct?_own hc hname hk
  have hself : ((structsOf files).get k).claims (withoutRoot (inside package name)) = true := by
    rw [hk]
    exact QualifiedName.claims_iff.2 (withoutRoot_mem_suffixes _)
  rw [found_of_struct proper distinct hc i hi later,
    ← QualifiedName.first_eq_iff hclaims hfirst hself]
  constructor
  · intro h
    have hshape := congrArg TypeInfo.shape (Option.some.inj h)
    simpa [Fin.ext_iff] using hshape
  · rintro rfl
    rw [hk]
    rfl

/-- **A module's own enumeration is found exactly if no structure has its name and no enumeration
in front of it has its path as a suffix.** -/
lemma own_enumeration_iff {c c' : Catalog} (hc : Fits (structsOf files) (enumerationsOf files) c)
    {name package : String} (k : Fin (enumerationsOf files).length)
    (hk : (enumerationsOf files).get k = ⟨name, package⟩)
    (later : Passes files (plainName files package name c).2 c') :
    c'.type? (plainName files package name c).1
        = some ⟨(plainName files package name c).1, inside package name, .basic⟩
      ↔ (∀ s ∈ structsOf files, s.name ≠ name)
        ∧ ∀ j < k, inside package name ∉ suffixes ((enumerationsOf files).get j).path := by
  have hdistinct := distinct_of_proper proper distinct
  have hproper : QualifiedName.IsProper ⟨name, package⟩ := by
    have hmem := hdistinct.enumerations _ (List.get_mem _ k)
    rw [hk] at hmem
    exact hmem
  by_cases hnames : ∀ s ∈ structsOf files, s.name ≠ name
  · have hnone := struct?_eq_none hc hdistinct.structs hproper hnames
    obtain ⟨i, hi, hclaims, hfirst⟩ := enumeration?_own hproper.name hk
    have hself : ((enumerationsOf files).get k).claims (inside package name) = true := by
      rw [hk]
      exact QualifiedName.claims_iff.2 (self_mem_suffixes _)
    rw [found_of_enumeration proper distinct hc i hnone hi later,
      ← QualifiedName.first_eq_iff hclaims hfirst hself, and_iff_right hnames]
    constructor
    · intro h
      have hpath := congrArg TypeInfo.name (Option.some.inj h)
      refine namesOfKind_injective distinct .enumeration i k ?_
      exact hpath.trans (congrArg QualifiedName.path hk).symm
    · rintro rfl
      rw [hk]
      rfl
  · -- A structure of that name is found in place of the enumeration.
    obtain ⟨s, hs, rfl⟩ : ∃ s ∈ structsOf files, s.name = name := by
      simpa using hnames
    obtain ⟨i, hi⟩ := struct?_of_name hc hdistinct.structs hs package
    rw [found_of_struct proper distinct hc i hi later]
    constructor
    · intro h
      have hshape := congrArg TypeInfo.shape (Option.some.inj h)
      exact absurd hshape (by simp)
    · rintro ⟨h, -⟩
      exact absurd rfl (h s hs)

end

/-- **When a plain name leads to the type of that name in its own module.**  Whenever the loader
comes to it, and for good. -/
theorem own_name_iff (file interfaceName : String) {input : ParsedFile} {includes : List ParsedFile}
    (proper : ∀ f ∈ input :: includes, f.IsProper)
    (distinct : ((declarations (input :: includes)).map TypeDeclaration.path).Nodup) :
    Reached (input :: includes) (SourceUnit.ofParsed file interfaceName input includes).catalog
      ∧ ∀ (name package : String) (c c' : Catalog), Reached (input :: includes) c →
        Passes (input :: includes) (plainName (input :: includes) package name c).2 c' →
        (∀ k : Fin (structsOf (input :: includes)).length,
          (structsOf (input :: includes)).get k = ⟨name, package⟩ →
          (c'.type? (plainName (input :: includes) package name c).1
              = some ⟨(plainName (input :: includes) package name c).1, inside package name,
                .struct ⟨k⟩⟩
            ↔ ∀ j < k, withoutRoot (inside package name)
                ∉ suffixes ((structsOf (input :: includes)).get j).path))
        ∧ ∀ k : Fin (enumerationsOf (input :: includes)).length,
          (enumerationsOf (input :: includes)).get k = ⟨name, package⟩ →
          (c'.type? (plainName (input :: includes) package name c).1
              = some ⟨(plainName (input :: includes) package name c).1, inside package name, .basic⟩
            ↔ (∀ s ∈ structsOf (input :: includes), s.name ≠ name)
              ∧ ∀ j < k, inside package name
                ∉ suffixes ((enumerationsOf (input :: includes)).get j).path) := by
  refine ⟨reached_ofParsed file interfaceName proper, fun name package c c' hc later => ?_⟩
  have hfits := hc.fits proper distinct
  refine ⟨fun k hk => ?_, fun k hk => ?_⟩
  · exact own_struct_iff proper distinct hfits k hk later
  · exact own_enumeration_iff proper distinct hfits k hk later

/-- A file with two modules of one name, each of which has its own pets. -/
def twoModels : ParsedFile :=
  ⟨"", [.module "store" [.module "model" [.record "Pet" []]],
    .module "model" [.record "Pet" [], .record "Owner" [⟨[], "pet", .ofName "Pet"⟩]]]⟩

lemma twoModels_isProper : ∀ f ∈ [twoModels], f.IsProper := by
  intro f hf
  have hstore : IsName "store" := by decide
  have hmodel : IsName "model" := by decide
  have hpet : IsName "Pet" := by decide
  have howner : IsName "Owner" := by decide
  rw [List.mem_singleton.1 hf]
  refine ⟨isModule_root, ⟨hstore, ⟨hmodel, ⟨hpet, by simp⟩, trivial⟩, trivial⟩,
    ⟨hmodel, ⟨hpet, by simp⟩, ⟨howner, fun f hf => ?_⟩, trivial⟩, trivial⟩
  rw [List.mem_singleton.1 hf]
  exact Ty.ofName_isProper "Pet"

/-- The pet of an owner is not one of the owner's own module. -/
theorem pet_of_owner :
    ((declarations [twoModels]).map TypeDeclaration.path).Nodup
      ∧ ¬ (plainName [twoModels] "model" "Pet" (Declared.ofFiles [twoModels]).catalog).2.type?
            (plainName [twoModels] "model" "Pet" (Declared.ofFiles [twoModels]).catalog).1
          = some ⟨(plainName [twoModels] "model" "Pet" (Declared.ofFiles [twoModels]).catalog).1,
            "model::Pet", .struct ⟨1⟩⟩ := by
  have hdistinct : ((declarations [twoModels]).map TypeDeclaration.path).Nodup := by decide
  have hiff := ((own_name_iff "setup.rs" "StructCopyGen" twoModels_isProper hdistinct).2
    "Pet" "model" _ _ .refl .refl).1 ⟨1, by decide⟩ (by decide)
  refine ⟨hdistinct, fun h => ?_⟩
  exact absurd (hiff.1 h ⟨0, by decide⟩ (by decide)) (by decide)

/-- **Not every name leads to the type of that name in its own module.** -/
theorem exists_foreign_type :
    ¬ ∀ files : List ParsedFile, (∀ f ∈ files, f.IsProper) →
      ((declarations files).map TypeDeclaration.path).Nodup → ∀ d ∈ declarations files,
        ∀ c, Reached files c →
          ((plainName files d.name.package d.name.name c).2.type?
            (plainName files d.name.package d.name.name c).1).map TypeInfo.name = some d.path := by
  intro h
  have hname := h [twoModels] twoModels_isProper (by decide) ⟨.struct, "Pet", "model"⟩ (by decide)
    _ .refl
  exact absurd hname (by decide)

end Loading

end FieldCopy
