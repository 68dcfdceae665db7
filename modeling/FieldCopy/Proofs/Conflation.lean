import Mathlib
import FieldCopy.Proofs.Conflation.Meaning
import FieldCopy.Proofs.Loading.OwnNames

/-!
# Types that are the same in the catalog

Types of the catalog are equal if their numbers are, and a field whose type is equal to that of the
other field is copied as it is.  So it matters when two types as written get one number.

**Names.**  Two types get one number exactly if they are known as the same, in whichever modules
they are written and whenever the loader comes to them.

**Meanings.**  Whole types are known as what they mean, so they get one number exactly if they mean
the same.  A structure with arguments is not whole: its arguments are lost, and structures that
differ in them only are one type of the catalog.

**Main statement.**  `Loading.same_number_iff`.  `Loading.exists_conflated`: there are types that
get one number and do not mean the same.
-/

namespace FieldCopy

open Source Catalog

/-! ## What a run adds -/

namespace Lowering

lemma wellNamed_empty : Catalog.WellNamed .empty := fun name id h =>
  absurd h (by simp [typeNamed?, Catalog.empty])

/-- Finding a type only adds to the catalog. -/
lemma adds_type (scope : Scope) (t : Ty) : Adds (type scope t) :=
  (finds_type wellNamed_empty scope t).adds

end Lowering

namespace Loading

variable {files : List ParsedFile} {c c' : Catalog}

lemma Step.growsTo (h : Step files c c') : GrowsTo c c' := by
  cases h with
  | type package t _ => exact Lowering.adds_type _ t c
  | field id name t tag added => exact .alike (alike_addField added)
  | method id m added => exact .alike (alike_addMethod added)
  | function package f => exact .alike (alike_addFunction package f)
  | text id => exact .alike (alike_markStringer id)

/-- **A run only adds to the catalog.** -/
lemma Passes.growsTo (h : Passes files c c') : GrowsTo c c' := by
  induction h with
  | refl => exact .refl c
  | tail _ step ih => exact ih.trans step.growsTo

lemma wellNamed_ofFiles (files : List ParsedFile) : (Declared.ofFiles files).catalog.WellNamed := by
  rw [ofFiles_eq]
  exact (fits_declareAll _ (enumerationsOf files)).known

/-! ## Types in the modules of some files -/

/-- What a type as written in a module of some files is known as. -/
def knownAs (files : List ParsedFile) (package : String) (t : Ty) : TypeForm :=
  Lowering.identity (.ofFiles files package) (Declared.ofFiles files).catalog t

/-- What a type as written in a module of some files means. -/
def means (files : List ParsedFile) (package : String) (t : Ty) : TypeForm :=
  Lowering.meaning (.ofFiles files package) (Declared.ofFiles files).catalog t

/-- Nothing is lost of a type as written in a module of some files. -/
def IsWhole (files : List ParsedFile) (package : String) (t : Ty) : Prop :=
  Lowering.Whole (.ofFiles files package) (Declared.ofFiles files).catalog t

/-- Finds a type as written in a module of some files. -/
def typeIn (files : List ParsedFile) (package : String) (t : Ty) : Lowering TypeId :=
  Lowering.type (.ofFiles files package) t

/-- The number of a type stays the number of the name that it is known under. -/
lemma typeNamed?_later {package : String} {t : Ty} (hc : Reached files c)
    (readable : (knownAs files package t).Readable)
    (later : GrowsTo (typeIn files package t c).2 c') :
    c'.typeNamed? (knownAs files package t).name = some (typeIn files package t c).1 := by
  have hfound := (Lowering.finds_type (wellNamed_ofFiles files) (.ofFiles files package) t).number
    readable c hc.growsTo
  exact later.known _ _ hfound

/-- Types get one number exactly if they are known as the same. -/
lemma number_eq_iff {package₁ package₂ : String} {t₁ t₂ : Ty} (hc : Reached files c)
    (later : Passes files (typeIn files package₁ t₁ c).2 c')
    (readable₁ : (knownAs files package₁ t₁).Readable)
    (readable₂ : (knownAs files package₂ t₂).Readable) :
    (typeIn files package₁ t₁ c).1 = (typeIn files package₂ t₂ c').1
      ↔ knownAs files package₁ t₁ = knownAs files package₂ t₂ := by
  have hfirst : GrowsTo c c' := (Lowering.adds_type _ t₁ c).trans later.growsTo
  have hsecond : GrowsTo c' (typeIn files package₂ t₂ c').2 := Lowering.adds_type _ t₂ c'
  have hdeclared : GrowsTo (Declared.ofFiles files).catalog (typeIn files package₂ t₂ c').2 :=
    (Passes.growsTo hc).trans (hfirst.trans hsecond)
  have hnumber₁ := typeNamed?_later hc readable₁ (later.growsTo.trans hsecond)
  have hnumber₂ : (typeIn files package₂ t₂ c').2.typeNamed? (knownAs files package₂ t₂).name
      = some (typeIn files package₂ t₂ c').1 :=
    (Lowering.finds_type (wellNamed_ofFiles files) (.ofFiles files package₂) t₂).number readable₂ c'
      ((Passes.growsTo hc).trans hfirst)
  rw [(hdeclared.wellNamed (wellNamed_ofFiles files)).id_eq_iff hnumber₁ hnumber₂]
  exact ⟨TypeForm.name_injective readable₁ readable₂, congrArg TypeForm.name⟩

/-- **When two types as written are one type of the catalog.**  Whenever the loader comes to them,
in whichever modules: if what is known of them is the same, and for whole types if they mean the
same. -/
theorem same_number_iff (file interfaceName : String) {input : ParsedFile}
    {includes : List ParsedFile} (proper : ∀ f ∈ input :: includes, f.IsProper) :
    Reached (input :: includes) (SourceUnit.ofParsed file interfaceName input includes).catalog
      ∧ ∀ (package₁ package₂ : String) (t₁ t₂ : Ty) (c c' : Catalog),
        Reached (input :: includes) c →
        Passes (input :: includes) (typeIn (input :: includes) package₁ t₁ c).2 c' →
        (knownAs (input :: includes) package₁ t₁).Readable →
        (knownAs (input :: includes) package₂ t₂).Readable →
          ((typeIn (input :: includes) package₁ t₁ c).1
              = (typeIn (input :: includes) package₂ t₂ c').1
            ↔ knownAs (input :: includes) package₁ t₁ = knownAs (input :: includes) package₂ t₂)
          ∧ (IsWhole (input :: includes) package₁ t₁ → IsWhole (input :: includes) package₂ t₂ →
            ((typeIn (input :: includes) package₁ t₁ c).1
                = (typeIn (input :: includes) package₂ t₂ c').1
              ↔ means (input :: includes) package₁ t₁
                = means (input :: includes) package₂ t₂)) := by
  refine ⟨reached_ofParsed file interfaceName proper, ?_⟩
  intro package₁ package₂ t₁ t₂ c c' hc later readable₁ readable₂
  have hknown := number_eq_iff hc later readable₁ readable₂
  refine ⟨hknown, fun whole₁ whole₂ => ?_⟩
  have hmeans₁ : knownAs (input :: includes) package₁ t₁ = means (input :: includes) package₁ t₁ :=
    Lowering.identity_of_whole _ _ t₁ whole₁
  have hmeans₂ : knownAs (input :: includes) package₂ t₂ = means (input :: includes) package₂ t₂ :=
    Lowering.identity_of_whole _ _ t₂ whole₂
  rw [hknown, hmeans₁, hmeans₂]

/-- A name with one type in angle brackets. -/
def applied (name : String) (argument : Ty) : Ty :=
  .path (.mk false [.mk name (.angled false [.type argument] false)])

/-- A file with a structure that has a parameter and one that has none. -/
def pages : ParsedFile := ⟨"", [.record "Page" [], .record "Cover" []]⟩

lemma pages_isProper : ∀ f ∈ [pages], f.IsProper := by
  intro f hf
  have hpage : ModulePath.IsName "Page" := by decide
  have hcover : ModulePath.IsName "Cover" := by decide
  rw [List.mem_singleton.1 hf]
  exact ⟨ModulePath.isModule_root, ⟨hpage, by simp⟩, ⟨hcover, by simp⟩, trivial⟩

/-- A cover in the root module, however its path is written. -/
def coverFromRoot : Ty := .path (.mk false [.mk "crate" .none, .mk "Cover" .none])

/-- The name of a path as it is looked up in the root module. -/
def rootName (p : Source.Path) : String :=
  Lowering.pathName (.ofFiles [pages] "") (Declared.ofFiles [pages]).catalog p

/-- Lists of covers are one type, in whichever way the path of a cover is written. -/
theorem lists_of_covers :
    (typeIn [pages] "" (applied "Vec" (.ofName "Cover")) (Declared.ofFiles [pages]).catalog).1
      = (typeIn [pages] "" (applied "Vec" coverFromRoot)
          (typeIn [pages] "" (applied "Vec" (.ofName "Cover"))
            (Declared.ofFiles [pages]).catalog).2).1 := by
  have hform : (TypeForm.path "Vec" [.path "Cover" []]).Readable :=
    ⟨by decide, ⟨by decide, trivial⟩, trivial⟩
  have hcover : IsWhole [pages] "" (applied "Vec" (.ofName "Cover")) := by
    refine ⟨⟨rfl, fun s hs => ?_⟩, ⟨⟨rfl, fun s hs => ?_⟩, trivial⟩, trivial⟩
    · obtain rfl := Option.some.inj hs
      exact ⟨by decide, rfl, rfl⟩
    · obtain rfl := Option.some.inj hs
      rfl
  have hroot : IsWhole [pages] "" (applied "Vec" coverFromRoot) := by
    refine ⟨⟨rfl, fun s hs => ?_⟩, ⟨⟨rfl, fun s hs => ?_⟩, trivial⟩, trivial⟩
    · obtain rfl := Option.some.inj hs
      exact ⟨by decide, rfl, rfl⟩
    · obtain rfl := Option.some.inj hs
      rfl
  have hsame := (same_number_iff "setup.rs" "StructCopyGen" pages_isProper).2 "" ""
    (applied "Vec" (.ofName "Cover")) (applied "Vec" coverFromRoot) _ _ .refl .refl hform hform
  refine (hsame.2 hcover hroot).2 ?_
  have hname : rootName (.ofName "Cover")
      = rootName (.mk false [.mk "crate" .none, .mk "Cover" .none]) := by decide
  exact congrArg (fun n => TypeForm.path (rootName (.ofName "Vec")) [.path n []]) hname

/-- **Types that do not mean the same can get one number.** -/
theorem exists_conflated :
    ¬ ∀ files : List ParsedFile, (∀ f ∈ files, f.IsProper) →
      ∀ (package₁ package₂ : String) (t₁ t₂ : Ty) (c : Catalog), Reached files c →
        (typeIn files package₁ t₁ c).1
            = (typeIn files package₂ t₂ (typeIn files package₁ t₁ c).2).1 →
          means files package₁ t₁ = means files package₂ t₂ := by
  intro h
  have hmeans := h [pages] pages_isProper "" "" (applied "Page" (.ofName "u8"))
    (applied "Page" (.ofName "u16")) _ .refl (by decide)
  have hnames := congrArg TypeForm.name hmeans
  exact absurd hnames (by decide)

end Loading

end FieldCopy
