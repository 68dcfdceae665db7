import Mathlib
import FieldCopy.Loading
import FieldCopy.Proofs.Catalog.Declaring

/-!
# The names that files declare

`typesOf` lists the structures and enumerations of some items, those of inner modules included, in
the order in which they are declared.

**Declaring** goes over the items of all files and adds to two tables; what it leaves behind is what
declaring the listed names leaves behind (`ofFiles_eq`).

**Main statements.**  `find?_enumerations`: a key leads to the first enumeration that claims it, as
`Catalog.structPaths_declareAll` says for structures.
-/

namespace FieldCopy

open Source

/-- The kinds of types that items declare. -/
inductive TypeKind where
  | struct
  | enumeration
  deriving DecidableEq

/-- A type that items declare. -/
structure TypeDeclaration where
  kind : TypeKind
  name : QualifiedName
  deriving DecidableEq

namespace TypeDeclaration

/-- The path of a declared type. -/
def path (d : TypeDeclaration) : String := d.name.path

end TypeDeclaration

mutual

/-- The types that an item of a module declares. -/
def typesOf (package : String) : Item → List TypeDeclaration
  | .record name _ => [⟨.struct, name, package⟩]
  | .enumeration name => [⟨.enumeration, name, package⟩]
  | .module name items => typesOfAll (ModulePath.inside package name) items
  | .function _ | .implementation _ | .trait _ | .use _ | .other => []

/-- The types that the items of a module declare. -/
def typesOfAll (package : String) : List Item → List TypeDeclaration
  | [] => []
  | i :: rest => typesOf package i ++ typesOfAll package rest

end

/-- The names of the types of one kind. -/
def namesOfKind (k : TypeKind) (ds : List TypeDeclaration) : List QualifiedName :=
  (ds.filter fun d => d.kind = k).map TypeDeclaration.name

/-- The names of some enumerations as a table, in which each claims the suffixes of its path. -/
def enumerationTable (es : List QualifiedName) : Keyed String :=
  es.foldl (fun t e => (ModulePath.suffixes e.path).foldl (fun t p => t.insertIfNew p e.path) t)
    .empty

namespace Declared

/-- Declares a type. -/
def add (d : Declared) (t : TypeDeclaration) : Declared :=
  match t.kind with
  | .struct => d.addStruct t.name.package t.name.name
  | .enumeration => d.addEnumeration t.name.package t.name.name

mutual

lemma addItem_eq (package : String) (d : Declared) :
    ∀ i : Item, addItem package d i = (typesOf package i).foldl add d
  | .record _ _ => rfl
  | .enumeration _ => rfl
  | .module name items => addItems_eq (ModulePath.inside package name) d items
  | .function _ => rfl
  | .implementation _ => rfl
  | .trait _ => rfl
  | .use _ => rfl
  | .other => rfl

lemma addItems_eq (package : String) (d : Declared) :
    ∀ is : List Item, addItems package d is = (typesOfAll package is).foldl add d
  | [] => rfl
  | i :: rest => by
      rw [addItems, typesOfAll, List.foldl_append, addItem_eq package d i,
        addItems_eq package _ rest]

end

/-- Declaring types is declaring the structures and, apart from that, the enumerations. -/
lemma foldl_add : ∀ (ds : List TypeDeclaration) (d : Declared),
    (ds.foldl add d).catalog
        = (namesOfKind .struct ds).foldl (fun c s => (c.declareStruct s.name s.package).2) d.catalog
      ∧ (ds.foldl add d).enumerations
        = (namesOfKind .enumeration ds).foldl
            (fun t e => (ModulePath.suffixes e.path).foldl (fun t p => t.insertIfNew p e.path) t)
            d.enumerations
  | [], _ => ⟨rfl, rfl⟩
  | ⟨.struct, _⟩ :: ds, _ => foldl_add ds _
  | ⟨.enumeration, _⟩ :: ds, _ => foldl_add ds _

end Declared

/-- The types that some files declare. -/
def declarations (files : List ParsedFile) : List TypeDeclaration :=
  files.flatMap fun f => typesOfAll f.package f.items

section

variable (files : List ParsedFile)

/-- The structures that some files declare, in the order of their numbers. -/
def structsOf : List QualifiedName := namesOfKind .struct (declarations files)

/-- The enumerations that some files declare. -/
def enumerationsOf : List QualifiedName := namesOfKind .enumeration (declarations files)

lemma ofFiles_eq_foldl :
    Declared.ofFiles files = (declarations files).foldl Declared.add .empty := by
  rw [Declared.ofFiles, declarations, List.foldl_flatMap]
  congr 1
  funext d f
  exact Declared.addItems_eq f.package d f.items

/-- **Declaring leaves the tables of the declared names behind.** -/
theorem ofFiles_eq :
    Declared.ofFiles files
      = ⟨Catalog.declareAll (structsOf files), enumerationTable (enumerationsOf files)⟩ := by
  obtain ⟨hcatalog, henumerations⟩ := Declared.foldl_add (declarations files) .empty
  rw [← ofFiles_eq_foldl] at hcatalog henumerations
  rw [Catalog.declareAll, enumerationTable, structsOf, enumerationsOf]
  cases hd : Declared.ofFiles files with
  | mk catalog enumerations =>
      rw [hd] at hcatalog henumerations
      rw [← show Declared.empty.catalog = Catalog.empty from rfl, ← hcatalog,
        ← show Declared.empty.enumerations = Keyed.empty from rfl, ← henumerations]

end

/-- **A key leads to the first enumeration that claims it.** -/
theorem find?_enumerations (key : String) (es : List QualifiedName) :
    (enumerationTable es).find? key
      = (es.find? fun e => e.claims key).map QualifiedName.path := by
  induction es using List.reverseRecOn with
  | nil => rfl
  | append_singleton es e ih =>
      have hconcat : enumerationTable (es ++ [e])
          = (ModulePath.suffixes e.path).foldl (fun t p => t.insertIfNew p e.path)
              (enumerationTable es) := by
        rw [enumerationTable, List.foldl_append]
        rfl
      rw [hconcat, Keyed.find?_claim, ih, List.find?_append, List.find?_singleton, e.claims_eq]
      cases es.find? fun e => e.claims key with
      | some d => rfl
      | none => by_cases h : key ∈ ModulePath.suffixes e.path <;> simp [h]

end FieldCopy
