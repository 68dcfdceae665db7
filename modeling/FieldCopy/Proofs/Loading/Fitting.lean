import Mathlib
import FieldCopy.Proofs.Catalog.Interning
import FieldCopy.Proofs.Loading.Declarations
import FieldCopy.Proofs.Loading.TypeTexts

/-!
# The catalog while files are loaded

Types are known by name, so a type that is found under the path of a declared structure had better
be that structure, whatever was found or added before.

**The invariant.**  `Catalog.Fits` says that structures keep their numbers and names, that types are
found under their own names, and that the types with the paths of declared structures and
enumerations have the right shapes.

**Operations.**  `Catalog.Fits.intern` keeps it, and so does what changes no types and no names
(`Catalog.Fits.alike`).

**Looking up.**  In a catalog that fits, paths lead where they led when the structures had just been
declared, and a declared structure is a type with its own path as name.
-/

namespace FieldCopy

open Source ModulePath

/-! ## The invariant -/

namespace Catalog

section

variable (ss es : List QualifiedName)

/-- A shape is right for a type of this name. -/
structure Fitting (name : String) (shape : Shape) : Prop where
  struct : ∀ k : Fin ss.length, (ss.get k).path = name → shape = .struct ⟨k⟩
  enumeration : ∀ e ∈ es, e.path = name → shape = .basic

/-- A catalog in which the declared structures and enumerations have their names and shapes. -/
structure Fits (c : Catalog) : Prop where
  paths : c.structPaths = (declareAll ss).structPaths
  names : ∀ k, (c.struct? ⟨k⟩).map StructInfo.path = ss[k]?.map QualifiedName.path
  known : ∀ name id, c.typeNamed? name = some id → ∃ shape, c.type? id = some ⟨id, name, shape⟩
  shapes : ∀ id t, c.type? id = some t → Fitting ss es t.name t.shape

end

variable {ss es : List QualifiedName} {c : Catalog}

lemma fitting_of_not_reads (hss : ∀ s ∈ ss, s.IsProper) (hes : ∀ e ∈ es, e.IsProper) {name : String}
    (h : ¬ Reads name) (shape : Shape) : Fitting ss es name shape := by
  refine ⟨fun k hk => ?_, fun e he hpath => ?_⟩
  · exact absurd (hk ▸ (hss (ss.get k) (List.get_mem _ k)).reads_path) h
  · exact absurd (hpath ▸ (hes e he).reads_path) h

/-- Declaring structures leaves a catalog behind that fits. -/
lemma fits_declareAll (ss es : List QualifiedName) : Fits ss es (declareAll ss) := by
  refine ⟨rfl, fun k => ?_, fun name id h => ?_, fun id t h => ?_⟩
  · rw [struct?_declareAll, Option.map_map]
    rfl
  · rw [declareAll_eq, typeNamed?, Catalog.empty, Keyed.find?_empty] at h
    exact absurd h (by simp)
  · rw [declareAll_eq, type?, Catalog.empty] at h
    exact absurd h (by simp)

namespace Fits

/-- **Finding or adding a type under a name that its shape is right for.** -/
lemma intern (h : Fits ss es c) {name : String} {shape : Shape} (hfit : Fitting ss es name shape) :
    Fits ss es (c.intern name shape).2 := by
  cases hname : c.typeNamed? name with
  | some id => rw [Catalog.intern, hname]; exact h
  | none =>
      have hpaths : (c.intern name shape).2.structPaths = c.structPaths := by
        rw [Catalog.intern, hname]
      have hstructs : (c.intern name shape).2.structs = c.structs := by
        rw [Catalog.intern, hname]
      refine ⟨hpaths.trans h.paths, fun k => ?_, fun n id hid => ?_, fun id t ht => ?_⟩
      · rw [struct?, hstructs]
        exact h.names k
      · rw [typeNamed?_intern_of_none hname] at hid
        split at hid
        · rename_i heq
          obtain rfl := Option.some.inj hid
          exact ⟨shape, by rw [type?_intern_of_none hname, if_pos rfl, heq]⟩
        · obtain ⟨s, hs⟩ := h.known n id hid
          exact ⟨s, type?_intern hs name shape⟩
      · rw [type?_intern_of_none hname] at ht
        split at ht
        · obtain rfl := Option.some.inj ht
          exact hfit
        · exact h.shapes id t ht

/-- What is found under a name has that name. -/
lemma type?_intern_self (h : Fits ss es c) (name : String) (shape : Shape) :
    ∃ s, (c.intern name shape).2.type? (c.intern name shape).1
      = some ⟨(c.intern name shape).1, name, s⟩ := by
  cases hname : c.typeNamed? name with
  | some id =>
      obtain ⟨s, hs⟩ := h.known name id hname
      exact ⟨s, by rw [Catalog.intern, hname]; exact hs⟩
  | none =>
      refine ⟨shape, ?_⟩
      rw [type?_intern_of_none hname, Catalog.intern, hname, if_pos rfl]

end Fits

/-! ## Adding to structures -/

/-- Two catalogs know the same types, and the same structures by name. -/
structure Alike (c c' : Catalog) : Prop where
  types : c'.types = c.types
  typeNames : c'.typeNames = c.typeNames
  structPaths : c'.structPaths = c.structPaths
  names : ∀ id, (c'.struct? id).map StructInfo.path = (c.struct? id).map StructInfo.path

/-- **What else is known of a structure can change.** -/
lemma alike_changeStruct {f : StructInfo → StructInfo} {id : StructId} {c' : Catalog}
    (h : c.changeStruct id f = .ok c') (hf : ∀ s, (f s).path = s.path) : Alike c c' := by
  obtain ⟨s, hs, hc'⟩ := exists_of_bind_eq_ok h
  obtain rfl := Except.ok.inj hc'
  refine ⟨rfl, rfl, rfl, fun other => ?_⟩
  rw [struct?, struct?, Array.getElem?_setIfInBounds]
  split
  · rename_i heq
    have hother := struct?_of_structAt hs
    rw [struct?, heq] at hother
    split
    · rw [hother, Option.map_some, Option.map_some, hf]
    · rename_i hbound
      rw [Array.getElem?_eq_none (by omega)]
  · rfl

lemma alike_addField {id : StructId} {name : String} {type : TypeId} {tag : Option String}
    {c' : Catalog} (h : c.addField id name type tag = .ok c') : Alike c c' := by
  obtain ⟨shape, -, hc'⟩ := exists_of_bind_eq_ok h
  exact alike_changeStruct hc' fun _ => rfl

lemma alike_addMethod {id : StructId} {m : MethodInfo} {c' : Catalog}
    (h : c.addMethod id m = .ok c') : Alike c c' := alike_changeStruct h fun _ => rfl

lemma alike_addFunction (package : String) (f : FunctionInfo) : Alike c (c.addFunction package f) :=
  ⟨rfl, rfl, rfl, fun _ => rfl⟩

lemma alike_markStringer (id : TypeId) : Alike c (c.markStringer id) := by
  rw [markStringer]
  split
  · exact ⟨rfl, rfl, rfl, fun _ => rfl⟩
  · exact ⟨rfl, rfl, rfl, fun _ => rfl⟩

lemma Alike.type? {c' : Catalog} (h : Alike c c') (id : TypeId) : c'.type? id = c.type? id := by
  rw [Catalog.type?, Catalog.type?, h.types]

lemma Fits.alike (h : Fits ss es c) {c' : Catalog} (same : Alike c c') : Fits ss es c' := by
  refine ⟨same.structPaths.trans h.paths, fun k => (same.names ⟨k⟩).trans (h.names k), ?_, ?_⟩
  · intro name id hid
    rw [typeNamed?, same.typeNames] at hid
    rw [same.type?]
    exact h.known name id hid
  · intro id t ht
    rw [same.type?] at ht
    exact h.shapes id t ht

/-! ## Names that are told apart -/

/-- The names of declared types are names in modules, and no two of the paths are the same. -/
structure Distinct (ss es : List QualifiedName) : Prop where
  structs : ∀ s ∈ ss, s.IsProper
  enumerations : ∀ e ∈ es, e.IsProper
  injective : ∀ i j : Fin ss.length, (ss.get i).path = (ss.get j).path → i = j
  disjoint : ∀ s ∈ ss, ∀ e ∈ es, s.path ≠ e.path

namespace Distinct

lemma fitting (h : Distinct ss es) {name : String} (hname : ¬ Reads name) (shape : Shape) :
    Fitting ss es name shape :=
  fitting_of_not_reads h.structs h.enumerations hname shape

/-- The path of a structure is for that structure. -/
lemma fitting_struct (h : Distinct ss es) (k : Fin ss.length) :
    Fitting ss es (ss.get k).path (.struct ⟨k⟩) := by
  refine ⟨fun j hj => ?_, fun e he hpath => ?_⟩
  · rw [h.injective j k hj]
  · exact absurd hpath.symm (h.disjoint (ss.get k) (List.get_mem _ k) e he)

/-- Any path but those of structures is for a type without parts. -/
lemma fitting_basic {name : String} (hname : ∀ s ∈ ss, s.path ≠ name) :
    Fitting ss es name .basic :=
  ⟨fun k hk => absurd hk (hname (ss.get k) (List.get_mem _ k)), fun _ _ _ => rfl⟩

end Distinct

/-! ## Looking up -/

namespace Fits

/-- Paths lead where they led when the structures had been declared. -/
lemma structIdAtPath?_eq (h : Fits ss es c) (written : String) :
    c.structIdAtPath? written = (declareAll ss).structIdAtPath? written := by
  rw [structIdAtPath?, structIdAtPath?, h.paths]

/-- A path leads to a declared structure. -/
lemma lt_of_structIdAtPath? (h : Fits ss es c) {written : String} {id : StructId}
    (hid : c.structIdAtPath? written = some id) : id.index < ss.length := by
  rw [h.structIdAtPath?_eq] at hid
  obtain ⟨key, hkey⟩ := exists_find?_of_lookPath hid
  rw [structPaths_declareAll] at hkey
  obtain ⟨i, hi, rfl⟩ := Option.map_eq_some_iff.1 hkey
  exact (List.findIdx?_eq_some_iff_getElem.1 hi).1

/-- The type that a declared structure is. -/
lemma structType_eq (h : Fits ss es c) (k : Fin ss.length) :
    c.structType ⟨k⟩ = .ok (c.intern (ss.get k).path (.struct ⟨k⟩)) := by
  have hname := h.names k
  rw [List.getElem?_eq_getElem k.isLt, Option.map_some] at hname
  obtain ⟨s, hs, hpath⟩ := Option.map_eq_some_iff.1 hname
  rw [structType, structAt, hs]
  change Except.ok (c.intern s.path _) = _
  rw [hpath]
  rfl

end Fits

end Catalog

end FieldCopy
