import Mathlib
import FieldCopy.Catalog.Building
import FieldCopy.Proofs.Catalog.Paths

/-!
# Structures and the paths that lead to them

Declared structures are found by path.  A structure claims all suffixes of its path, those that an
earlier structure has claimed excepted, and that includes the whole path.

**Who is found.**  `structPaths_declareAll`: a key leads to the first structure with that suffix.

**Main statement.**  `structIdAtPath?_path_iff`: the path of a structure leads back to it exactly if
no structure declared before it has that path as a suffix.  `exists_hidden_struct`: there are
structures to which their own paths do not lead.
-/

namespace FieldCopy

/-- A structure of this name, as it is when it is declared. -/
def QualifiedName.struct (n : QualifiedName) : StructInfo := ⟨n.name, n.package, [], []⟩

namespace Catalog

/-- The catalog of structures that were declared in this order. -/
def declareAll (ss : List QualifiedName) : Catalog :=
  ss.foldl (fun c s => (c.declareStruct s.name s.package).2) .empty

lemma declareAll_concat (ss : List QualifiedName) (s : QualifiedName) :
    declareAll (ss ++ [s]) = ((declareAll ss).declareStruct s.name s.package).2 := by
  rw [declareAll, List.foldl_append]
  rfl

lemma structs_declareStruct (c : Catalog) (s : QualifiedName) :
    (c.declareStruct s.name s.package).2.structs = c.structs.push s.struct := rfl

lemma structPaths_declareStruct (c : Catalog) (s : QualifiedName) :
    (c.declareStruct s.name s.package).2.structPaths
      = (ModulePath.suffixes s.path).foldl (fun t p => t.insertIfNew p ⟨c.structs.size⟩)
          c.structPaths := rfl

/-- Structures are numbered in the order in which they are declared. -/
lemma structs_declareAll (ss : List QualifiedName) :
    (declareAll ss).structs = (ss.map QualifiedName.struct).toArray := by
  induction ss using List.reverseRecOn with
  | nil => rfl
  | append_singleton ss s ih =>
      rw [declareAll_concat, structs_declareStruct, ih, List.map_append, List.push_toArray]
      rfl

lemma struct?_declareAll (ss : List QualifiedName) (k : Nat) :
    (declareAll ss).struct? ⟨k⟩ = ss[k]?.map QualifiedName.struct := by
  rw [struct?, structs_declareAll, List.getElem?_toArray, List.getElem?_map]

/-- Declaring structures adds nothing else. -/
lemma declareAll_eq (ss : List QualifiedName) :
    declareAll ss = { Catalog.empty with
      structs := (declareAll ss).structs, structPaths := (declareAll ss).structPaths } := by
  induction ss using List.reverseRecOn with
  | nil => rfl
  | append_singleton ss s ih =>
      rw [declareAll_concat, declareStruct, ih]

/-- **A key leads to the first structure that claims it.** -/
theorem structPaths_declareAll (ss : List QualifiedName) (key : String) :
    (declareAll ss).structPaths.find? key
      = (ss.findIdx? fun s => s.claims key).map StructId.mk := by
  induction ss using List.reverseRecOn with
  | nil => rfl
  | append_singleton ss s ih =>
      have hsize : (declareAll ss).structs.size = ss.length := by
        rw [structs_declareAll, List.size_toArray, List.length_map]
      rw [declareAll_concat, structPaths_declareStruct, Keyed.find?_claim, ih, hsize,
        List.findIdx?_append, List.findIdx?_singleton, s.claims_eq]
      cases ss.findIdx? fun s => s.claims key with
      | some i => rfl
      | none => by_cases h : key ∈ ModulePath.suffixes s.path <;> simp [h]

/-- What a table has for the whole path counts first. -/
lemma lookPath_of_find? {α : Type} {table : Keyed α} {written : String} {a : α}
    (h : table.find? (ModulePath.withoutRoot written) = some a) :
    lookPath table written = some a := by
  rw [lookPath, h]
  rfl

/-- What is found for a path is found for a key. -/
lemma exists_find?_of_lookPath {α : Type} {table : Keyed α} {written : String} {a : α}
    (h : lookPath table written = some a) : ∃ key, table.find? key = some a := by
  rw [lookPath] at h
  rcases (Option.orElse_eq_some _ _ _).1 h with h | ⟨-, h⟩
  · exact ⟨_, h⟩
  · rcases (Option.orElse_eq_some _ _ _).1 h with h | ⟨-, h⟩
    · split at h
      · exact ⟨_, h⟩
      · exact absurd h (by simp)
    · obtain ⟨name, -, hname⟩ := Option.bind_eq_some_iff.1 h
      exact ⟨name, hname⟩

/-- **The path of a structure leads to the first structure with that suffix.**  The structure has
it itself, so there is one. -/
theorem structIdAtPath?_path (ss : List QualifiedName) (k : Fin ss.length) :
    ∃ i : Fin ss.length, (declareAll ss).structIdAtPath? (ss.get k).path = some ⟨i⟩
      ∧ (ss.get i).claims (ModulePath.withoutRoot (ss.get k).path)
      ∧ ∀ j < i, ¬ (ss.get j).claims (ModulePath.withoutRoot (ss.get k).path) := by
  have hself : (ss.get k).claims (ModulePath.withoutRoot (ss.get k).path) = true :=
    QualifiedName.claims_iff.2 (ModulePath.withoutRoot_mem_suffixes _)
  have hfound := structPaths_declareAll ss (ModulePath.withoutRoot (ss.get k).path)
  cases hi : ss.findIdx? fun s => s.claims (ModulePath.withoutRoot (ss.get k).path) with
  | none =>
      rw [List.findIdx?_eq_none_iff] at hi
      have hfalse := hi (ss.get k) (List.get_mem _ k)
      rw [hself] at hfalse
      exact absurd hfalse (by simp)
  | some i =>
      obtain ⟨hlt, hclaims, hfirst⟩ := List.findIdx?_eq_some_iff_getElem.1 hi
      rw [hi] at hfound
      exact ⟨⟨i, hlt⟩, lookPath_of_find? hfound, hclaims, fun j hj => hfirst j hj⟩

/-- What the path of a structure leads to is itself if no structure in front of it has that path as
a suffix. -/
lemma structIdAtPath?_eq_self_iff (ss : List QualifiedName) (k : Fin ss.length) :
    (declareAll ss).structIdAtPath? (ss.get k).path = some ⟨k⟩
      ↔ ∀ j < k, ModulePath.withoutRoot (ss.get k).path ∉ ModulePath.suffixes (ss.get j).path := by
  obtain ⟨i, hi, hclaims, hfirst⟩ := structIdAtPath?_path ss k
  have hself := QualifiedName.claims_iff.2 (ModulePath.withoutRoot_mem_suffixes (ss.get k).path)
  have hid : some (StructId.mk i) = some ⟨k⟩ ↔ i = k := by
    simp [Fin.ext_iff]
  rw [hi, hid]
  exact QualifiedName.first_eq_iff hclaims hfirst hself

/-- **The path of a structure leads back to it exactly if no structure in front of it has that
path as a suffix.** -/
theorem structIdAtPath?_path_iff (ss : List QualifiedName) (k : Fin ss.length) :
    (declareAll ss).struct? ⟨k⟩ = some (ss.get k).struct
      ∧ ((declareAll ss).structIdAtPath? (ss.get k).path = some ⟨k⟩
        ↔ ∀ j < k,
          ModulePath.withoutRoot (ss.get k).path ∉ ModulePath.suffixes (ss.get j).path) := by
  refine ⟨?_, structIdAtPath?_eq_self_iff ss k⟩
  rw [struct?_declareAll, List.getElem?_eq_getElem k.isLt]
  rfl

/-- **Not every path leads back.**  A structure of an inner module that is declared first hides one
whose module has the same last name. -/
theorem exists_hidden_struct :
    ¬ ∀ ss : List QualifiedName, (ss.map QualifiedName.path).Nodup → ∀ k : Fin ss.length,
      ¬ "crate".toList <+: (ss.get k).package.toList →
      ¬ "self".toList <+: (ss.get k).package.toList →
        (declareAll ss).structIdAtPath? (ss.get k).path = some ⟨k⟩ := by
  intro h
  have hhidden := h [⟨"Pet", "store::model"⟩, ⟨"Pet", "model"⟩] (by decide) ⟨1, by decide⟩
    (by decide) (by decide)
  exact absurd hhidden (by decide)

end Catalog

end FieldCopy
