import Mathlib
import FieldCopy.Loading
import FieldCopy.Proofs.Loading.Fitting

/-!
# Files as they are parsed

**Proper files.**  Modules and types have names, and the types in a file are proper.  This is what
texts are parsed to: a name is one word that is no keyword, and what is kept of a type as written
has a mark or a keyword in it.

**Main statement.**  `distinct_of_proper`: if no two types of some proper files have one path, the
names that the files declare are told apart.
-/

namespace FieldCopy

open Source ModulePath

namespace Source

/-- The types in the head of a function are proper. -/
structure Signature.IsProper (s : Signature) : Prop where
  parameters : ∀ p ∈ s.parameters, p.type.IsProper
  result : ∀ t ∈ s.result, t.IsProper

mutual

/-- The names and types in an item are proper. -/
def Item.IsProper : Item → Prop
  | .record name fields => IsName name ∧ ∀ f ∈ fields, f.type.IsProper
  | .enumeration name => IsName name
  | .function s => s.IsProper
  | .implementation i => i.subject.IsProper ∧ ∀ s ∈ i.functions, s.IsProper
  | .trait t => ∀ f ∈ t.functions, f.signature.IsProper
  | .module name items => IsName name ∧ itemsAreProper items
  | .use _ | .other => True

/-- The names and types in some items are proper. -/
def itemsAreProper : List Item → Prop
  | [] => True
  | i :: rest => i.IsProper ∧ itemsAreProper rest

end

/-! ## The value of an outcome -/

/-- The value of a type that is a value or a failure is an argument of the path. -/
lemma Ty.exists_of_outcome {t value : Ty} {failure : Option Ty}
    (ho : t.outcome? = some (value, failure)) :
    ∃ p, t = .path p ∧ ∃ s ∈ p.segments, value ∈ s.arguments.types := by
  cases t with
  | path p =>
      rw [Ty.outcome?] at ho
      obtain ⟨last, hlast, ho⟩ := Option.bind_eq_some_iff.1 ho
      refine ⟨p, rfl, last, List.mem_of_getLast? hlast, ?_⟩
      split at ho
      · split at ho
        · rename_i heq
          obtain ⟨rfl, -⟩ := Prod.mk.inj (Option.some.inj ho)
          exact heq ▸ List.mem_cons_self
        · rename_i heq
          obtain ⟨rfl, -⟩ := Prod.mk.inj (Option.some.inj ho)
          exact heq ▸ List.mem_cons_self
        · exact absurd ho (by simp)
      · exact absurd ho (by simp)
  | _ => exact absurd ho (by simp [Ty.outcome?])

/-- The value of a proper type that is a value or a failure is proper. -/
lemma Ty.IsProper.outcome {t value : Ty} {failure : Option Ty} (h : t.IsProper)
    (ho : t.outcome? = some (value, failure)) : value.IsProper := by
  obtain ⟨p, rfl, s, hs, hvalue⟩ := Ty.exists_of_outcome ho
  exact Path.IsProper.types h s hs value hvalue

end Source

/-! ## Files -/

/-- A file of a module in which all names and types are proper. -/
structure ParsedFile.IsProper (f : ParsedFile) : Prop where
  package : IsModule f.package
  items : itemsAreProper f.items

mutual

lemma typesOf_proper {package : String} (hp : IsModule package) :
    ∀ i : Item, i.IsProper → ∀ d ∈ typesOf package i, d.name.IsProper
  | .record name fields, h, d, hd => by
      rw [typesOf, List.mem_singleton] at hd
      rw [hd]
      exact ⟨hp, h.1⟩
  | .enumeration name, h, d, hd => by
      rw [typesOf, List.mem_singleton] at hd
      rw [hd]
      exact ⟨hp, h⟩
  | .module name items, h, d, hd => by
      rw [typesOf] at hd
      exact typesOfAll_proper (isModule_inside hp h.1) items h.2 d hd
  | .function _, _, _, hd => absurd hd List.not_mem_nil
  | .implementation _, _, _, hd => absurd hd List.not_mem_nil
  | .trait _, _, _, hd => absurd hd List.not_mem_nil
  | .use _, _, _, hd => absurd hd List.not_mem_nil
  | .other, _, _, hd => absurd hd List.not_mem_nil

lemma typesOfAll_proper {package : String} (hp : IsModule package) :
    ∀ is : List Item, itemsAreProper is → ∀ d ∈ typesOfAll package is, d.name.IsProper
  | [], _, _, hd => absurd hd List.not_mem_nil
  | i :: rest, h, d, hd => by
      rw [typesOfAll] at hd
      rcases List.mem_append.1 hd with hd | hd
      · exact typesOf_proper hp i h.1 d hd
      · exact typesOfAll_proper hp rest h.2 d hd

end

lemma mem_namesOfKind {k : TypeKind} {ds : List TypeDeclaration} {n : QualifiedName} :
    n ∈ namesOfKind k ds ↔ ⟨k, n⟩ ∈ ds := by
  rw [namesOfKind, List.mem_map]
  constructor
  · rintro ⟨⟨k', n'⟩, hd, rfl⟩
    obtain ⟨hmem, hk⟩ := List.mem_filter.1 hd
    rw [← of_decide_eq_true hk]
    exact hmem
  · intro h
    exact ⟨⟨k, n⟩, List.mem_filter.2 ⟨h, decide_eq_true rfl⟩, rfl⟩

/-- Different types of one kind have different paths. -/
lemma namesOfKind_injective {ds : List TypeDeclaration}
    (distinct : (ds.map TypeDeclaration.path).Nodup) (k : TypeKind)
    (i j : Fin (namesOfKind k ds).length)
    (h : ((namesOfKind k ds).get i).path = ((namesOfKind k ds).get j).path) : i = j := by
  have hpaths : ((namesOfKind k ds).map QualifiedName.path).Nodup := by
    rw [namesOfKind, List.map_map]
    exact distinct.sublist (List.filter_sublist.map TypeDeclaration.path)
  have hname : (namesOfKind k ds).get i = (namesOfKind k ds).get j :=
    List.inj_on_of_nodup_map hpaths (List.get_mem _ i) (List.get_mem _ j) h
  exact Fin.ext (hpaths.of_map.getElem_inj_iff.1 hname)

variable {files : List ParsedFile}

lemma declarations_proper (proper : ∀ f ∈ files, f.IsProper) :
    ∀ d ∈ declarations files, d.name.IsProper := by
  intro d hd
  obtain ⟨f, hf, hd⟩ := List.mem_flatMap.1 hd
  exact typesOfAll_proper (proper f hf).package f.items (proper f hf).items d hd

/-- **The names that proper files declare are told apart by their paths.** -/
theorem distinct_of_proper (proper : ∀ f ∈ files, f.IsProper)
    (distinct : ((declarations files).map TypeDeclaration.path).Nodup) :
    Catalog.Distinct (structsOf files) (enumerationsOf files) where
  structs s hs := declarations_proper proper _ (mem_namesOfKind.1 hs)
  enumerations e he := declarations_proper proper _ (mem_namesOfKind.1 he)
  injective := namesOfKind_injective distinct .struct
  disjoint s hs e he hpath := by
    have heq := List.inj_on_of_nodup_map distinct (mem_namesOfKind.1 hs) (mem_namesOfKind.1 he)
      hpath
    exact absurd (congrArg TypeDeclaration.kind heq) (by simp)

end FieldCopy
