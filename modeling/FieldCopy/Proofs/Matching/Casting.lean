import Mathlib
import FieldCopy.Code.Conversion
import FieldCopy.Proofs.Catalog.Naming
import FieldCopy.Proofs.Matching.Outcomes

/-!
# Casts by name

A field that is cast is planned with the number of its type, and its code is written with the name
of that type: whether a number is cast or a value is converted is looked up by name.

**Main statement.**  `Catalog.interning`: however a catalog is built, names and numbers of types
stand for each other, for ever and in the finished catalog, so the look-up by name comes back to the
type of the field.
-/

namespace FieldCopy

/-- The cast value of a field of this type. -/
def Conversion.castTo (c : Conversion) (path : String) (t : TypeInfo) : Expression :=
  if t.isNumeric then .cast (c.sourceMember path) t.name
  else .call (typeInPath t.name ++ "::from") [(c.sourceMember path).clone]

namespace Matching

variable {k : Matching} {field : FieldInfo} {a : Assignment}

/-- A field is only cast to its own type, by the name of that. -/
lemma exists_type_of_cast (result : (k.resolve field).outcome.value = .ok a)
    {name path target : String} (ha : a = .cast name path target) :
    ∃ t, k.catalog.type? field.type = some t ∧ t.name = target := by
  have hassigned : ∀ m, k.Assigned field m a →
      ∃ t, k.catalog.type? field.type = some t ∧ t.name = target := by
    intro m h
    cases h with
    | cast _ _ type _ _ =>
        injection ha with _ _ htarget
        exact ⟨_, Catalog.type?_of_typeAt type, htarget⟩
    | getter _ _ | copy _ _ | stringer _ _ _ | mismatch _ _ _ _ _ => exact absurd ha (by simp)
  cases ensures_resolve_outcome a result with
  | literal _ | skipped _ _ | method _ _ _ => exact absurd ha (by simp)
  | matched _ _ _ matched =>
      cases matched with
      | converter _ call => cases call <;> exact absurd ha (by simp)
      | followed _ _ _ assigned => exact hassigned _ assigned
      | member _ _ _ _ assigned => exact hassigned _ assigned
      | trusted _ _ _ | disabled _ _ _ | missing _ _ _ _ => exact absurd ha (by simp)

/-- **The name of a cast leads back to the type of the field.** -/
theorem cast_type (names : k.catalog.NamesMatch) {name path target : String}
    (result : (k.resolve field).outcome.value = .ok (.cast name path target)) :
    ∃ t, k.catalog.type? field.type = some t ∧ t.name = target
      ∧ k.catalog.typeNamed? target = some field.type
      ∧ ∀ c : Conversion, c.fieldValue? k.catalog (.cast name path target)
          = some (c.castTo path t) := by
  obtain ⟨t, ht, rfl⟩ := exists_type_of_cast result rfl
  have hnamed := names.named field.type t ht
  refine ⟨t, ht, rfl, hnamed, fun c => ?_⟩
  have hnumeric : Conversion.isNumericName k.catalog t.name = t.isNumeric := by
    rw [Conversion.isNumericName, hnamed, Option.bind_some, ht, Option.any_some]
  rw [Conversion.fieldValue?, Conversion.castTo, hnumeric]

end Matching

namespace Catalog

/-- **Names and numbers of types stand for each other,** whatever operations build the catalog and
whatever shapes they ask for: each type is found by its name and nothing else is, holds the number
of its place, a name that is known is answered without a change, what a number stands for stays when
more is added, and the table of the finished catalog has the same answers.  So two numbers are the
same just if the names are, whether they are asked for or held, and the code of a cast field is that
for the type of the field. -/
theorem interning (ops : List Operation) :
    (∀ name id, (ofOperations ops).typeNamed? name = some id
        ↔ ∃ shape, (ofOperations ops).type? id = some ⟨id, name, shape⟩)
    ∧ (∀ (i : Nat) (t : TypeInfo), (ofOperations ops).types[i]? = some t →
        t.id = ⟨i⟩
          ∧ (∀ shape, (ofOperations ops).intern t.name shape = (⟨i⟩, ofOperations ops))
          ∧ ∀ more, (ofOperations (ops ++ more)).type? ⟨i⟩ = some t)
    ∧ (∀ a b s t, (ofOperations ops).type? a = some s → (ofOperations ops).type? b = some t →
        (a = b ↔ s.name = t.name) ∧ (s.id = t.id ↔ s.name = t.name))
    ∧ (∀ name, (ofOperations ops).finished.typeNamed? name = (ofOperations ops).typeNamed? name)
    ∧ ∀ (k : Matching) (field : FieldInfo) (name path target : String),
        k.catalog = (ofOperations ops).finished →
        (k.resolve field).outcome.value = .ok (.cast name path target) →
          ∃ t, k.catalog.type? field.type = some t ∧ t.name = target
            ∧ k.catalog.typeNamed? target = some field.type
            ∧ ∀ c : Conversion, c.fieldValue? k.catalog (.cast name path target)
                = some (c.castTo path t) := by
  have hnames := namesMatch_ofOperations ops
  refine ⟨fun name id => ⟨hnames.known name id, ?_⟩, fun i t ht => ⟨?_, ?_, ?_⟩, ?_, ?_, ?_⟩
  · rintro ⟨shape, hshape⟩
    exact hnames.named id _ hshape
  · exact (hnames.id_eq ht : t.id = ⟨i⟩)
  · exact intern_of_known (hnames.named ⟨i⟩ t ht)
  · intro more
    rw [ofOperations_append]
    exact type?_after ht more
  · intro a b s t hs ht
    have hnumbers := hnames.id_eq_iff hs ht
    exact ⟨hnumbers, by rw [hnames.id_eq hs, hnames.id_eq ht, hnumbers]⟩
  · intro name
    rw [hnames.finished_eq]
  · intro k field name path target hcatalog result
    refine Matching.cast_type ?_ result
    rw [hcatalog, hnames.finished_eq]
    exact hnames

end Catalog

end FieldCopy
