import Mathlib
import FieldCopy.Catalog.Building

/-!
# Asking for a type by name

A type is asked for by name, and a name that is new gets the next number.  What a number stood for
before it still stands for (`type?_intern`).

**Look-ups** may find nothing, and what goes on from one gives something only if the look-up does
(`exists_of_bind_eq_ok`).
-/

namespace FieldCopy.Catalog

variable {c : Catalog}

/-! ## Look-ups -/

lemma ok_bind {α β : Type} (a : α) (f : α → Except Dangling β) : Except.ok a >>= f = f a := rfl

/-- What goes on from a look-up gives something only if the look-up does. -/
lemma exists_of_bind_eq_ok {α β : Type} {x : Except Dangling α} {f : α → Except Dangling β} {b : β}
    (h : x >>= f = .ok b) : ∃ a, x = .ok a ∧ f a = .ok b := by
  cases x with
  | error d => exact absurd h (by simp [bind, Except.bind])
  | ok a => exact ⟨a, rfl, h⟩

lemma struct?_of_structAt {id : StructId} {s : StructInfo} (h : c.structAt id = .ok s) :
    c.struct? id = some s := by
  rw [structAt] at h
  split at h
  · rename_i hs
    rw [hs, Except.ok.inj h]
  · exact absurd h (by simp)

lemma type?_of_typeAt {id : TypeId} {t : TypeInfo} (h : c.typeAt id = .ok t) :
    c.type? id = some t := by
  rw [typeAt] at h
  split at h
  · rename_i ht
    rw [ht, Except.ok.inj h]
  · exact absurd h (by simp)

/-! ## Types by name -/

/-- What the numbers of types stand for once a name was asked for. -/
lemma type?_intern_of_none {name : String} (h : c.typeNamed? name = none) (shape : Shape)
    (id : TypeId) :
    (c.intern name shape).2.type? id
      = if id.index = c.types.size then some ⟨id, name, shape⟩ else c.type? id := by
  obtain ⟨index⟩ := id
  rw [intern, h, type?, type?, Array.getElem?_push]
  by_cases hindex : index = c.types.size
  · rw [if_pos hindex, if_pos hindex, hindex]
  · rw [if_neg hindex, if_neg hindex]

lemma typeNamed?_intern_of_none {name : String} (h : c.typeNamed? name = none) (shape : Shape)
    (other : String) :
    (c.intern name shape).2.typeNamed? other
      = if other = name then some ⟨c.types.size⟩ else c.typeNamed? other := by
  rw [intern, h, typeNamed?, typeNamed?, Keyed.find?_insert]

/-- A number that stands for a type stands for it for ever. -/
lemma type?_intern {id : TypeId} {t : TypeInfo} (h : c.type? id = some t) (name : String)
    (shape : Shape) : (c.intern name shape).2.type? id = some t := by
  cases hname : c.typeNamed? name with
  | some _ => rw [intern, hname]; exact h
  | none =>
      have hlt : id.index < c.types.size := (Array.getElem?_eq_some_iff.1 h).1
      rw [type?_intern_of_none hname, if_neg (by omega), h]

end FieldCopy.Catalog
