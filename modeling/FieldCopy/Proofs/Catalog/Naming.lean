import Mathlib
import FieldCopy.Proofs.Catalog.Operations
import FieldCopy.Proofs.Tables

/-!
# Names and numbers of types

Types are known three times over: in the order of their numbers, in the table of names that grows
with them, and in the one that is made when the catalog is finished.

**The invariant.**  `Catalog.NamesMatch`: a name is in the table for a number just if the type with
this number has this name.

**Operations.**  All that an operation does to types is to ask for one by name
(`Operation.types_of_run`), so the invariant is kept by every operation, whatever numbers it is
given, and whatever shapes (`Catalog.namesMatch_ofOperations`).

**Finished catalogs.**  The table that is made anew is the one that was there
(`Catalog.NamesMatch.finished_eq`).
-/

namespace FieldCopy

namespace Catalog

/-- Each type's name is in the table for its number, and no other name is. -/
structure NamesMatch (c : Catalog) : Prop where
  named : ∀ id t, c.type? id = some t → c.typeNamed? t.name = some id
  known : ∀ name id, c.typeNamed? name = some id → ∃ shape, c.type? id = some ⟨id, name, shape⟩

lemma namesMatch_empty : NamesMatch .empty where
  named id t h := absurd h (by simp [type?, empty])
  known name id h := absurd h (by simp [typeNamed?, empty])

variable {c c' : Catalog}

/-- The invariant is about types and their names only. -/
lemma NamesMatch.congr (h : c.NamesMatch) (types : c'.types = c.types)
    (typeNames : c'.typeNames = c.typeNames) : c'.NamesMatch := by
  refine ⟨fun id t ht => ?_, fun name id hid => ?_⟩
  · rw [type?, types] at ht
    rw [typeNamed?, typeNames]
    exact h.named id t ht
  · rw [typeNamed?, typeNames] at hid
    rw [type?, types]
    exact h.known name id hid

/-- A name that is known is answered, and nothing changes. -/
lemma intern_of_known {name : String} {id : TypeId} (h : c.typeNamed? name = some id)
    (shape : Shape) : c.intern name shape = (id, c) := by
  rw [intern, h]

namespace NamesMatch

/-- **Asking for a type keeps names and numbers together.** -/
lemma intern (h : c.NamesMatch) (name : String) (shape : Shape) :
    (c.intern name shape).2.NamesMatch := by
  cases hname : c.typeNamed? name with
  | some id => rwa [intern_of_known hname]
  | none =>
      refine ⟨fun id t ht => ?_, fun other id hid => ?_⟩
      · rw [type?_intern_of_none hname] at ht
        rw [typeNamed?_intern_of_none hname]
        split at ht
        · rename_i hindex
          obtain rfl := Option.some.inj ht
          rw [if_pos rfl, ← hindex]
        · -- An earlier type is not called what no type was called.
          have hother : t.name ≠ name := by
            rintro rfl
            exact absurd (hname.symm.trans (h.named id t ht)) (by simp)
          rw [if_neg hother]
          exact h.named id t ht
      · rw [typeNamed?_intern_of_none hname] at hid
        split at hid
        · rename_i hother
          rw [← Option.some.inj hid, hother]
          exact ⟨shape, by rw [type?_intern_of_none hname, if_pos rfl]⟩
        · obtain ⟨s, hs⟩ := h.known other id hid
          exact ⟨s, type?_intern hs name shape⟩

/-- Types with one name are one type. -/
lemma id_eq_iff (h : c.NamesMatch) {a b : TypeId} {s t : TypeInfo} (hs : c.type? a = some s)
    (ht : c.type? b = some t) : a = b ↔ s.name = t.name := by
  refine ⟨?_, fun hname => ?_⟩
  · rintro rfl
    rw [Option.some.inj (hs.symm.trans ht)]
  · have ha := h.named a s hs
    rw [hname, h.named b t ht] at ha
    exact (Option.some.inj ha).symm

/-! ## Finished catalogs -/

/-- A type holds its own number. -/
lemma id_eq (h : c.NamesMatch) {id : TypeId} {t : TypeInfo} (ht : c.type? id = some t) :
    t.id = id := by
  obtain ⟨shape, hknown⟩ := h.known t.name id (h.named id t ht)
  rw [Option.some.inj (ht.symm.trans hknown)]

lemma mem_entries_iff (h : c.NamesMatch) (name : String) (id : TypeId) :
    (name, id) ∈ c.types.toList.map (fun t => (t.name, t.id))
      ↔ ∃ t, c.type? id = some t ∧ t.name = name := by
  rw [List.mem_map]
  constructor
  · rintro ⟨t, hmem, heq⟩
    obtain ⟨rfl, rfl⟩ := Prod.mk.inj heq
    obtain ⟨index, ht⟩ := List.mem_iff_getElem?.1 hmem
    have ht : c.type? ⟨index⟩ = some t := by simpa [type?] using ht
    exact ⟨t, by rw [h.id_eq ht, ht], rfl⟩
  · rintro ⟨t, ht, rfl⟩
    exact ⟨t, Array.mem_toList_iff.2 (Array.mem_of_getElem? ht), by rw [h.id_eq ht]⟩

/-- **The table of names that is made of the types is the one that grew with them.** -/
lemma namesOf_eq (h : c.NamesMatch) : namesOf c.types = c.typeNames := by
  refine Keyed.ext_find? fun name => ?_
  cases hnamed : c.typeNamed? name with
  | none =>
      rw [show c.typeNames.find? name = none from hnamed, ← Option.not_isSome_iff_eq_none]
      intro hsome
      obtain ⟨id, hid⟩ := (Keyed.contains_ofList_iff _ name).1 hsome
      obtain ⟨t, ht, rfl⟩ := (h.mem_entries_iff name id).1 hid
      exact absurd (hnamed.symm.trans (h.named id t ht)) (by simp)
  | some id =>
      rw [show c.typeNames.find? name = some id from hnamed]
      obtain ⟨shape, hshape⟩ := h.known name id hnamed
      refine Keyed.find?_ofList_of_unique
        ((h.mem_entries_iff name id).2 ⟨_, hshape, rfl⟩) fun id' hid' => ?_
      obtain ⟨t, ht, rfl⟩ := (h.mem_entries_iff _ id').1 hid'
      exact Option.some.inj ((h.named id' t ht).symm.trans hnamed)

/-- **Finishing a catalog leaves it as it is.** -/
theorem finished_eq (h : c.NamesMatch) : c.finished = c := by
  rw [finished, h.namesOf_eq]

end NamesMatch

/-! ## Operations -/

lemma types_of_changeStruct {id : StructId} {f : StructInfo → StructInfo}
    (h : c.changeStruct id f = .ok c') : c'.types = c.types ∧ c'.typeNames = c.typeNames := by
  obtain ⟨s, -, hc'⟩ := exists_of_bind_eq_ok h
  obtain rfl := Except.ok.inj hc'
  exact ⟨rfl, rfl⟩

end Catalog

namespace Operation

variable {c c' : Catalog} {answers : List Number}

/-- **All that an operation does to types is to ask for one by name.** -/
lemma types_of_run {op : Operation} (h : op.run c = .ok (answers, c')) :
    (∃ name shape, c' = (c.intern name shape).2)
      ∨ c'.types = c.types ∧ c'.typeNames = c.typeNames := by
  cases op with
  | intern name shape => exact .inl ⟨name, shape, (congrArg Prod.snd (Except.ok.inj h)).symm⟩
  | basic name => exact .inl ⟨name, .basic, (congrArg Prod.snd (Except.ok.inj h)).symm⟩
  | pointerTo _ _ | referenceTo _ | listOf _ | structType _ =>
      obtain ⟨r, hr, -, rfl⟩ := exists_of_found h
      obtain ⟨_, -, ha⟩ := Catalog.exists_of_bind_eq_ok hr
      exact .inl ⟨_, _, (congrArg Prod.snd (Except.ok.inj ha)).symm⟩
  | mapBetween wrapper k v =>
      obtain ⟨r, hr, -, rfl⟩ := exists_of_found h
      obtain ⟨_, -, hkey⟩ := Catalog.exists_of_bind_eq_ok hr
      obtain ⟨_, -, hvalue⟩ := Catalog.exists_of_bind_eq_ok hkey
      exact .inl ⟨_, _, (congrArg Prod.snd (Except.ok.inj hvalue)).symm⟩
  | declareStruct name package =>
      obtain ⟨-, rfl⟩ := Prod.mk.inj (Except.ok.inj h)
      exact .inr ⟨rfl, rfl⟩
  | addField id name type tag =>
      obtain ⟨hadd, -⟩ := exists_of_changed h
      obtain ⟨_, -, hchange⟩ := Catalog.exists_of_bind_eq_ok hadd
      exact .inr (Catalog.types_of_changeStruct hchange)
  | addMethod id m =>
      exact .inr (Catalog.types_of_changeStruct (exists_of_changed h).1)
  | addFunction package f =>
      obtain ⟨-, rfl⟩ := Prod.mk.inj (Except.ok.inj h)
      exact .inr ⟨rfl, rfl⟩
  | markStringer id =>
      obtain ⟨-, rfl⟩ := Prod.mk.inj (Except.ok.inj h)
      rw [Catalog.markStringer]
      split <;> exact .inr ⟨rfl, rfl⟩
  | structAtPath path =>
      obtain ⟨-, rfl⟩ := Prod.mk.inj (Except.ok.inj h)
      exact .inr ⟨rfl, rfl⟩
  | nameAt id =>
      cases hname : c.nameAt id with
      | error d => exact absurd h (by simp [run, hname])
      | ok name =>
          rw [run, hname] at h
          obtain ⟨-, rfl⟩ := Prod.mk.inj (Except.ok.inj h)
          exact .inr ⟨rfl, rfl⟩

/-- The catalog after an operation.  An operation that fails leaves it as it is. -/
def apply (c : Catalog) (op : Operation) : Catalog :=
  match op.run c with
  | .ok (_, after) => after
  | .error _ => c

/-- What holds of types and names and is kept by asking for a type is kept by every operation. -/
lemma apply_keeps {I : Catalog → Prop} (intern : ∀ c name shape, I c → I (c.intern name shape).2)
    (congr : ∀ c c', I c → c'.types = c.types → c'.typeNames = c.typeNames → I c')
    (op : Operation) (hc : I c) : I (apply c op) := by
  rw [apply]
  split
  · rename_i hrun
    rcases types_of_run hrun with ⟨name, shape, rfl⟩ | ⟨htypes, hnames⟩
    · exact intern c name shape hc
    · exact congr c _ hc htypes hnames
  · exact hc

/-- Functions change only where one is added, and marks only where one is made, whether or not the
operation fails. -/
lemma tables_of_apply (c : Catalog) (op : Operation) :
    ((op.apply c).functions = match op with
      | addFunction package f => (c.addFunction package f).functions
      | _ => c.functions)
    ∧ (op.apply c).stringers = match op with
      | markStringer id => (c.markStringer id).stringers
      | _ => c.stringers := by
  rw [apply]
  split
  · rename_i hrun
    exact tables_of_run op hrun
  · rename_i hrun
    -- adding a function and marking a type never fail
    cases op with
    | addFunction _ _ | markStringer _ => exact absurd hrun (by simp [run])
    | _ => exact ⟨rfl, rfl⟩

end Operation

namespace Catalog

/-- The catalog after some operations. -/
def after (c : Catalog) (ops : List Operation) : Catalog := ops.foldl Operation.apply c

/-- The catalog that operations make from nothing. -/
def ofOperations (ops : List Operation) : Catalog := after .empty ops

lemma ofOperations_append (ops more : List Operation) :
    ofOperations (ops ++ more) = (ofOperations ops).after more := List.foldl_append

/-- What asking for a type keeps, all operations keep. -/
lemma after_keeps {I : Catalog → Prop} (intern : ∀ c name shape, I c → I (c.intern name shape).2)
    (congr : ∀ c c', I c → c'.types = c.types → c'.typeNames = c.typeNames → I c')
    (ops : List Operation) {c : Catalog} (hc : I c) : I (c.after ops) := by
  induction ops generalizing c with
  | nil => exact hc
  | cons op ops ih => exact ih (op.apply_keeps intern congr hc)

/-- **Names and numbers of types always match.** -/
theorem namesMatch_ofOperations (ops : List Operation) : (ofOperations ops).NamesMatch :=
  after_keeps (fun _ name shape h => h.intern name shape)
    (fun _ _ h types typeNames => h.congr types typeNames) ops namesMatch_empty

/-- **A type keeps its name and its shape.** -/
theorem type?_after {c : Catalog} {id : TypeId} {t : TypeInfo} (h : c.type? id = some t)
    (ops : List Operation) : (c.after ops).type? id = some t :=
  after_keeps (I := fun c => c.type? id = some t) (fun _ name shape h => type?_intern h name shape)
    (fun c c' h types _ => by rw [type?, types]; exact h) ops h

end Catalog

/-- The names of a built catalog match. -/
lemma Built.namesMatch {gave : List Number} {c : Catalog} (h : Built gave c) : c.NamesMatch := by
  induction h with
  | empty => exact Catalog.namesMatch_empty
  | step _ _ run ih =>
      rcases Operation.types_of_run run with ⟨name, shape, rfl⟩ | ⟨htypes, hnames⟩
      · exact ih.intern name shape
      · exact ih.congr htypes hnames

end FieldCopy
