import Mathlib
import FieldCopy.Proofs.Catalog.Declaring
import FieldCopy.Proofs.Catalog.Interning
import FieldCopy.Proofs.Tables

/-!
# Numbers that stand for something

A catalog is full of numbers of types and structures.  Asking for a type and marking one store a
number without looking it up, so a catalog can be made that holds numbers of nothing, and pointers
that lead round in a circle.

**Sound catalogs.**  In a *sound* catalog every number that is stored stands for something, and a
type is made of types with smaller numbers (`Catalog.Sound`).

**Operations.**  What an operation adds to a catalog are the numbers that it is given and the one
that it gives (`Catalog.Extends`).  So it keeps a catalog sound if it is given numbers that stand
for something (`Catalog.Extends.sound`).
-/

namespace FieldCopy

/-- The number of a type or of a structure. -/
inductive Number where
  | type (id : TypeId)
  | struct (id : StructId)
  deriving DecidableEq

namespace Shape

/-- The types that a shape is made of. -/
def parts : Shape → List TypeId
  | pointer e | slice e => [e]
  | map k v => [k, v]
  | basic | struct _ | interface | unknown => []

/-- The numbers in a shape. -/
def numbers (s : Shape) : List Number := s.parts.map .type ++ (s.struct?.map .struct).toList

lemma type_mem_numbers {s : Shape} {id : TypeId} : Number.type id ∈ s.numbers ↔ id ∈ s.parts := by
  cases s <;> simp [numbers, parts, struct?]

end Shape

/-- The numbers in what is known of a structure. -/
def StructInfo.numbers (s : StructInfo) : List Number :=
  s.fields.map (fun f => .type f.type) ++ s.methods.flatMap fun m => (m.result.map .type).toList

/-- The numbers in what is known of a function. -/
def FunctionInfo.numbers (f : FunctionInfo) : List Number :=
  f.parameters.map .type ++ (f.result.map .type).toList

/-! ## Sound catalogs -/

namespace Catalog

/-- A number stands for something. -/
def Knows (c : Catalog) : Number → Prop
  | .type id => id.index < c.types.size
  | .struct id => id.index < c.structs.size

/-- A number is stored somewhere. -/
inductive Stores (c : Catalog) : Number → Prop where
  | shape {id : TypeId} {t : TypeInfo} {n : Number} (known : c.type? id = some t)
      (stored : n ∈ t.shape.numbers) : Stores c n
  /-- In a field or a method. -/
  | member {id : StructId} {s : StructInfo} {n : Number} (known : c.struct? id = some s)
      (stored : n ∈ s.numbers) : Stores c n
  | function {path : String} {f : FunctionInfo} {n : Number}
      (known : c.functions.find? path = some f) (stored : n ∈ f.numbers) : Stores c n
  | stringer {id : TypeId} (stored : id ∈ c.stringers) : Stores c (.type id)
  | typeName {name : String} {id : TypeId} (stored : c.typeNamed? name = some id) :
      Stores c (.type id)
  | structPath {path : String} {id : StructId} (stored : c.structPaths.find? path = some id) :
      Stores c (.struct id)

/-- Every number that is stored stands for something, and types are made of earlier types. -/
structure Sound (c : Catalog) : Prop where
  stored : ∀ n, c.Stores n → c.Knows n
  smaller : ∀ id t, c.type? id = some t → ∀ p ∈ t.shape.parts, p.index < id.index

lemma sound_empty : Sound .empty := by
  refine ⟨fun n h => ?_, fun id t ht => absurd ht (by simp [type?, empty])⟩
  cases h with
  | shape known _ => exact absurd known (by simp [type?, empty])
  | member known _ => exact absurd known (by simp [struct?, empty])
  | function known _ => exact absurd known (by simp [empty])
  | stringer stored => exact absurd stored (by simp [empty])
  | typeName stored => exact absurd stored (by simp [typeNamed?, empty])
  | structPath stored => exact absurd stored (by simp [empty])

variable {c c' : Catalog}

lemma knows_type_iff {id : TypeId} : c.Knows (.type id) ↔ ∃ t, c.type? id = some t := by
  rw [Knows, type?, ← Option.isSome_iff_exists, isSome_getElem?]

lemma knows_struct_iff {id : StructId} : c.Knows (.struct id) ↔ ∃ s, c.struct? id = some s := by
  rw [Knows, struct?, ← Option.isSome_iff_exists, isSome_getElem?]

lemma Knows.typeAt {id : TypeId} (h : c.Knows (.type id)) :
    ∃ t, c.type? id = some t ∧ c.typeAt id = .ok t := by
  obtain ⟨t, ht⟩ := knows_type_iff.1 h
  exact ⟨t, ht, by rw [Catalog.typeAt, ht]⟩

lemma Knows.structAt {id : StructId} (h : c.Knows (.struct id)) :
    ∃ s, c.struct? id = some s ∧ c.structAt id = .ok s := by
  obtain ⟨s, hs⟩ := knows_struct_iff.1 h
  exact ⟨s, hs, by rw [Catalog.structAt, hs]⟩

/-! ## What is stored is known -/

section

variable (stored : ∀ n, c.Stores n → c.Knows n)
include stored

/-- What a type is made of is known. -/
lemma knows_part {id p : TypeId} {t : TypeInfo} (ht : c.type? id = some t)
    (hp : p ∈ t.shape.parts) : c.Knows (.type p) :=
  stored _ (.shape ht (Shape.type_mem_numbers.2 hp))

/-- The types of fields are known. -/
lemma knows_field {id : StructId} {s : StructInfo} (hs : c.struct? id = some s)
    {f : FieldInfo} (hf : f ∈ s.fields) : c.Knows (.type f.type) :=
  stored _ (.member hs (List.mem_append_left _ (List.mem_map_of_mem hf)))

/-- The results of methods are known. -/
lemma knows_methodResult {id : StructId} {s : StructInfo} (hs : c.struct? id = some s)
    {m : MethodInfo} (hm : m ∈ s.methods) {result : TypeId} (hresult : m.result = some result) :
    c.Knows (.type result) := by
  refine stored _ (.member hs (List.mem_append_right _ (List.mem_flatMap.2 ⟨m, hm, ?_⟩)))
  rw [hresult]
  exact List.mem_singleton_self _

/-- The types of the parameters and the result of a function that is found are known. -/
lemma knows_function {written : String} {f : FunctionInfo}
    (hf : c.function? written = some f) {n : Number} (hn : n ∈ f.numbers) : c.Knows n := by
  obtain ⟨path, -, hpath⟩ := List.exists_of_findSome?_eq_some hf
  exact stored n (.function hpath hn)

end

/-! ## Looking a catalog over -/

instance (c : Catalog) : (n : Number) → Decidable (c.Knows n)
  | .type id => inferInstanceAs (Decidable (id.index < c.types.size))
  | .struct id => inferInstanceAs (Decidable (id.index < c.structs.size))

/-- The numbers that are stored, one place after the other. -/
def storedNumbers (c : Catalog) : List Number :=
  c.types.toList.flatMap (fun t => t.shape.numbers) ++ c.structs.toList.flatMap StructInfo.numbers
    ++ c.functions.entries.flatMap (fun e => e.2.numbers) ++ c.stringers.map .type
    ++ c.typeNames.entries.map (fun e => .type e.2)
    ++ c.structPaths.entries.map (fun e => .struct e.2)

lemma Stores.mem_storedNumbers {n : Number} (h : c.Stores n) : n ∈ c.storedNumbers := by
  simp only [storedNumbers, List.mem_append, List.mem_flatMap, List.mem_map]
  cases h with
  | shape known stored =>
      exact .inl (.inl (.inl (.inl (.inl ⟨_, (Array.mem_of_getElem? known).val, stored⟩))))
  | member known stored =>
      exact .inl (.inl (.inl (.inl (.inr ⟨_, (Array.mem_of_getElem? known).val, stored⟩))))
  | function known stored =>
      have hentry := (Keyed.look_eq_some_iff c.functions.ordered).1 known
      exact .inl (.inl (.inl (.inr ⟨_, hentry, stored⟩)))
  | stringer stored => exact .inl (.inl (.inr ⟨_, stored, rfl⟩))
  | typeName stored =>
      have hentry := (Keyed.look_eq_some_iff c.typeNames.ordered).1 stored
      exact .inl (.inr ⟨_, hentry, rfl⟩)
  | structPath stored =>
      have hentry := (Keyed.look_eq_some_iff c.structPaths.ordered).1 stored
      exact .inr ⟨_, hentry, rfl⟩

/-- A catalog is sound if that is found on looking it over. -/
lemma sound_of_storedNumbers (hstored : ∀ n ∈ c.storedNumbers, c.Knows n)
    (hsmaller : ∀ t ∈ c.types.toList.zipIdx, ∀ p ∈ t.1.shape.parts, p.index < t.2) : c.Sound := by
  refine ⟨fun n hn => hstored n hn.mem_storedNumbers, fun id t ht => ?_⟩
  refine hsmaller (t, id.index) ?_
  rw [List.mem_zipIdx_iff_getElem?, Array.getElem?_toList]
  exact ht

/-! ## What operations add -/

/-- A catalog has become another, given some numbers and giving others; no more are stored.  What
is left alone stores what it stored. -/
structure Extends (c c' : Catalog) (given answers : List Number) : Prop where
  knows : ∀ n, c.Knows n → c'.Knows n := by
    exact fun n hn => match n with | .type _ => hn | .struct _ => hn
  answered : ∀ n ∈ answers, c.Stores n ∨ c'.Knows n := by
    exact fun _ hn => absurd hn List.not_mem_nil
  shapes : ∀ id t, c'.type? id = some t →
      c.type? id = some t ∨ id.index = c.types.size ∧ ∀ n ∈ t.shape.numbers, n ∈ given := by
    exact fun _ _ ht => .inl ht
  members : ∀ id s, c'.struct? id = some s → ∀ n ∈ s.numbers, c.Stores n ∨ n ∈ given := by
    exact fun _ _ hs _ hn => .inl (.member hs hn)
  functions : ∀ path f, c'.functions.find? path = some f →
      ∀ n ∈ f.numbers, c.Stores n ∨ n ∈ given := by
    exact fun _ _ hf _ hn => .inl (.function hf hn)
  stringers : ∀ id ∈ c'.stringers, c.Stores (.type id) ∨ .type id ∈ given := by
    exact fun _ hid => .inl (.stringer hid)
  typeNames : ∀ name id, c'.typeNamed? name = some id →
      c.Stores (.type id) ∨ .type id ∈ answers := by
    exact fun _ _ hid => .inl (.typeName hid)
  structPaths : ∀ path id, c'.structPaths.find? path = some id →
      c.Stores (.struct id) ∨ .struct id ∈ answers := by
    exact fun _ _ hid => .inl (.structPath hid)

namespace Extends

variable {given answers : List Number}

lemma stores (h : Extends c c' given answers) {n : Number} (hn : c'.Stores n) :
    c.Stores n ∨ n ∈ given ∨ n ∈ answers := by
  cases hn with
  | shape known stored =>
      rcases h.shapes _ _ known with known | ⟨-, hgiven⟩
      · exact .inl (.shape known stored)
      · exact .inr (.inl (hgiven n stored))
  | member known stored => exact (h.members _ _ known n stored).imp id .inl
  | function known stored => exact (h.functions _ _ known n stored).imp id .inl
  | stringer stored => exact (h.stringers _ stored).imp id .inl
  | typeName stored => exact (h.typeNames _ _ stored).imp id .inr
  | structPath stored => exact (h.structPaths _ _ stored).imp id .inr

lemma knows_answer (h : Extends c c' given answers) (hc : c.Sound) {n : Number}
    (hn : n ∈ answers) : c'.Knows n :=
  (h.answered n hn).elim (fun hs => h.knows n (hc.stored n hs)) id

/-- **A sound catalog stays sound if it is given numbers that stand for something.** -/
theorem sound (h : Extends c c' given answers) (hc : c.Sound) (hgiven : ∀ n ∈ given, c.Knows n) :
    c'.Sound := by
  refine ⟨fun n hn => ?_, fun id t ht p hp => ?_⟩
  · rcases h.stores hn with hs | hg | ha
    · exact h.knows n (hc.stored n hs)
    · exact h.knows n (hgiven n hg)
    · exact h.knows_answer hc ha
  · rcases h.shapes id t ht with ht | ⟨hid, hnumbers⟩
    · exact hc.smaller id t ht p hp
    · rw [hid]
      exact hgiven _ (hnumbers _ (Shape.type_mem_numbers.2 hp))

/-- Nothing is added. -/
lemma refl (h : ∀ n ∈ answers, c.Stores n) : Extends c c given answers where
  answered n hn := .inl (h n hn)

lemma of_intern (name : String) (shape : Shape) :
    Extends c (c.intern name shape).2 shape.numbers [.type (c.intern name shape).1] := by
  cases hname : c.typeNamed? name with
  | some id =>
      rw [intern, hname]
      exact refl fun n hn => List.mem_singleton.1 hn ▸ .typeName hname
  | none =>
      have htype := type?_intern_of_none hname shape
      have hnamed := typeNamed?_intern_of_none hname shape
      rw [intern, hname] at htype hnamed ⊢
      refine { knows := ?_, answered := ?_, shapes := ?_, typeNames := ?_ }
      · intro n hn
        cases n with
        | type id =>
            rw [Knows] at hn
            rw [Knows, Array.size_push]
            omega
        | struct id => exact hn
      · intro n hn
        rw [List.mem_singleton.1 hn]
        exact .inr (knows_type_iff.2 ⟨_, (htype _).trans (if_pos rfl)⟩)
      · intro id t ht
        rw [htype] at ht
        split at ht
        · rename_i heq
          obtain rfl := Option.some.inj ht
          exact .inr ⟨heq, fun n hn => hn⟩
        · exact .inl ht
      · intro other id hid
        rw [hnamed] at hid
        split at hid
        · rw [← Option.some.inj hid]
          exact .inr (List.mem_singleton_self _)
        · exact .inl (.typeName hid)

lemma of_declareStruct (name package : String) :
    Extends c (c.declareStruct name package).2 [] [.struct (c.declareStruct name package).1] := by
  have hstruct : ∀ id, (c.declareStruct name package).2.struct? id
      = if id.index = c.structs.size then some ⟨name, package, [], []⟩ else c.struct? id := by
    intro id
    rw [declareStruct, struct?, struct?, Array.getElem?_push]
  refine { knows := ?_, answered := ?_, members := ?_, structPaths := ?_ }
  · intro n hn
    cases n with
    | type id => exact hn
    | struct id =>
        rw [Knows] at hn
        rw [Knows, declareStruct, Array.size_push]
        omega
  · intro n hn
    rw [List.mem_singleton.1 hn]
    exact .inr (knows_struct_iff.2 ⟨_, (hstruct _).trans (if_pos rfl)⟩)
  · intro id s hs n hn
    rw [hstruct] at hs
    split at hs
    · obtain rfl := Option.some.inj hs
      exact absurd hn List.not_mem_nil
    · exact .inl (.member hs hn)
  · intro path id hid
    rw [declareStruct, Keyed.find?_claim] at hid
    rcases Option.or_eq_some_iff.1 hid with hid | ⟨-, hid⟩
    · exact .inl (.structPath hid)
    · split at hid
      · rw [← Option.some.inj hid]
        exact .inr (List.mem_singleton_self _)
      · exact absurd hid (by simp)

/-- A type that is asked for under a name made from what was looked up. -/
lemma of_asked {α : Type} {x : Except Dangling α} {name : α → String} {shape : Shape}
    {r : TypeId × Catalog} (h : (do pure (c.intern (name (← x)) shape)) = Except.ok r) :
    Extends c r.2 shape.numbers [.type r.1] := by
  obtain ⟨a, -, ha⟩ := exists_of_bind_eq_ok h
  obtain rfl := Except.ok.inj ha
  exact of_intern (name a) shape

/-- What is added to a structure is added to the catalog. -/
lemma of_changeStruct {id : StructId} {f : StructInfo → StructInfo}
    (h : c.changeStruct id f = .ok c')
    (hnumbers : ∀ s, ∀ n ∈ (f s).numbers, n ∈ s.numbers ∨ n ∈ given) : Extends c c' given [] := by
  obtain ⟨s, hs, hc'⟩ := exists_of_bind_eq_ok h
  obtain rfl := Except.ok.inj hc'
  refine { knows := ?_, members := ?_ }
  · intro n hn
    cases n with
    | type id => exact hn
    | struct other =>
        rw [Knows] at hn ⊢
        rwa [Array.size_setIfInBounds]
  · intro other s' hs' n hn
    rw [struct?, Array.getElem?_setIfInBounds] at hs'
    split at hs'
    · split at hs'
      · obtain rfl := Option.some.inj hs'
        exact (hnumbers s n hn).imp_left (.member (struct?_of_structAt hs))
      · exact absurd hs' (by simp)
    · exact .inl (.member hs' hn)

lemma of_addField {id : StructId} {name : String} {type : TypeId} {tag : Option String}
    (h : c.addField id name type tag = .ok c') : Extends c c' [.struct id, .type type] [] := by
  obtain ⟨shape, -, hc'⟩ := exists_of_bind_eq_ok h
  refine of_changeStruct hc' fun s n hn => ?_
  simp only [StructInfo.numbers, List.map_append, List.mem_append] at hn ⊢
  rcases hn with (hn | hn) | hn
  · exact .inl (.inl hn)
  · rw [List.mem_singleton.1 hn]
    exact .inr (by simp)
  · exact .inl (.inr hn)

lemma of_addMethod {id : StructId} {m : MethodInfo} (h : c.addMethod id m = .ok c') :
    Extends c c' (.struct id :: (m.result.map .type).toList) [] := by
  refine of_changeStruct h fun s n hn => ?_
  simp only [StructInfo.numbers, List.flatMap_append, List.mem_append] at hn ⊢
  rcases hn with hn | hn | hn
  · exact .inl (.inl hn)
  · exact .inl (.inr hn)
  · rw [List.flatMap_singleton] at hn
    exact .inr (List.mem_cons_of_mem _ hn)

lemma of_addFunction (package : String) (f : FunctionInfo) :
    Extends c (c.addFunction package f) f.numbers [] := by
  refine { functions := fun path g hg n hn => ?_ }
  suffices h : c.functions.find? path = some g ∨ f = g by
    rcases h with h | rfl
    · exact .inl (.function h hn)
    · exact .inr hn
  have hqualified : ∀ path, (if package.isEmpty then c.functions
      else c.functions.insert (ModulePath.inside package f.name) f).find? path = some g →
      c.functions.find? path = some g ∨ f = g := by
    intro path hg
    split at hg
    · exact .inl hg
    · rw [Keyed.find?_insert] at hg
      split at hg
      · exact .inr (Option.some.inj hg)
      · exact .inl hg
  rw [addFunction, Keyed.find?_insertIfNew] at hg
  split at hg
  · rename_i heq
    rw [heq]
    cases hfree : Keyed.find? (if package.isEmpty then c.functions
        else c.functions.insert (ModulePath.inside package f.name) f) f.name with
    | some d =>
        rw [hfree] at hg
        exact hqualified f.name (hfree.trans hg)
    | none =>
        rw [hfree] at hg
        exact .inr (Option.some.inj hg)
  · exact hqualified path hg

lemma of_markStringer (id : TypeId) : Extends c (c.markStringer id) [.type id] [] := by
  rw [markStringer]
  split
  · exact refl (by simp)
  · refine { stringers := fun other hother => ?_ }
    rcases List.mem_append.1 hother with hother | hother
    · exact .inl (.stringer hother)
    · rw [List.mem_singleton.1 hother]
      exact .inr (List.mem_singleton_self _)

end Extends

end Catalog

end FieldCopy
