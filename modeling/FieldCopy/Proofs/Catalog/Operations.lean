import Mathlib
import FieldCopy.Proofs.Catalog.Numbers

/-!
# Catalogs that were built

An *operation* is one step in which a catalog is built.  It is given numbers and gives others.

**Built catalogs.**  A catalog is *built* by operations that are given what operations before them
gave (`Built`).

**Tables.**  Functions change only where one is added, and marks only where one is made
(`Operation.tables_of_run`).

**Main statements.**  A built catalog is sound, and what its operations gave stands for something
(`Built.sound`).  No operation fails that is given what others gave (`Built.goes_on`).
-/

namespace FieldCopy

namespace Catalog

/-! ## What is left alone -/

/-- Asking for a type leaves functions and marks alone. -/
lemma tables_of_intern (c : Catalog) (name : String) (shape : Shape) :
    (c.intern name shape).2.functions = c.functions
      ∧ (c.intern name shape).2.stringers = c.stringers := by
  rw [intern]
  split <;> exact ⟨rfl, rfl⟩

lemma tables_of_changeStruct {c c' : Catalog} {id : StructId} {f : StructInfo → StructInfo}
    (h : c.changeStruct id f = .ok c') :
    c'.functions = c.functions ∧ c'.stringers = c.stringers := by
  obtain ⟨s, -, hc'⟩ := exists_of_bind_eq_ok h
  obtain rfl := Except.ok.inj hc'
  exact ⟨rfl, rfl⟩

end Catalog

/-! ## Operations -/

/-- A step in which a catalog is built. -/
inductive Operation where
  | intern (name : String) (shape : Shape)
  | basic (name : String)
  | pointerTo (wrapper : String) (element : TypeId)
  | referenceTo (element : TypeId)
  | listOf (element : TypeId)
  | mapBetween (wrapper : String) (key value : TypeId)
  | declareStruct (name package : String)
  | structType (id : StructId)
  | addField (id : StructId) (name : String) (type : TypeId) (tag : Option String)
  | addMethod (id : StructId) (method : MethodInfo)
  | addFunction (package : String) (function : FunctionInfo)
  | markStringer (id : TypeId)
  | structAtPath (path : String)
  | nameAt (id : TypeId)

namespace Operation

/-- The numbers that an operation is given. -/
def given : Operation → List Number
  | intern _ shape => shape.numbers
  | basic _ | declareStruct _ _ | structAtPath _ => []
  | pointerTo _ e | referenceTo e | listOf e => [.type e]
  | mapBetween _ k v => [.type k, .type v]
  | structType id => [.struct id]
  | addField id _ type _ => [.struct id, .type type]
  | addMethod id m => .struct id :: (m.result.map .type).toList
  | addFunction _ f => f.numbers
  | markStringer id | nameAt id => [.type id]

/-- What an operation makes of a catalog, and the numbers that it gives. -/
def run (c : Catalog) : Operation → Except Dangling (List Number × Catalog)
  | intern name shape => .ok (found (c.intern name shape))
  | basic name => .ok (found (c.basic name))
  | pointerTo wrapper e => found <$> c.pointerTo wrapper e
  | referenceTo e => found <$> c.referenceTo e
  | listOf e => found <$> c.listOf e
  | mapBetween wrapper k v => found <$> c.mapBetween wrapper k v
  | declareStruct name package =>
      let (id, c) := c.declareStruct name package
      .ok ([.struct id], c)
  | structType id => found <$> c.structType id
  | addField id name type tag => changed <$> c.addField id name type tag
  | addMethod id m => changed <$> c.addMethod id m
  | addFunction package f => .ok (changed (c.addFunction package f))
  | markStringer id => .ok (changed (c.markStringer id))
  | structAtPath path => .ok ((c.structIdAtPath? path).toList.map .struct, c)
  | nameAt id => (fun _ => ([], c)) <$> c.nameAt id
where
  found (r : TypeId × Catalog) : List Number × Catalog := ([.type r.1], r.2)
  changed (c : Catalog) : List Number × Catalog := ([], c)

variable {c c' : Catalog} {answers : List Number}

lemma exists_of_found {x : Except Dangling (TypeId × Catalog)}
    (h : run.found <$> x = .ok (answers, c')) :
    ∃ r, x = .ok r ∧ answers = [.type r.1] ∧ c' = r.2 := by
  cases x with
  | error d => exact absurd h (by simp)
  | ok r =>
      obtain ⟨rfl, rfl⟩ := Prod.mk.inj (Except.ok.inj h)
      exact ⟨r, rfl, rfl, rfl⟩

lemma exists_of_changed {x : Except Dangling Catalog}
    (h : run.changed <$> x = .ok (answers, c')) : x = .ok c' ∧ answers = [] := by
  cases x with
  | error d => exact absurd h (by simp)
  | ok after =>
      obtain ⟨rfl, rfl⟩ := Prod.mk.inj (Except.ok.inj h)
      exact ⟨rfl, rfl⟩

/-- **An operation adds to a catalog what it is given and what it gives.** -/
theorem run_extends {op : Operation} (h : op.run c = .ok (answers, c')) :
    Catalog.Extends c c' op.given answers := by
  cases op with
  | intern name shape =>
      obtain ⟨rfl, rfl⟩ := Prod.mk.inj (Except.ok.inj h)
      exact .of_intern name shape
  | basic name =>
      obtain ⟨rfl, rfl⟩ := Prod.mk.inj (Except.ok.inj h)
      exact .of_intern name .basic
  | pointerTo _ e | referenceTo e | listOf e | structType e =>
      obtain ⟨r, hr, rfl, rfl⟩ := exists_of_found h
      exact .of_asked hr
  | mapBetween wrapper k v =>
      obtain ⟨r, hr, rfl, rfl⟩ := exists_of_found h
      obtain ⟨key, -, hkey⟩ := Catalog.exists_of_bind_eq_ok hr
      exact .of_asked hkey
  | declareStruct name package =>
      obtain ⟨rfl, rfl⟩ := Prod.mk.inj (Except.ok.inj h)
      exact .of_declareStruct name package
  | addField id name type tag =>
      obtain ⟨hadd, rfl⟩ := exists_of_changed h
      exact .of_addField hadd
  | addMethod id m =>
      obtain ⟨hadd, rfl⟩ := exists_of_changed h
      exact .of_addMethod hadd
  | addFunction package f =>
      obtain ⟨rfl, rfl⟩ := Prod.mk.inj (Except.ok.inj h)
      exact .of_addFunction package f
  | markStringer id =>
      obtain ⟨rfl, rfl⟩ := Prod.mk.inj (Except.ok.inj h)
      exact .of_markStringer id
  | structAtPath path =>
      obtain ⟨rfl, rfl⟩ := Prod.mk.inj (Except.ok.inj h)
      refine .refl fun n hn => ?_
      obtain ⟨id, hid, rfl⟩ := List.mem_map.1 hn
      obtain ⟨key, hkey⟩ := Catalog.exists_find?_of_lookPath (Option.mem_toList.1 hid)
      exact .structPath hkey
  | nameAt id =>
      cases hname : c.nameAt id with
      | error d => exact absurd h (by simp [run, hname])
      | ok name =>
          rw [run, hname] at h
          obtain ⟨rfl, rfl⟩ := Prod.mk.inj (Except.ok.inj h)
          exact .refl fun _ hn => absurd hn List.not_mem_nil

/-- **Functions change only where one is added, and marks only where one is made.** -/
lemma tables_of_run (op : Operation) : op.run c = .ok (answers, c') →
    (c'.functions = match op with
      | addFunction package f => (c.addFunction package f).functions
      | _ => c.functions)
    ∧ c'.stringers = match op with
      | markStringer id => (c.markStringer id).stringers
      | _ => c.stringers := by
  intro h
  cases op with
  | intern name shape | basic name =>
      obtain ⟨-, rfl⟩ := Prod.mk.inj (Except.ok.inj h)
      exact Catalog.tables_of_intern c name _
  | pointerTo _ _ | referenceTo _ | listOf _ | structType _ =>
      obtain ⟨r, hr, -, rfl⟩ := exists_of_found h
      obtain ⟨_, -, hasked⟩ := Catalog.exists_of_bind_eq_ok hr
      obtain rfl := Except.ok.inj hasked
      exact Catalog.tables_of_intern c _ _
  | mapBetween wrapper k v =>
      obtain ⟨r, hr, -, rfl⟩ := exists_of_found h
      obtain ⟨_, -, hkey⟩ := Catalog.exists_of_bind_eq_ok hr
      obtain ⟨_, -, hvalue⟩ := Catalog.exists_of_bind_eq_ok hkey
      obtain rfl := Except.ok.inj hvalue
      exact Catalog.tables_of_intern c _ _
  | addField id name type tag =>
      obtain ⟨_, -, hchange⟩ := Catalog.exists_of_bind_eq_ok (exists_of_changed h).1
      exact Catalog.tables_of_changeStruct hchange
  | addMethod id m => exact Catalog.tables_of_changeStruct (exists_of_changed h).1
  | declareStruct _ _ | addFunction _ _ | structAtPath _ =>
      obtain ⟨-, rfl⟩ := Prod.mk.inj (Except.ok.inj h)
      exact ⟨rfl, rfl⟩
  | markStringer id =>
      obtain ⟨-, rfl⟩ := Prod.mk.inj (Except.ok.inj h)
      refine ⟨?_, rfl⟩
      change (c.markStringer id).functions = c.functions
      rw [Catalog.markStringer]
      split <;> rfl
  | nameAt id =>
      cases hname : c.nameAt id with
      | error d => exact absurd h (by simp [run, hname])
      | ok name =>
          rw [run, hname] at h
          obtain ⟨-, rfl⟩ := Prod.mk.inj (Except.ok.inj h)
          exact ⟨rfl, rfl⟩

lemma nameAt_ok {id : TypeId} (h : c.Knows (.type id)) : ∃ name, c.nameAt id = .ok name := by
  obtain ⟨t, -, ht⟩ := h.typeAt
  exact ⟨t.name, by rw [Catalog.nameAt, ht]; rfl⟩

lemma fieldShape_ok (hc : c.Sound) {id : TypeId} (h : c.Knows (.type id)) :
    ∃ shape, c.fieldShape id = .ok shape := by
  obtain ⟨t, ht, htype⟩ := h.typeAt
  rw [Catalog.fieldShape, htype, Catalog.ok_bind]
  split
  · rename_i element hshape
    have helement : c.Knows (.type element) :=
      Catalog.knows_part hc.stored ht (by rw [hshape]; exact List.mem_singleton_self _)
    obtain ⟨e, -, he⟩ := helement.typeAt
    rw [he, Catalog.ok_bind]
    split <;> exact ⟨_, rfl⟩
  · exact ⟨_, rfl⟩
  · exact ⟨_, rfl⟩

/-- **An operation does not fail if it is given numbers that stand for something.** -/
theorem run_ok (hc : c.Sound) {op : Operation} (h : ∀ n ∈ op.given, c.Knows n) :
    ∃ answers c', op.run c = .ok (answers, c') := by
  cases op with
  | intern _ _ | basic _ | declareStruct _ _ | addFunction _ _ | markStringer _ | structAtPath _ =>
      exact ⟨_, _, rfl⟩
  | pointerTo _ e | referenceTo e | listOf e | nameAt e =>
      obtain ⟨name, hname⟩ := nameAt_ok (h (.type e) (List.mem_singleton_self _))
      simp only [run, Catalog.pointerTo, Catalog.referenceTo, Catalog.listOf, hname]
      exact ⟨_, _, rfl⟩
  | mapBetween wrapper k v =>
      obtain ⟨key, hkey⟩ := nameAt_ok (h (.type k) (by simp [given]))
      obtain ⟨value, hvalue⟩ := nameAt_ok (h (.type v) (by simp [given]))
      exact ⟨_, _, by rw [run, Catalog.mapBetween, hkey, hvalue]; rfl⟩
  | structType id =>
      obtain ⟨s, -, hs⟩ := (h (.struct id) (List.mem_singleton_self _)).structAt
      exact ⟨_, _, by rw [run, Catalog.structType, hs]; rfl⟩
  | addField id name type tag =>
      obtain ⟨s, -, hs⟩ := (h (.struct id) (by simp [given])).structAt
      obtain ⟨shape, hshape⟩ := fieldShape_ok hc (h (.type type) (by simp [given]))
      simp only [run, Catalog.addField, Catalog.changeStruct, hshape, hs]
      exact ⟨_, _, rfl⟩
  | addMethod id m =>
      obtain ⟨s, -, hs⟩ := (h (.struct id) List.mem_cons_self).structAt
      exact ⟨_, _, by rw [run, Catalog.addMethod, Catalog.changeStruct, hs]; rfl⟩

end Operation

/-! ## Building -/

/-- A catalog that was built by operations, and the numbers that they gave.  Each operation is given
only numbers that one before it gave. -/
inductive Built : List Number → Catalog → Prop where
  | empty : Built [] .empty
  | step {gave : List Number} {c : Catalog} {op : Operation} {answers : List Number} {c' : Catalog}
      (built : Built gave c) (given : ∀ n ∈ op.given, n ∈ gave)
      (run : op.run c = .ok (answers, c')) : Built (answers ++ gave) c'

namespace Built

variable {gave : List Number} {c : Catalog}

/-- **A built catalog is sound, and what was given stands for something.** -/
theorem sound (h : Built gave c) : c.Sound ∧ ∀ n ∈ gave, c.Knows n := by
  induction h with
  | empty => exact ⟨Catalog.sound_empty, fun _ hn => absurd hn List.not_mem_nil⟩
  | step _ given run ih =>
      have hextends := Operation.run_extends run
      have hgiven := fun n hn => ih.2 n (given n hn)
      refine ⟨hextends.sound ih.1 hgiven, fun n hn => ?_⟩
      rcases List.mem_append.1 hn with hn | hn
      · exact hextends.knows_answer ih.1 hn
      · exact hextends.knows n (ih.2 n hn)

/-- **Building goes on.**  No operation fails that is given what others gave. -/
theorem goes_on (h : Built gave c) (op : Operation) (given : ∀ n ∈ op.given, n ∈ gave) :
    ∃ answers c', op.run c = .ok (answers, c') ∧ Built (answers ++ gave) c' := by
  obtain ⟨answers, c', hrun⟩ := Operation.run_ok h.sound.1 fun n hn => h.sound.2 n (given n hn)
  exact ⟨answers, c', hrun, h.step given hrun⟩

end Built

end FieldCopy
