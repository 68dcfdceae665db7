import Mathlib
import FieldCopy.Proofs.Siblings
import FieldCopy.Proofs.Tables

/-!
# What a method takes from its siblings

A method that converts elements calls its delegate, and that is all it ever asks of the other
methods of a file.  Whether it can fail depends on whether the delegate can, and how it calls the
delegate depends on how the delegate is called.

**Main statements.**  A method is planned the same with two tables that answer alike for its
delegate (`Generation.Entry.planEntry_congr`), and its functions are the same
(`Generation.Entry.Settled.functions_congr`).
-/

namespace FieldCopy

open Attempt

/-! ## Planning -/

namespace Planner

variable {c : Catalog} {s t : Keyed Bool} {i : Instructions}

lemma loop_congr (h : ∀ f, i.delegate = some f → s.find? f.name = t.find? f.name)
    (method : String) (source target : TypeId) (element : StructInfo) (anchor : Position) :
    Planner.loop ⟨c, s⟩ method i source target element anchor
      = Planner.loop ⟨c, t⟩ method i source target element anchor := by
  rw [loop, loop]
  cases hf : i.delegate with
  | none => rfl
  | some f => simp only [delegateFails, h f hf]

/-- The ends of a conversion have elements that are structures. -/
def BothElements (c : Catalog) (source target : TypeId) : Prop :=
  (∃ a, c.elementStructOf source = .ok (some a)) ∧ ∃ b, c.elementStructOf target = .ok (some b)

lemma fields_eq (c : Catalog) (s t : Keyed Bool) :
    Planner.fields ⟨c, s⟩ = Planner.fields ⟨c, t⟩ := rfl

lemma noteWhole_eq (c : Catalog) (s t : Keyed Bool) :
    Planner.noteWhole ⟨c, s⟩ = Planner.noteWhole ⟨c, t⟩ := rfl

/-- Siblings matter to a conversion of elements only, which consists of one loop. -/
lemma assignments_form (c : Catalog) (method : String) (i : Instructions) (source target : TypeId)
    (anchor : Position) :
    (∀ s t, Planner.assignments ⟨c, s⟩ method i source target anchor
        = Planner.assignments ⟨c, t⟩ method i source target anchor)
      ∨ BothElements c source target ∧ ∃ element, ∀ s,
        Planner.assignments ⟨c, s⟩ method i source target anchor
          = (fun a => [a]) <$> Planner.loop ⟨c, s⟩ method i source target element anchor := by
  unfold assignments
  simp only
  cases hs : c.elementStructOf source with
  | error e => exact .inl fun s t => by rw [known_error_bind, known_error_bind]
  | ok a =>
      cases ht : c.elementStructOf target with
      | error e => exact .inl fun s t => by simp only [known_error_bind]
      | ok b =>
          simp only [known, pure_bind]
          cases a with
          | none => exact .inl fun s t => by rw [fields_eq c s t, noteWhole_eq c s t]
          | some a =>
              cases b with
              | none => exact .inl fun s t => by rw [fields_eq c s t, noteWhole_eq c s t]
              | some b => exact .inr ⟨⟨⟨a, hs⟩, b, ht⟩, b, fun _ => bind_pure_comp _ _⟩

lemma assignments_congr {source target : TypeId} (h : BothElements c source target →
      ∀ f, i.delegate = some f → s.find? f.name = t.find? f.name)
    (method : String) (anchor : Position) :
    Planner.assignments ⟨c, s⟩ method i source target anchor
      = Planner.assignments ⟨c, t⟩ method i source target anchor := by
  rcases assignments_form c method i source target anchor with hsame | ⟨hboth, element, hloop⟩
  · exact hsame s t
  · rw [hloop, hloop, loop_congr (h hboth)]

lemma plan_congr {source target : TypeId} (h : BothElements c source target →
      ∀ f, i.delegate = some f → s.find? f.name = t.find? f.name)
    (method : String) (anchor : Position) :
    Planner.plan ⟨c, s⟩ method i source target anchor
      = Planner.plan ⟨c, t⟩ method i source target anchor := by
  rw [plan, plan, assignments_congr h]
  rfl

end Planner

namespace Generation

variable {c : Catalog}

namespace Entry

/-- The delegate of a method that converts elements. -/
def delegate? (c : Catalog) (e : Entry) : Option String :=
  if isElementwise c e then
    e.prepared.value.bind fun p => p.instructions.delegate.map FunctionRef.name
  else none

lemma delegate?_unplanned (e : Entry) : e.unplanned.delegate? c = e.delegate? c := rfl

/-- The ends of a method with a delegate have elements. -/
lemma delegate?_eq {e : Entry} {p : Prepared} (hp : e.prepared.value = some p)
    (h : Planner.BothElements c p.endpoints.source.type p.endpoints.target.type) :
    e.delegate? c = p.instructions.delegate.map FunctionRef.name := by
  obtain ⟨⟨a, ha⟩, b, hb⟩ := h
  have helementwise : isElementwise c e = true := by
    simp [isElementwise, hp, Endpoints.areElementwise, Endpoints.hasElements, ha, hb]
  rw [delegate?, if_pos helementwise, hp, Option.bind_some]

variable {s t : Keyed Bool}

/-- **Planning a method asks for its delegate only.** -/
lemma planning_congr {e : Entry} {p : Prepared} (hp : e.prepared.value = some p)
    (h : ∀ name, e.delegate? c = some name → s.find? name = t.find? name) :
    planning c s e.declaration p = planning c t e.declaration p := by
  rw [planning, planning]
  refine Planner.plan_congr (fun hboth f hf => h f.name ?_) _ _
  rw [delegate?_eq hp hboth, hf]
  rfl

/-- An entry is planned the same with tables that answer alike for its delegate. -/
lemma planEntry_congr {e : Entry}
    (h : ∀ name, e.delegate? c = some name → s.find? name = t.find? name) :
    (planEntry c s e).1 = (planEntry c t e).1 := by
  rw [planEntry, planEntry]
  cases hp : e.prepared.value with
  | none => rfl
  | some p => simp only [planning_congr hp h]

variable {names : List String}

/-- What an entry leaves behind is under its name. -/
lemma agreeOff_planEntry_left (h : Keyed.AgreeOff names s t) {e : Entry}
    (he : e.declaration.name ∈ names) : Keyed.AgreeOff names (planEntry c s e).2 t := by
  rw [planEntry]
  cases hp : e.prepared.value with
  | none => exact h
  | some p =>
      simp only
      split
      · exact h.insert_left he _
      · exact h

/-- Tables that agree off some names still do after an entry was planned that has no delegate among
these names. -/
lemma agreeOff_planEntry (h : Keyed.AgreeOff names s t) {e : Entry}
    (he : ∀ name, e.delegate? c = some name → name ∉ names) :
    Keyed.AgreeOff names (planEntry c s e).2 (planEntry c t e).2 := by
  rw [planEntry, planEntry]
  cases hp : e.prepared.value with
  | none => exact h
  | some p =>
      simp only [planning_congr hp fun name hname => h name (he name hname)]
      split
      · exact h.insert _ _
      · exact h

end Entry

end Generation

/-! ## Code -/

namespace Planner

/-- The loops among assignments call this function. -/
def Loop (function : Option String) (as : List Assignment) : Prop :=
  ∀ target source element delegate fallible,
    .delegateLoop target source element delegate fallible ∈ as → function = some delegate

lemma loop_of_isLoop {as : List Assignment} (h : ∀ a ∈ as, a.isLoop = false)
    (function : Option String) : Loop function as :=
  fun _ _ _ _ _ hmem => absurd (h _ hmem) (by simp [Assignment.isLoop])

variable (k : Planner)

lemma ensures_loop_delegate (method : String) (i : Instructions) (source target : TypeId)
    (element : StructInfo) (anchor : Position) :
    Ensures (k.loop method i source target element anchor) fun a =>
      Loop (i.delegate.map FunctionRef.name) [a] := by
  rw [loop]
  split
  · exact .throw _
  · rename_i f hf
    refine .after fun b => .after fun _ => .after fun _ => .after fun _ => .pure ?_
    intro target source element delegate fallible h
    obtain ⟨-, -, -, rfl, -⟩ := Assignment.delegateLoop.inj (List.mem_singleton.1 h)
    rw [hf]
    rfl

/-- **A loop comes from ends with elements and calls the delegate.** -/
lemma ensures_plan_loop (method : String) (i : Instructions) (source target : TypeId)
    (anchor : Position) :
    Ensures (k.plan method i source target anchor) fun plan =>
      (∀ a ∈ plan.assignments, a.isLoop = false)
        ∨ BothElements k.catalog source target
          ∧ Loop (i.delegate.map FunctionRef.name) plan.assignments := by
  rw [plan]
  refine .after fun _ => .after fun _ => .bind (P := fun as => (∀ a ∈ as, a.isLoop = false)
      ∨ BothElements k.catalog source target ∧ Loop (i.delegate.map FunctionRef.name) as) ?_
    fun as has => .pure has
  unfold assignments
  simp only
  refine .bind (.known fun s hs => hs) fun s hs => .bind (.known fun t ht => ht) fun t ht => ?_
  split
  · rename_i s' t'
    refine .bind (k.ensures_loop_delegate method i source target t' anchor) fun a ha => .pure ?_
    exact .inr ⟨⟨⟨s', hs⟩, t', ht⟩, ha⟩
  · refine .after fun s => .after fun t => ?_
    split
    · exact fun as has => .inl (k.ensures_fields method i _ _ anchor as has)
    · exact .after fun _ => .pure (.inl fun a ha => absurd ha List.not_mem_nil)

end Planner

namespace Conversion

variable {k : Catalog} {calls calls' : Keyed CallShape} {v : Conversion}

/-- The code of a conversion depends on how its delegate is called. -/
lemma code_congr {function : Option String} (hloop : Planner.Loop function v.plan.assignments)
    (h : ∀ name, function = some name → calls.find? name = calls'.find? name) :
    v.code k calls = v.code k calls' := by
  have hassignments : v.plan.assignments.flatMap (v.assignment k calls)
      = v.plan.assignments.flatMap (v.assignment k calls') := by
    refine List.flatMap_congr fun a ha => ?_
    cases a with
    | delegateLoop target source element delegate fallible =>
        have hcall := h delegate (hloop _ _ _ _ _ ha)
        simp only [assignment, hcall]
    | _ => rfl
  rw [code, code, body, body, hassignments]

end Conversion

namespace Generation.Entry

variable {c : Catalog} {siblings : Keyed Bool} {calls calls' : Keyed CallShape} {e : Entry}

/-- The loops of a method call its delegate. -/
lemma Settled.loop (h : e.Settled c siblings) {v : Conversion} (hv : e.conversion? = some v) :
    Planner.Loop (e.delegate? c) v.plan.assignments := by
  obtain ⟨p, hp, hplan, -, -⟩ := conversion?_eq_some hv
  have hgives := h.planning_eq hp hplan
  rw [planning] at hgives
  rcases Planner.ensures_plan_loop _ _ _ _ _ _ _ hgives with hnone | ⟨hboth, hloop⟩
  · exact Planner.loop_of_isLoop hnone _
  · rwa [delegate?_eq hp hboth]

/-- **The functions of a method depend on how its delegate is called.** -/
lemma Settled.functions_congr (h : e.Settled c siblings)
    (hcalls : ∀ name, e.delegate? c = some name → calls.find? name = calls'.find? name) :
    e.functions c calls = e.functions c calls' := by
  rw [functions, functions]
  cases hv : e.conversion? with
  | none => rfl
  | some v => exact congrArg (fun f => [f]) (Conversion.code_congr (h.loop hv) hcalls)

end Generation.Entry

end FieldCopy
