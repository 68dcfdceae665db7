import Mathlib
import FieldCopy.Proofs.Accounting
import FieldCopy.Proofs.Loops
import FieldCopy.Proofs.Propagation

/-!
# Delegates among siblings

A conversion of slices may delegate to another method of the same file.  Whether that method can
fail is known only once it is planned, and its plan may come later in the file.

**Order.**  A method that is not element-wise is planned in front of all that are, so its entry is
among those that a loop's planner looks back on (`planOrder_before`).

**Memory.**  With distinct names nothing that is remembered is replaced: `find?_remember`.

**Main statement.**  `SourceUnit.loop_fallible_iff`.
-/

namespace FieldCopy

namespace Generation

variable {c : Catalog}

/-! ## Memory -/

namespace Entry

lemma find?_remember_of_ne {e : Entry} {name : String} (h : e.declaration.name ≠ name)
    (s : Keyed Bool) : (e.remember s).find? name = s.find? name := by
  rw [remember]
  cases e.plan? with
  | none => rfl
  | some plan => exact (Keyed.find?_insert _ _ _ _).trans (if_neg h.symm)

lemma find?_remember_of_notMem {name : String} :
    ∀ (es : List Entry) (s : Keyed Bool), name ∉ es.map (fun e => e.declaration.name) →
      (es.foldl remember s).find? name = s.find? name
  | [], _, _ => rfl
  | e :: es, s, h => by
      rw [List.map_cons, List.mem_cons, not_or] at h
      rw [List.foldl_cons, find?_remember_of_notMem es _ h.2, find?_remember_of_ne (Ne.symm h.1)]

/-- **What is remembered of an entry stays.** -/
lemma find?_remember {e : Entry} {plan : Plan} (hplan : e.plan? = some plan) :
    ∀ (es : List Entry) (s : Keyed Bool), (es.map fun e => e.declaration.name).Nodup → e ∈ es →
      (es.foldl remember s).find? e.declaration.name
        = some (plan.fallible || e.declaration.fallible)
  | d :: es, s, hnodup, he => by
      rw [List.map_cons, List.nodup_cons] at hnodup
      rw [List.foldl_cons]
      rcases List.mem_cons.1 he with rfl | he
      · rw [find?_remember_of_notMem es _ hnodup.1, remember, hplan]
        exact (Keyed.find?_insert _ _ _ _).trans (if_pos rfl)
      · exact find?_remember hplan es _ hnodup.2 he

end Entry

/-! ## Order -/

/-- **What is not element-wise is planned before what is.** -/
lemma planOrder_before {es : List Entry} {e d : Entry} (he : e ∈ es) (hd : d ∈ es)
    (helementwise : isElementwise c e = true) (hplain : isElementwise c d = false) :
    ∃ before after, planOrder c es = before ++ e :: after ∧ d ∈ before := by
  obtain ⟨front, back, h⟩ := List.append_of_mem (List.mem_filter.2 ⟨he, helementwise⟩)
  refine ⟨es.filter (fun e => !isElementwise c e) ++ front, back, ?_, ?_⟩
  · rw [planOrder, h, List.append_assoc]
  · exact List.mem_append_left _ (List.mem_filter.2 ⟨hd, by rw [hplain]; rfl⟩)

/-! ## Entries with a plan -/

/-- The plan of a settled entry is what planning gave. -/
lemma Entry.Settled.planning_eq {s : Keyed Bool} {e : Entry} (h : e.Settled c s) {p : Prepared}
    (hp : e.prepared.value = some p) {plan : Plan} (hplan : e.plan? = some plan) :
    (planning c s e.declaration p).outcome.value = .ok plan := by
  rw [plan?, h.planned, hp, Option.map_some, Option.bind_some] at hplan
  exact outcome_of_orOmit hplan

end Generation

namespace SourceUnit

open Generation

variable (unit : SourceUnit)

lemma planOrder_names (distinct : (unit.annotated.map fun m => m.2.name).Nodup) :
    ((planOrder unit.catalog unit.entries).map fun e => e.declaration.name).Nodup := by
  have hperm := (planOrder_perm unit.catalog unit.entries).map fun e => e.declaration.name
  rw [← unit.entries_declarations, List.map_map] at distinct
  exact hperm.nodup_iff.2 distinct

/-- The planner of an element-wise method knows all other siblings. -/
lemma siblings_find? (distinct : (unit.annotated.map fun m => m.2.name).Nodup) {e d : Entry}
    (he : e ∈ unit.entries) (hd : d ∈ unit.entries)
    (helementwise : isElementwise unit.catalog e = true)
    (hplain : isElementwise unit.catalog d = false) {plan : Plan} (hplan : d.plan? = some plan) :
    ∃ siblings : Keyed Bool, e.Settled unit.catalog siblings
      ∧ siblings.find? d.declaration.name = some (plan.fallible || d.declaration.fallible) := by
  obtain ⟨before, after, horder, hbefore⟩ := planOrder_before he hd helementwise hplain
  have hnodup := unit.planOrder_names distinct
  rw [horder, List.map_append, List.nodup_append] at hnodup
  refine ⟨_, unit.entries_inTurn.settled horder, ?_⟩
  exact Entry.find?_remember hplan before _ hnodup.1 hbefore

/-- A loop of a conversion is element-wise, and can fail if its planner takes its delegate to. -/
lemma loop_planned {e : Entry} {siblings : Keyed Bool} (hsettled : e.Settled unit.catalog siblings)
    {loop : Conversion} (hloop : e.conversion? = some loop)
    {target source element delegate : String} {fallible : Bool}
    (hassignment : .delegateLoop target source element delegate fallible ∈ loop.plan.assignments) :
    isElementwise unit.catalog e = true
      ∧ fallible = Planner.delegateFlag ⟨unit.catalog, siblings⟩ delegate
      ∧ loop.plan.assignments = [.delegateLoop target source element delegate fallible] := by
  obtain ⟨p, hp, hplan, -, -⟩ := Entry.conversion?_eq_some hloop
  have hgives := hsettled.planning_eq hp hplan
  rw [planning] at hgives
  rcases Planner.ensures_plan _ _ _ _ _ _ _ hgives with hnone | ⟨s, t, a, hs, ht, hlist, hsound⟩
  · exact absurd (hnone _ hassignment) (by simp [Assignment.isLoop])
  · rw [hlist, List.mem_singleton] at hassignment
    subst hassignment
    refine ⟨?_, hsound _ _ _ _ _ rfl, hlist⟩
    rw [isElementwise, hp, Option.any_some, Endpoints.areElementwise, Endpoints.hasElements,
      Endpoints.hasElements, hs, ht]
    rfl

end SourceUnit

namespace Conversion

/-- A function gives a result with a failure exactly if its conversion can fail. -/
lemma code_failure (k : Catalog) (calls : Keyed CallShape) (v : Conversion) :
    (v.code k calls).result.failure.isSome = v.fallible := by
  rw [code, resultType]
  cases v.fallible <;> rfl

/-- The loop of a plan that is a loop calls the delegate in the form that is known of it. -/
lemma exists_delegate_mem_body (k : Catalog) (calls : Keyed CallShape) {v : Conversion}
    {target source element delegate : String} {fallible : Bool}
    (h : v.plan.assignments = [.delegateLoop target source element delegate fallible]) :
    ∃ items type, .loop "item" items (v.delegate (calls.find? delegate) delegate type fallible)
      ∈ (v.code k calls).body := by
  refine ⟨v.sourceValue.invoke "iter",
    (Source.Ty.elementName? v.endpoints.target.written).getD element, ?_⟩
  simp [code, body, h, assignment]

/-- The loop of a plan that is a loop. -/
lemma exists_loop_mem_body (k : Catalog) (calls : Keyed CallShape) {v : Conversion}
    {target source element delegate : String} {fallible : Bool}
    (h : v.plan.assignments = [.delegateLoop target source element delegate fallible]) :
    ∃ items body, .loop "item" items body ∈ (v.code k calls).body
      ∧ Statement.CallsChecked delegate fallible body := by
  obtain ⟨items, type, hbody⟩ := exists_delegate_mem_body k calls h
  exact ⟨items, _, hbody, v.delegate_callsChecked _ _ _ _⟩

end Conversion

namespace SourceUnit

open Generation

/-- **A loop propagates the failures of its delegate exactly if there are any.**  The delegate is
another method of the unit, which is not element-wise itself; the order in which the two are
declared does not matter. -/
theorem loop_fallible_iff (unit : SourceUnit)
    (distinct : (unit.annotated.map fun m => m.2.name).Nodup)
    {loop sibling : Conversion} (hloop : loop ∈ unit.conversions)
    (hsibling : sibling ∈ unit.conversions)
    (hplain : sibling.endpoints.areElementwise unit.catalog = false)
    {target source element : String} {fallible : Bool}
    (hassignment : .delegateLoop target source element sibling.declaration.name fallible
      ∈ loop.plan.assignments) :
    let calls := callShapes unit.entries
    fallible = sibling.fallible
      ∧ fallible = (sibling.code unit.catalog calls).result.failure.isSome
      ∧ ∃ items body, .loop "item" items body ∈ (loop.code unit.catalog calls).body
        ∧ Statement.CallsChecked sibling.declaration.name fallible body := by
  obtain ⟨e, he, hloop⟩ := List.mem_filterMap.1 hloop
  obtain ⟨d, hd, hsibling⟩ := List.mem_filterMap.1 hsibling
  obtain ⟨p, hp, hplan, hdeclaration, hendpoints⟩ := Entry.conversion?_eq_some hsibling
  have hdplain : isElementwise unit.catalog d = false := by
    rw [isElementwise, hp, Option.any_some, ← hendpoints, hplain]
  obtain ⟨_, hsettled⟩ := unit.entry_settled he
  have helementwise := (unit.loop_planned hsettled hloop hassignment).1
  obtain ⟨siblings, hsettled, hfind⟩ :=
    unit.siblings_find? distinct he hd helementwise hdplain hplan
  obtain ⟨-, hflag, hlist⟩ := unit.loop_planned hsettled hloop hassignment
  have hfallible : fallible = sibling.fallible := by
    rw [hflag, Planner.delegateFlag, hdeclaration, hfind, Conversion.fallible, hdeclaration]
    rfl
  refine ⟨hfallible, ?_, Conversion.exists_loop_mem_body unit.catalog _ hlist⟩
  rw [Conversion.code_failure, hfallible]

/-- A list of pets is converted pet by pet, by a method that is declared later and can fail. -/
def pets : SourceUnit :=
  let position : Position := ⟨"pets.rs", 1, 1⟩
  let catalog : Catalog :=
    { Catalog.empty with
      types := #[⟨⟨0⟩, "Pet", .struct ⟨0⟩⟩, ⟨⟨1⟩, "Vec<Pet>", .slice ⟨0⟩⟩]
      structs := #[⟨"Pet", "", [], []⟩] }
  let method (name written : String) (type : TypeId) (lines : List Annotation) (fallible : Bool) :
      Declaration :=
    { name, position, lines, fallible
      docs := []
      parameters := [⟨"src", type, written⟩]
      result := some ⟨"dst", type, written⟩
      errorType := none }
  { file := "pets.rs"
    catalog
    interfaces := [⟨"Convert", position, [],
      [method "pets" "Vec<Pet>" ⟨1⟩ [⟨":struct_conv pet", position⟩] false,
        method "pet" "Pet" ⟨0⟩ [] true]⟩]
    uses := [] }

/-- The loop over the pets checks what their conversion gives, because it can fail. -/
theorem pets_loop_fallible :
    let calls := callShapes pets.entries
    ∃ loop ∈ pets.conversions, ∃ sibling ∈ pets.conversions,
      sibling.endpoints.areElementwise pets.catalog = false
        ∧ .delegateLoop "Vec<Pet>" "Vec<Pet>" "Pet" "pet" true ∈ loop.plan.assignments
        ∧ true = (sibling.code pets.catalog calls).result.failure.isSome
        ∧ ∃ items body, .loop "item" items body ∈ (loop.code pets.catalog calls).body
          ∧ Statement.CallsChecked "pet" true body := by
  intro calls
  have hlength : pets.conversions.length = 2 := rfl
  have hloop := List.get_mem pets.conversions ⟨0, by omega⟩
  have hsibling := List.get_mem pets.conversions ⟨1, by omega⟩
  have hplain : (pets.conversions.get ⟨1, by omega⟩).endpoints.areElementwise pets.catalog
      = false := rfl
  have hassignment : .delegateLoop "Vec<Pet>" "Vec<Pet>" "Pet"
      (pets.conversions.get ⟨1, by omega⟩).declaration.name true
        ∈ (pets.conversions.get ⟨0, by omega⟩).plan.assignments :=
    List.mem_singleton_self _
  have h := loop_fallible_iff pets (by decide) hloop hsibling hplain hassignment
  exact ⟨_, hloop, _, hsibling, hplain, hassignment, h.2⟩

end SourceUnit

end FieldCopy
