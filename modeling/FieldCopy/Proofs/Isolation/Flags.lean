import Mathlib
import FieldCopy.Proofs.Isolation.Delegates

/-!
# Plans but for the flags of their loops

The flag of a loop says whether the delegate can fail.  But for this flag, a plan does not depend on
what the siblings are like: not even on which there are, if it is left aside that a delegate that
cannot be found is warned about.

**Main statements.**  With two tables that both know the delegate, or both do not, a method gets the
same plan but for the flag, and the same diagnostics (`Generation.planEntry_similar`).  Whether it
gets a plan does not depend on the table (`Generation.contains_planEntry`).
-/

namespace FieldCopy

open Attempt

/-- The assignment as if no delegate could fail. -/
def Assignment.unflagged : Assignment → Assignment
  | delegateLoop target source element delegate _ =>
      delegateLoop target source element delegate false
  | a => a

/-- The plan as if no delegate could fail. -/
def Plan.unflagged (p : Plan) : Plan := { p with assignments := p.assignments.map .unflagged }

namespace Planner

variable {c : Catalog} {s t : Keyed Bool} {i : Instructions}

/-- A planner does not fail for want of a delegate. -/
lemma delegateFails_value (k : Planner) (f : FunctionRef) :
    ∃ b, (k.delegateFails f).outcome.value = .ok b := by
  rw [delegateFails]
  cases k.siblings.find? f.name with
  | some b => exact ⟨b, rfl⟩
  | none =>
      cases k.catalog.function? f.name with
      | some info => exact ⟨info.fallible, rfl⟩
      | none => exact ⟨false, rfl⟩

/-- What a loop is once its delegate is known, but for its flag. -/
def unflaggedLoop (c : Catalog) (f : FunctionRef) (method : String) (source target : TypeId)
    (element : StructInfo) : Attempt Assignment := do
  Attempt.log .debug s!"{method}: delegating elements to {f.name}"
  let targetType ← Attempt.known (c.typeAt target)
  let sourceType ← Attempt.known (c.typeAt source)
  pure (.delegateLoop targetType.name sourceType.name element.path f.name false)

variable (method : String) (source target : TypeId) (element : StructInfo) (anchor : Position)

lemma unflagged_loop (k : Planner) {f : FunctionRef} (hf : i.delegate = some f) :
    Assignment.unflagged <$> k.loop method i source target element anchor
      = k.delegateFails f >>= fun _ =>
          unflaggedLoop k.catalog f method source target element := by
  rw [loop, hf, unflaggedLoop]
  simp only [map_bind, map_pure, Assignment.unflagged]

lemma unflagged_loop_congr
    (h : ∀ f, i.delegate = some f → s.contains f.name = t.contains f.name) :
    Assignment.unflagged <$> Planner.loop ⟨c, s⟩ method i source target element anchor
      = Assignment.unflagged <$> Planner.loop ⟨c, t⟩ method i source target element anchor := by
  cases hf : i.delegate with
  | none => rw [loop, loop, hf]
  | some f =>
      have hf' := h f hf
      rw [unflagged_loop _ _ _ _ _ _ hf, unflagged_loop _ _ _ _ _ _ hf]
      simp only [Keyed.contains] at hf'
      simp only [delegateFails]
      cases hs : s.find? f.name <;> cases ht : t.find? f.name
      · rfl
      · exact absurd hf' (by simp [hs, ht])
      · exact absurd hf' (by simp [hs, ht])
      · rfl

lemma unflagged_loop_value (s t : Keyed Bool) :
    (Assignment.unflagged
        <$> Planner.loop ⟨c, s⟩ method i source target element anchor).outcome.value
      = (Assignment.unflagged
        <$> Planner.loop ⟨c, t⟩ method i source target element anchor).outcome.value := by
  cases hf : i.delegate with
  | none => rw [loop, loop, hf]
  | some f =>
      rw [unflagged_loop _ _ _ _ _ _ hf, unflagged_loop _ _ _ _ _ _ hf]
      obtain ⟨_, hs⟩ := delegateFails_value ⟨c, s⟩ f
      obtain ⟨_, ht⟩ := delegateFails_value ⟨c, t⟩ f
      rw [(outcome_bind_ok hs _).1, (outcome_bind_ok ht _).1]

/-- One assignment in a list, but for its flag. -/
lemma unflagged_single (x : Attempt Assignment) :
    List.map Assignment.unflagged <$> (fun a => [a]) <$> x
      = (fun a => [a]) <$> Assignment.unflagged <$> x := by
  simp only [Functor.map_map, List.map_cons, List.map_nil]

/-- A plan but for the flags of its loops. -/
lemma unflagged_plan (k : Planner) :
    Plan.unflagged <$> k.plan method i source target anchor
      = k.hook "preprocess" i.before >>= fun before => k.hook "postprocess" i.after >>= fun after =>
        (fun as => ⟨as, before, after⟩)
          <$> List.map Assignment.unflagged <$> k.assignments method i source target anchor := by
  rw [plan]
  simp only [map_bind, Plan.unflagged, Functor.map_map, bind_pure_comp]

/-- **But for its flag, a plan depends on whether the delegate is known.** -/
lemma unflagged_plan_congr (h : BothElements c source target →
      ∀ f, i.delegate = some f → s.contains f.name = t.contains f.name) :
    Plan.unflagged <$> Planner.plan ⟨c, s⟩ method i source target anchor
      = Plan.unflagged <$> Planner.plan ⟨c, t⟩ method i source target anchor := by
  have hassignments : List.map Assignment.unflagged
        <$> Planner.assignments ⟨c, s⟩ method i source target anchor
      = List.map Assignment.unflagged
        <$> Planner.assignments ⟨c, t⟩ method i source target anchor := by
    rcases assignments_form c method i source target anchor with hsame | ⟨hboth, element, hloop⟩
    · rw [hsame s t]
    · rw [hloop, hloop, unflagged_single, unflagged_single,
        unflagged_loop_congr _ _ _ _ _ (h hboth)]
  rw [unflagged_plan, unflagged_plan, hassignments]
  rfl

/-- **But for its flag, a plan is given or not whatever the siblings are.** -/
lemma unflagged_plan_value (s t : Keyed Bool) :
    (Plan.unflagged <$> Planner.plan ⟨c, s⟩ method i source target anchor).outcome.value
      = (Plan.unflagged <$> Planner.plan ⟨c, t⟩ method i source target anchor).outcome.value := by
  rw [unflagged_plan, unflagged_plan]
  refine value_bind_congr fun before => value_bind_congr fun after => ?_
  rcases assignments_form c method i source target anchor with hsame | ⟨-, element, hloop⟩
  · rw [hsame s t]
  · rw [hloop, hloop, unflagged_single, unflagged_single, value_map, value_map,
      unflagged_loop_value _ _ _ _ _ s t, ← value_map, ← value_map]

end Planner

namespace Generation

variable {c : Catalog} {s t : Keyed Bool} {e : Entry}

/-- Two entries are the same but for the flags in their plans and for what is in the log. -/
structure Entry.Similar (d e : Entry) : Prop where
  unplanned : d.unplanned = e.unplanned
  plan : d.plan?.map Plan.unflagged = e.plan?.map Plan.unflagged
  diagnostics : d.diagnostics = e.diagnostics

lemma Entry.Similar.refl (e : Entry) : e.Similar e := ⟨rfl, rfl, rfl⟩

/-- An entry planned by either of two attempts that give the same but for flags. -/
lemma Entry.similar_of_map_eq (e : Entry) {x y : Attempt Plan}
    (h : Plan.unflagged <$> x = Plan.unflagged <$> y) (name : String) (anchor : Position) :
    Entry.Similar { e with planned := some (orOmit name anchor x) }
      { e with planned := some (orOmit name anchor y) } := by
  obtain ⟨hxvalue, hxdiagnostics⟩ := orOmit_map name anchor x Plan.unflagged
  obtain ⟨hyvalue, hydiagnostics⟩ := orOmit_map name anchor y Plan.unflagged
  rw [h] at hxvalue hxdiagnostics
  refine ⟨rfl, hxvalue.symm.trans hyvalue, ?_⟩
  rw [diagnostics_of_planned_some rfl, diagnostics_of_planned_some rfl, ← hxdiagnostics,
    hydiagnostics]

/-- **A method gets the same plan but for its flag if both tables know its delegate, or neither
does.** -/
lemma planEntry_similar
    (h : ∀ name, e.delegate? c = some name → s.contains name = t.contains name) :
    (planEntry c s e).1.Similar (planEntry c t e).1 := by
  rw [planEntry, planEntry]
  cases hp : e.prepared.value with
  | none => exact .refl e
  | some p =>
      refine e.similar_of_map_eq ?_ _ _
      refine Planner.unflagged_plan_congr _ _ _ _ fun hboth f hf => h f.name ?_
      rw [Entry.delegate?_eq hp hboth, hf]
      rfl

/-- Whether planning an entry gives a plan. -/
def isPlannable (c : Catalog) (e : Entry) : Bool :=
  e.prepared.value.any fun p => (planning c .empty e.declaration p).outcome.value.isOk

lemma isOk_unflagged (x : Attempt Plan) :
    (Plan.unflagged <$> x).outcome.value.isOk = x.outcome.value.isOk := by
  rw [value_map]
  cases x.outcome.value <;> rfl

/-- Planning gives a plan with any siblings if it gives one with none. -/
lemma isOk_planning (s : Keyed Bool) (m : Declaration) (p : Prepared) :
    (planning c s m p).outcome.value.isOk = (planning c .empty m p).outcome.value.isOk := by
  rw [← isOk_unflagged, ← isOk_unflagged (planning c .empty m p)]
  exact congrArg Except.isOk (Planner.unflagged_plan_value _ _ _ _ s .empty)

/-- **Whether an entry gets a plan does not depend on its siblings.** -/
lemma contains_planEntry (s : Keyed Bool) (key : String) :
    (planEntry c s e).2.contains key
      = (s.contains key || (isPlannable c e && key == e.declaration.name)) := by
  rw [planEntry, isPlannable]
  cases hp : e.prepared.value with
  | none => simp
  | some p =>
      simp only [Option.any_some, ← isOk_planning s,
        ← isSome_orOmit e.declaration.name e.declaration.position]
      cases (orOmit e.declaration.name e.declaration.position
        (planning c s e.declaration p)).value with
      | none => simp
      | some plan =>
          simp only [Keyed.contains, Keyed.find?_insert]
          by_cases hkey : key = e.declaration.name <;> simp [hkey]

end Generation

end FieldCopy
