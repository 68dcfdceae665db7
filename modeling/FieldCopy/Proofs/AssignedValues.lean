import Mathlib
import FieldCopy.Proofs.Failures

/-!
# Values in a function

Most of a generated function is fixed: names, calls of hooks and delegates, and what creates the
destination.  What depends on types are the values that the destination gets, one for the whole of
it if nothing takes it apart, and otherwise one for each field (`Conversion.values`).

**Main statement.**  `Conversion.mem_partsAll_body`: all that stands in a function belongs to one of
these values or is fixed, that is, no cast, and no call of a method unless there is a loop.
-/

namespace FieldCopy

namespace Expression

/-- An expression converts between primitive types. -/
@[simp]
def IsCast : Expression → Prop
  | cast _ _ => True
  | _ => False

/-- An expression calls a method. -/
@[simp]
def CallsMethod : Expression → Prop
  | methodCall _ _ _ => True
  | _ => False

end Expression

namespace Statement

lemma mem_partsAll_flatMap {α : Type} {f : α → List Statement} {e : Expression} : ∀ {l : List α},
    e ∈ partsAll (l.flatMap f) ↔ ∃ a ∈ l, e ∈ partsAll (f a)
  | [] => by simp [partsAll]
  | a :: l => by
      rw [List.flatMap_cons, partsAll_append, List.mem_append, mem_partsAll_flatMap,
        List.exists_mem_cons_iff]

end Statement

namespace Conversion

open Expression Statement

variable (k : Catalog) (siblings : Keyed CallShape) (v : Conversion)

/-- The values that the destination or its fields get. -/
def values : List Expression :=
  (if v.plan.assignments.isEmpty then [v.whole k] else [])
    ++ v.plan.assignments.filterMap (v.fieldValue? k)

/-- An expression is no cast, and calls no method unless there is a loop. -/
@[mk_iff] structure Fixed (e : Expression) : Prop where
  noCast : ¬ e.IsCast
  noMethod : v.plan.hasLoop = false → ¬ e.CallsMethod

/-- An expression belongs to a value, or is fixed. -/
def Accounted (e : Expression) : Prop :=
  (∃ value ∈ v.values k, e ∈ value.parts) ∨ v.Fixed e

variable {k v} in
lemma mem_values_iff {e : Expression} :
    e ∈ v.values k ↔ (v.plan.assignments = [] ∧ e = v.whole k)
      ∨ ∃ a ∈ v.plan.assignments, v.fieldValue? k a = some e := by
  rw [values, List.mem_append, List.mem_filterMap]
  refine or_congr ?_ Iff.rfl
  split
  · rename_i h
    simp [List.isEmpty_iff.1 h]
  · rename_i h
    simpa using fun hnil => absurd (List.isEmpty_iff.2 hnil) h

/-! ## Parts of the function -/

lemma fixed_receiver : ∀ e ∈ partsAll v.receiverStatement, v.Fixed e := by
  rw [receiverStatement]
  cases v.endpoints.receiver <;>
    simp [partsAll, Statement.parts, Expression.self, Expression.parts, fixed_iff]

lemma fixed_start : ∀ e ∈ v.start.parts, v.Fixed e := by
  unfold start
  simp only
  split
  · rename_i h
    have hloop : v.plan.hasLoop = true := (Bool.and_eq_true_iff.1 h).1
    simp [invoke, sourceValue, Expression.parts, argumentsParts, fixed_iff, hloop]
  · simp [defaultOf, Expression.parts, argumentsParts, fixed_iff]

lemma accounted_opening : ∀ e ∈ partsAll (v.opening k), v.Accounted k e := by
  have hwhole : v.plan.assignments.isEmpty = true → ∀ e ∈ (v.whole k).parts, v.Accounted k e :=
    fun h e he => .inl ⟨_, mem_values_iff.2 (.inl ⟨List.isEmpty_iff.1 h, rfl⟩), he⟩
  have htarget : ∀ e ∈ (dereference v.targetValue).parts, v.Fixed e := by
    simp [targetValue, Expression.parts, fixed_iff]
  intro e he
  unfold opening at he
  simp only at he
  split at he
  · rename_i hempty _
    exact hwhole hempty e (by simpa [partsAll, Statement.parts] using he)
  · rename_i hempty _
    simp only [partsAll, Statement.parts, List.append_nil, List.mem_append] at he
    exact he.elim (fun he => .inr (htarget e he)) (hwhole hempty e)
  · exact .inr (v.fixed_start e (by simpa [partsAll, Statement.parts] using he))
  · exact absurd he List.not_mem_nil

lemma fixed_hook (h : Option Hook) : ∀ e ∈ partsAll (v.hook h), v.Fixed e := by
  cases h with
  | none => exact fun e he => absurd he List.not_mem_nil
  | some h =>
      rw [hook, targetArgument]
      cases v.instructions.style <;> cases h.fallible <;>
        simp [partsAll, Statement.parts, checked, targetValue, sourceValue, Expression.parts,
          argumentsParts, fixed_iff]

lemma fixed_ending : ∀ e ∈ partsAll v.ending, v.Fixed e := by
  rw [ending]
  cases v.instructions.style <;> cases v.fallible <;>
    simp [partsAll, Statement.parts, targetValue, Expression.parts, argumentsParts, fixed_iff]

lemma not_isCast_delegate (call : Option CallShape) (function element : String) (fallible : Bool) :
    ∀ e ∈ partsAll (v.delegate call function element fallible), ¬ e.IsCast := by
  match call with
  | none | some ⟨.result, _, none⟩ | some ⟨.result, _, some _⟩
  | some ⟨.argument, _, some .source⟩ | some ⟨.argument, _, some .target⟩
  | some ⟨.argument, true, none⟩ | some ⟨.argument, false, none⟩ =>
      cases fallible <;>
        simp [delegate, partsAll, Statement.parts, checked, invoke, defaultOf, targetValue,
          Expression.parts, argumentsParts]

lemma accounted_assignment {a : Assignment} (ha : a ∈ v.plan.assignments) :
    ∀ e ∈ partsAll (v.assignment k siblings a), v.Accounted k e := by
  have hfield : ∀ value, v.fieldValue? k a = some value →
      ∀ e ∈ partsAll [.assign (.member v.target a.target) value], v.Accounted k e := by
    intro value hvalue e he
    simp only [partsAll, Statement.parts, Expression.parts, List.append_nil, List.singleton_append,
      List.mem_cons] at he
    rcases he with rfl | he
    · exact .inr (by simp [fixed_iff])
    · exact .inl ⟨value, mem_values_iff.2 (.inr ⟨a, ha, hvalue⟩), he⟩
  cases a with
  | skip field reason => exact fun e he => absurd he List.not_mem_nil
  | delegateLoop target source element function fallible =>
      have hloop : v.plan.hasLoop = true := List.any_eq_true.2 ⟨_, ha, rfl⟩
      refine fun e he => .inr ⟨?_, fun hnone => by simp [hloop] at hnone⟩
      simp only [assignment, partsAll_append, List.mem_append] at he
      rcases he with he | he
      · revert he
        cases v.instructions.style <;>
          simp +contextual [partsAll, Statement.parts, targetValue, invoke, Expression.parts,
            argumentsParts, or_imp]
      · simp only [partsAll, Statement.parts, List.append_nil, List.mem_append] at he
        rcases he with he | he
        · revert e
          simp [sourceValue, invoke, Expression.parts, argumentsParts]
        · exact v.not_isCast_delegate _ _ _ _ e he
  | copy _ _ | cast _ _ _ | getter _ _ | stringer _ _ | converter _ _ _ _ _ | method _ _ _
  | literal _ _ => exact hfield _ rfl

variable {k v} in
/-- An assignment with a value is one statement, which gives the value to a member of the
destination. -/
lemma assignment_eq_assign {a : Assignment} {value : Expression}
    (h : v.fieldValue? k a = some value) :
    v.assignment k siblings a = [.assign (.member v.target a.target) value] := by
  cases a with
  | skip _ _ | delegateLoop _ _ _ _ _ => exact absurd h (by simp [fieldValue?])
  | copy _ _ | cast _ _ _ | getter _ _ | stringer _ _ | converter _ _ _ _ _ | method _ _ _
  | literal _ _ =>
      obtain rfl := Option.some.inj h
      rfl

/-- **All that stands in a function belongs to a value or is fixed.** -/
theorem mem_partsAll_body {e : Expression} (he : e ∈ partsAll (v.code k siblings).body) :
    v.Accounted k e := by
  simp only [code, body, partsAll_append, List.mem_append, mem_partsAll_flatMap] at he
  rcases he with ((((he | he) | he) | ⟨a, ha, he⟩) | he) | he
  · exact .inr (v.fixed_receiver e he)
  · exact v.accounted_opening k e he
  · exact .inr (v.fixed_hook _ e he)
  · exact v.accounted_assignment k siblings ha e he
  · exact .inr (v.fixed_hook _ e he)
  · exact .inr (v.fixed_ending e he)

/-- Values stand in the function. -/
theorem parts_subset_body {value : Expression} (hvalue : value ∈ v.values k) :
    ∀ e ∈ value.parts, e ∈ partsAll (v.code k siblings).body := by
  intro e he
  simp only [code, body, partsAll_append, List.mem_append, mem_partsAll_flatMap]
  rcases mem_values_iff.1 hvalue with ⟨hnil, rfl⟩ | ⟨a, ha, hvalue⟩
  · refine .inl (.inl (.inl (.inl (.inr ?_))))
    rw [opening, hnil]
    cases v.instructions.style <;> simp [partsAll, Statement.parts, he]
  · refine .inl (.inl (.inr ⟨a, ha, ?_⟩))
    rw [assignment_eq_assign siblings hvalue]
    simp [partsAll, Statement.parts, he]

end Conversion

end FieldCopy
