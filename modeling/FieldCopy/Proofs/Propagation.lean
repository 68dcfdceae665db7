import Mathlib
import FieldCopy.Code.Conversion

/-!
# Where a function propagates failures

A failure leaves a generated function at an expression `propagate e`, which is written `e?`.  Where
such expressions stand is a question about the syntax of the code, before it becomes text.

**Parts.**  `Expression.parts` lists an expression with all that stands inside it, and
`Statement.parts` all expressions of a statement.

**Main statement.**  `Conversion.delegate_callsChecked`: the statements that convert an item of a
slice call the delegate, and propagate its failure exactly if it is said to be fallible.
-/

namespace FieldCopy

namespace Expression

/-- The function or method that an expression calls. -/
def callee? : Expression → Option String
  | call f _ => some f
  | methodCall _ m _ => some m
  | _ => none

mutual

/-- An expression and what stands inside it. -/
def parts : Expression → List Expression
  | verbatim t => [verbatim t]
  | member v p => [member v p]
  | reference mutable e => reference mutable e :: e.parts
  | dereference e => dereference e :: e.parts
  | call f arguments => call f arguments :: argumentsParts arguments
  | methodCall e m arguments => methodCall e m arguments :: (e.parts ++ argumentsParts arguments)
  | cast e t => cast e t :: e.parts
  | propagate e => propagate e :: e.parts

/-- What stands inside arguments. -/
def argumentsParts : List Expression → List Expression
  | [] => []
  | e :: rest => e.parts ++ argumentsParts rest

end

lemma self_mem_parts : ∀ e : Expression, e ∈ e.parts
  | verbatim _ | member _ _ | reference _ _ | dereference _ | call _ _ | methodCall _ _ _
  | cast _ _ | propagate _ => by simp [parts]

lemma mem_parts_checked (fallible : Bool) {e d : Expression} (h : d ∈ e.parts) :
    d ∈ (checked fallible e).parts := by
  cases fallible with
  | false => exact h
  | true => exact List.mem_cons_of_mem _ h

/-- An expression that propagates nothing does so only if it is checked. -/
lemma propagate_mem_checked (fallible : Bool) {e d : Expression}
    (h : propagate d ∉ e.parts) :
    propagate d ∈ (checked fallible e).parts ↔ fallible = true ∧ d = e := by
  cases fallible with
  | false => simpa [checked] using h
  | true => simp [checked, parts, h]

end Expression

namespace Statement

mutual

/-- The expressions of a statement, and what stands inside them. -/
def parts : Statement → List Expression
  | declare _ _ e => e.parts
  | assign t e => t.parts ++ e.parts
  | run e => e.parts
  | comment _ => []
  | loop _ items body => items.parts ++ partsAll body
  | give e => e.parts

/-- The expressions of a list of statements. -/
def partsAll : List Statement → List Expression
  | [] => []
  | s :: rest => s.parts ++ partsAll rest

end

/-- Statements call a function, and what they propagate is its failure if it is fallible, and
nothing otherwise. -/
def CallsChecked (function : String) (fallible : Bool) (ss : List Statement) : Prop :=
  ∃ e ∈ partsAll ss, e.callee? = some function
    ∧ ∀ d, Expression.propagate d ∈ partsAll ss ↔ fallible = true ∧ d = e

end Statement

namespace Conversion

open Expression Statement

variable (c : Conversion) {function : String} {fallible : Bool} {e : Expression}

lemma callsChecked_push (hcall : e.callee? = some function) (hnone : ∀ d, propagate d ∉ e.parts) :
    CallsChecked function fallible
      [.run (.methodCall c.targetValue "push" [checked fallible e])] := by
  refine ⟨e, ?_, hcall, fun d => ?_⟩
  · have hmem := mem_parts_checked fallible (self_mem_parts e)
    simp [partsAll, Statement.parts, Expression.parts, argumentsParts, hmem]
  · have hpropagate := propagate_mem_checked fallible (hnone d)
    simp [partsAll, Statement.parts, Expression.parts, argumentsParts, targetValue, hpropagate]

lemma callsChecked_run (element : String) (hcall : e.callee? = some function)
    (hnone : ∀ d, propagate d ∉ e.parts) :
    CallsChecked function fallible
      [.declare true "element" (defaultOf element), .run (checked fallible e),
        .run (.methodCall c.targetValue "push" [.verbatim "element"])] := by
  refine ⟨e, ?_, hcall, fun d => ?_⟩
  · have hmem := mem_parts_checked fallible (self_mem_parts e)
    simp [partsAll, Statement.parts, hmem]
  · have hpropagate := propagate_mem_checked fallible (hnone d)
    simp [partsAll, Statement.parts, Expression.parts, argumentsParts, defaultOf, targetValue,
      hpropagate]

/-- **The delegate is called, and only its failure is propagated.** -/
theorem delegate_callsChecked (shape : Option CallShape) (function element : String)
    (fallible : Bool) :
    CallsChecked function fallible (c.delegate shape function element fallible) := by
  match shape with
  | none => exact c.callsChecked_push rfl fun d => by simp [Expression.parts, argumentsParts]
  | some ⟨.result, _, none⟩ =>
      exact c.callsChecked_push rfl fun d => by simp [Expression.parts, argumentsParts]
  | some ⟨.result, _, some _⟩ =>
      exact c.callsChecked_push rfl fun d => by simp [invoke, Expression.parts, argumentsParts]
  | some ⟨.argument, _, some .source⟩ =>
      exact c.callsChecked_run element rfl fun d => by simp [Expression.parts, argumentsParts]
  | some ⟨.argument, _, some .target⟩ =>
      exact c.callsChecked_run element rfl fun d => by simp [Expression.parts, argumentsParts]
  | some ⟨.argument, true, none⟩ =>
      exact c.callsChecked_run element rfl fun d => by simp [Expression.parts, argumentsParts]
  | some ⟨.argument, false, none⟩ =>
      exact c.callsChecked_run element rfl fun d => by simp [Expression.parts, argumentsParts]

end Conversion

end FieldCopy
