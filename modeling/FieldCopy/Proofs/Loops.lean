import Mathlib
import FieldCopy.Proofs.Recording

/-!
# Plans that are loops

A plan converts the elements of a slice through a delegate only if both ends are slices of
structures, and whether that loop can fail is what the planner knows of the delegate.

**Postconditions.**  `Attempt.Ensures x Q` says that whatever an attempt gives has the property `Q`.
The rules follow the ways in which attempts are put together, as those of `Attempt.OnlyWarns` do.

**Main statement.**  `ensures_plan`: a loop among the assignments of a plan comes from slices of
structures, and it can fail exactly if `Planner.delegateFlag` says so.
-/

namespace FieldCopy

namespace Attempt

variable {α β : Type}

/-- Whatever an attempt gives has a property. -/
def Ensures (x : Attempt α) (Q : α → Prop) : Prop := ∀ a, x.outcome.value = .ok a → Q a

namespace Ensures

lemma trivial (x : Attempt α) : Ensures x fun _ => True := fun _ _ => True.intro

lemma pure {Q : α → Prop} {a : α} (h : Q a) : Ensures (Pure.pure a : Attempt α) Q := by
  intro b hb
  have hab : a = b := Except.ok.inj hb
  exact hab ▸ h

lemma throw {Q : α → Prop} (e : Fault) : Ensures (MonadExcept.throw e : Attempt α) Q := by
  intro b hb
  exact absurd hb (by simp [outcome])

lemma bind {P : α → Prop} {Q : β → Prop} {x : Attempt α} {f : α → Attempt β}
    (hx : Ensures x P) (hf : ∀ a, P a → Ensures (f a) Q) : Ensures (x >>= f) Q := by
  intro b hb
  cases h : x.outcome.value with
  | ok a =>
      rw [(outcome_bind_ok h f).1] at hb
      exact hf a (hx a h) b hb
  | error e =>
      rw [(outcome_bind_error h f).1] at hb
      exact absurd hb (by simp)

/-- What comes before does not matter. -/
lemma after {Q : β → Prop} {x : Attempt α} {f : α → Attempt β} (hf : ∀ a, Ensures (f a) Q) :
    Ensures (x >>= f) Q :=
  bind (trivial x) fun a _ => hf a

lemma known {Q : α → Prop} {x : Except Dangling α} (h : ∀ a, x = .ok a → Q a) :
    Ensures (Attempt.known x) Q := by
  cases x with
  | ok a => exact pure (h a rfl)
  | error d => exact throw _

lemma mapM {Q : β → Prop} {f : α → Attempt β} (hf : ∀ a, Ensures (f a) Q) :
    ∀ l : List α, Ensures (l.mapM f) fun bs => ∀ b ∈ bs, Q b
  | [] => by
      rw [List.mapM_nil]
      exact pure fun b hb => absurd hb List.not_mem_nil
  | a :: l => by
      rw [List.mapM_cons]
      refine bind (hf a) fun b hb => bind (mapM hf l) fun bs hbs => pure fun d hd => ?_
      rcases List.mem_cons.1 hd with rfl | hd
      · exact hb
      · exact hbs d hd

end Ensures

end Attempt

open Attempt

/-! ## Fields are not loops -/

namespace Matching

variable (k : Matching)

lemma ensures_converterCall (field source function : String) :
    Ensures (k.converterCall field source function) fun a => a.isLoop = false := by
  rw [converterCall]
  split
  · exact .pure rfl
  · split
    · exact .after fun _ => .pure rfl
    · exact .after fun _ => .pure rfl

lemma ensures_assignMember (field : FieldInfo) (m : Accessor) :
    Ensures (k.assignMember field m) fun a => a.isLoop = false := by
  rw [assignMember]
  refine .after fun source => .after fun target => ?_
  split
  · split <;> exact .pure rfl
  · simp only
    split
    all_goals
      refine .after fun stringer => ?_
      split
      · exact .pure rfl
      · split
        · exact .pure rfl
        · exact .after fun _ => .pure rfl

lemma ensures_assignTrusted (field path : String) (c : Option Converter) :
    Ensures (k.assignTrusted field path c) fun a => a.isLoop = false := by
  unfold assignTrusted
  refine .after fun _ => ?_
  cases c with
  | some c => exact k.ensures_converterCall field path c.function
  | none => exact .pure rfl

lemma ensures_assignFound (field : FieldInfo) (m : Accessor) (c : Option Converter) :
    Ensures (k.assignFound field m c) fun a => a.isLoop = false := by
  cases c with
  | some c => exact k.ensures_converterCall field.name m.path c.function
  | none => exact k.ensures_assignMember field m

lemma ensures_assignMatched (field : FieldInfo) :
    Ensures (k.assignMatched field) fun a => a.isLoop = false := by
  unfold assignMatched
  simp only
  split
  · refine .after fun found => ?_
    cases found with
    | some m => exact k.ensures_assignFound field m _
    | none => exact k.ensures_assignTrusted field.name _ _
  · split
    · exact .pure rfl
    · split
      · exact k.ensures_assignFound field _ _
      · exact k.ensures_assignTrusted field.name field.name _
      · exact .after fun _ => .pure rfl

/-- **The assignment of a field is not a loop.** -/
lemma ensures_resolve (field : FieldInfo) :
    Ensures (k.resolve field) fun a => a.isLoop = false := by
  rw [resolve, decide]
  refine .bind (P := fun a => a.isLoop = false) ?_ fun a ha => .after fun _ => .pure ha
  simp only
  split
  · exact .pure rfl
  · split
    · exact .pure rfl
    · split
      · exact .pure rfl
      · exact k.ensures_assignMatched field

end Matching

/-! ## Loops -/

namespace Planner

variable (k : Planner)

/-- Whether a delegate fails, for all that the planner knows. -/
def delegateFlag (name : String) : Bool :=
  (k.siblings.find? name).getD ((k.catalog.function? name).any FunctionInfo.fallible)

lemma ensures_delegateFails (f : FunctionRef) :
    Ensures (k.delegateFails f) fun b => b = k.delegateFlag f.name := by
  rw [delegateFails, delegateFlag]
  cases k.siblings.find? f.name with
  | some b => exact .pure rfl
  | none =>
      cases k.catalog.function? f.name with
      | some info => exact .pure rfl
      | none => exact .after fun _ => .pure rfl

/-- An assignment that is no loop, or is one that can fail exactly if its delegate does. -/
def Sound (a : Assignment) : Prop :=
  ∀ target source element delegate fallible,
    a = .delegateLoop target source element delegate fallible →
      fallible = k.delegateFlag delegate

lemma ensures_loop (method : String) (i : Instructions) (source target : TypeId)
    (element : StructInfo) (anchor : Position) :
    Ensures (k.loop method i source target element anchor) k.Sound := by
  rw [loop]
  split
  · exact .throw _
  · rename_i f _
    refine .bind (k.ensures_delegateFails f) fun b hb => .after fun _ => .after fun _ =>
      .after fun _ => .pure ?_
    intro target source element delegate fallible h
    obtain ⟨-, -, -, rfl, rfl⟩ := Assignment.delegateLoop.inj h
    exact hb

lemma ensures_fields (method : String) (i : Instructions) (source target : StructInfo)
    (anchor : Position) :
    Ensures (k.fields method i source target anchor) fun as => ∀ a ∈ as, a.isLoop = false := by
  rw [fields]
  refine .bind (.mapM (Matching.ensures_resolve _) _) fun as has => .after fun _ => .pure has

/-- What a planner makes of two ends: fields without loops, or one loop between slices of
structures. -/
def Planned (source target : TypeId) (as : List Assignment) : Prop :=
  (∀ a ∈ as, a.isLoop = false)
    ∨ ∃ s t a, k.catalog.elementStructOf source = .ok (some s)
        ∧ k.catalog.elementStructOf target = .ok (some t) ∧ as = [a] ∧ k.Sound a

lemma ensures_assignments (method : String) (i : Instructions) (source target : TypeId)
    (anchor : Position) :
    Ensures (k.assignments method i source target anchor) (k.Planned source target) := by
  unfold assignments
  simp only
  refine .bind (.known fun s hs => hs) fun s hs => .bind (.known fun t ht => ht) fun t ht => ?_
  split
  · rename_i s' t'
    refine .bind (k.ensures_loop method i source target t' anchor) fun a ha => .pure ?_
    exact .inr ⟨s', t', a, hs, ht, rfl, ha⟩
  · refine .after fun s => .after fun t => ?_
    split
    · exact fun as has => .inl (k.ensures_fields method i _ _ anchor as has)
    · exact .after fun _ => .pure (.inl fun a ha => absurd ha List.not_mem_nil)

/-- **A loop comes from slices of structures, and it can fail if its delegate does.** -/
theorem ensures_plan (method : String) (i : Instructions) (source target : TypeId)
    (anchor : Position) :
    Ensures (k.plan method i source target anchor) fun plan =>
      k.Planned source target plan.assignments := by
  rw [plan]
  exact .after fun _ => .after fun _ =>
    .bind (k.ensures_assignments method i source target anchor) fun as has => .pure has

end Planner

end FieldCopy
