import Mathlib
import FieldCopy.Generation

/-!
# What is recorded on the way

An attempt leaves two things behind: its outcome, and a journal.  This file settles what can be
in the journal of a *step*, that is, of reading lines, of choosing ends and of planning.

**Steps only warn.**  No step records an error diagnostic (`Attempt.OnlyWarns`).  A step that
fails says so in its outcome alone, and it is `Generation.orOmit` that turns the failure into one
error diagnostic (`recordOf_orOmit`).  Hence errors can be counted by counting failures.

**Main statements.**  `onlyWarns_ofLines`, `onlyWarns_prepare`, `onlyWarns_plan`, and
`recordOf_orOmit` for what comes of them.
-/

namespace FieldCopy

/-- The errors among diagnostics. -/
def Diagnostic.errors (ds : List Diagnostic) : List Diagnostic := ds.filter Diagnostic.isError

namespace Diagnostic

@[simp] lemma errors_append (a b : List Diagnostic) : errors (a ++ b) = errors a ++ errors b :=
  List.filter_append ..

lemma errors_eq_nil {ds : List Diagnostic} (h : ∀ d ∈ ds, d.severity = .warning) :
    errors ds = [] := by
  rw [errors, List.filter_eq_nil_iff]
  intro d hd
  simp [isError, h d hd]

end Diagnostic

/-! ## Journals -/

namespace Journaled

variable {α β : Type}

@[simp] lemma diagnostics_pure (a : α) : (Pure.pure a : Journaled α).diagnostics = [] := rfl

@[simp] lemma value_pure (a : α) : (Pure.pure a : Journaled α).value = a := rfl

@[simp] lemma diagnostics_bind (x : Journaled α) (f : α → Journaled β) :
    (x >>= f).diagnostics = x.diagnostics ++ (f x.value).diagnostics := by
  simp [diagnostics]

@[simp] lemma diagnostics_map (f : α → β) (x : Journaled α) :
    (f <$> x).diagnostics = x.diagnostics := by
  rw [map_eq_pure_bind, diagnostics_bind, diagnostics_pure, List.append_nil]

@[simp] lemma value_map (f : α → β) (x : Journaled α) : (f <$> x).value = f x.value := rfl

@[simp] lemma diagnostics_log (l : Level) (m : String) : (log l m).diagnostics = [] := rfl

@[simp] lemma diagnostics_warnAt (p : Position) (m : String) :
    (warnAt p m).diagnostics = [⟨.warning, p, m⟩] := rfl

@[simp] lemma diagnostics_errorAt (p : Position) (m : String) :
    (errorAt p m).diagnostics = [⟨.error, p, m⟩] := rfl

end Journaled

/-! ## Attempts -/

namespace Attempt

variable {α β : Type}

/-- Nothing worse than a warning is recorded. -/
def OnlyWarns (x : Attempt α) : Prop := ∀ d ∈ x.outcome.diagnostics, d.severity = .warning

lemma outcome_bind_ok {x : Attempt α} {a : α} (h : x.outcome.value = .ok a)
    (f : α → Attempt β) :
    (x >>= f).outcome.value = (f a).outcome.value
      ∧ (x >>= f).outcome.diagnostics = x.outcome.diagnostics ++ (f a).outcome.diagnostics := by
  simp only [outcome] at h ⊢
  rw [ExceptT.run_bind, Journaled.value_bind, Journaled.diagnostics_bind, h]
  exact ⟨rfl, rfl⟩

lemma outcome_bind_error {x : Attempt α} {e : Fault} (h : x.outcome.value = .error e)
    (f : α → Attempt β) :
    (x >>= f).outcome.value = .error e
      ∧ (x >>= f).outcome.diagnostics = x.outcome.diagnostics := by
  simp only [outcome] at h ⊢
  rw [ExceptT.run_bind, Journaled.value_bind, Journaled.diagnostics_bind, h]
  exact ⟨rfl, by simp⟩

/-- What an attempt gives is decided by what its parts give. -/
lemma value_bind_congr {x : Attempt α} {f g : α → Attempt β}
    (h : ∀ a, (f a).outcome.value = (g a).outcome.value) :
    (x >>= f).outcome.value = (x >>= g).outcome.value := by
  cases hx : x.outcome.value with
  | ok a => rw [(outcome_bind_ok hx f).1, (outcome_bind_ok hx g).1, h a]
  | error e => rw [(outcome_bind_error hx f).1, (outcome_bind_error hx g).1]

lemma value_map (x : Attempt α) (f : α → β) :
    (f <$> x).outcome.value = x.outcome.value.map f := by
  rw [← bind_pure_comp]
  cases hx : x.outcome.value with
  | ok a => rw [(outcome_bind_ok hx _).1]; rfl
  | error e => rw [(outcome_bind_error hx _).1]; rfl

/-- A look-up that finds nothing ends an attempt. -/
lemma known_error_bind (d : Dangling) (f : α → Attempt β) :
    Attempt.known (.error d) >>= f = MonadExcept.throw (.dangling d) := rfl

namespace OnlyWarns

lemma pure (a : α) : OnlyWarns (Pure.pure a : Attempt α) := by
  intro d hd
  exact absurd hd (by simp [outcome])

lemma throw (e : Fault) : OnlyWarns (MonadExcept.throw e : Attempt α) := by
  intro d hd
  exact absurd hd (by simp [outcome])

lemma bind {x : Attempt α} {f : α → Attempt β} (hx : OnlyWarns x) (hf : ∀ a, OnlyWarns (f a)) :
    OnlyWarns (x >>= f) := by
  intro d hd
  cases h : x.outcome.value with
  | ok a =>
      rw [(outcome_bind_ok h f).2, List.mem_append] at hd
      exact hd.elim (hx d) (hf a d)
  | error e =>
      rw [(outcome_bind_error h f).2] at hd
      exact hx d hd

lemma log (l : Level) (m : String) : OnlyWarns (Attempt.log l m) := by
  intro d hd
  exact absurd hd (by simp [Attempt.log, outcome])

lemma warnAt (p : Position) (m : String) : OnlyWarns (Attempt.warnAt p m) := by
  intro d hd
  have h : d = ⟨.warning, p, m⟩ := by simpa [Attempt.warnAt, outcome] using hd
  rw [h]

lemma known (x : Except Dangling α) : OnlyWarns (Attempt.known x) := by
  cases x with
  | ok a => exact pure a
  | error d => exact throw _

lemma mapM {f : α → Attempt β} (hf : ∀ a, OnlyWarns (f a)) :
    ∀ l : List α, OnlyWarns (l.mapM f)
  | [] => by rw [List.mapM_nil]; exact pure _
  | a :: l => by
      rw [List.mapM_cons]
      exact bind (hf a) fun _ => bind (mapM hf l) fun _ => pure _

lemma foldlM {f : β → α → Attempt β} (hf : ∀ b a, OnlyWarns (f b a)) :
    ∀ (l : List α) (b : β), OnlyWarns (l.foldlM f b)
  | [], b => by rw [List.foldlM_nil]; exact pure _
  | a :: l, b => by
      rw [List.foldlM_cons]
      exact bind (hf b a) fun b' => foldlM hf l b'

end OnlyWarns

end Attempt

/-! ## The steps -/

section

open Attempt

lemma onlyWarns_directive (valid : List String) (line : Annotation) :
    OnlyWarns (line.directive valid) := by
  unfold Annotation.directive
  simp only
  split
  · exact .throw _
  · split
    · exact .bind (.warnAt _ _) fun _ => .pure _
    · split
      · exact .throw _
      · split
        · exact .throw _
        · exact .bind (.log _ _) fun _ => .pure _

lemma onlyWarns_readLine (valid : List String) (r : Instructions.Reading) (line : Annotation) :
    OnlyWarns (Instructions.readLine valid r line) := by
  rw [Instructions.readLine]
  refine .bind (onlyWarns_directive valid line) fun found => ?_
  cases found with
  | none => exact .pure _
  | some d =>
      simp only
      split
      · exact .bind (.warnAt _ _) fun _ => .pure _
      · exact .pure _

/-- **Reading lines only warns.** -/
theorem onlyWarns_ofLines (valid : List String) (lines : List Annotation) :
    OnlyWarns (Instructions.ofLines valid lines) := by
  rw [Instructions.ofLines]
  refine .bind (.foldlM (onlyWarns_readLine valid) lines _) fun r => ?_
  split
  · split
    · exact .throw _
    · exact .pure _
  · exact .pure _

lemma onlyWarns_select (m : Declaration) (i : Instructions) :
    OnlyWarns (ExceptT.mk (pure (Endpoints.select m i)) : Attempt Endpoints) := by
  intro d hd
  exact absurd hd (by simp [outcome])

/-- **Preparing a method only warns.** -/
theorem onlyWarns_prepare (m : Declaration) : OnlyWarns (Generation.prepare m) := by
  rw [Generation.prepare]
  exact .bind (onlyWarns_ofLines _ _) fun i => .bind (onlyWarns_select m i) fun _ => .pure _

lemma onlyWarns_converterCall (k : Matching) (field source function : String) :
    OnlyWarns (k.converterCall field source function) := by
  rw [Matching.converterCall]
  split
  · exact .pure _
  · split
    · exact .bind (.known _) fun _ => .pure _
    · exact .bind (.warnAt _ _) fun _ => .pure _

lemma onlyWarns_assignMember (k : Matching) (field : FieldInfo) (m : Accessor) :
    OnlyWarns (k.assignMember field m) := by
  rw [Matching.assignMember]
  refine .bind (.known _) fun source => .bind (.known _) fun target => ?_
  split
  · split <;> exact .pure _
  · simp only
    split
    case' isTrue => refine .bind (.known _) ?_
    case' isFalse => refine .bind (.pure _) ?_
    all_goals
      intro stringer
      split
      · exact .pure _
      · split
        · exact .pure _
        · exact .bind (.warnAt _ _) fun _ => .pure _

lemma onlyWarns_assignTrusted (k : Matching) (field path : String) (c : Option Converter) :
    OnlyWarns (k.assignTrusted field path c) := by
  unfold Matching.assignTrusted
  refine .bind (.log _ _) fun _ => ?_
  cases c with
  | some c => exact onlyWarns_converterCall k field path c.function
  | none => exact .pure _

lemma onlyWarns_assignFound (k : Matching) (field : FieldInfo) (m : Accessor)
    (c : Option Converter) : OnlyWarns (k.assignFound field m c) := by
  cases c with
  | some c => exact onlyWarns_converterCall k field.name m.path c.function
  | none => exact onlyWarns_assignMember k field m

lemma onlyWarns_assignMatched (k : Matching) (field : FieldInfo) :
    OnlyWarns (k.assignMatched field) := by
  unfold Matching.assignMatched
  simp only
  split
  · refine .bind (.known _) fun found => ?_
    cases found with
    | some m => exact onlyWarns_assignFound k field m _
    | none => exact onlyWarns_assignTrusted k field.name _ _
  · split
    · exact .pure _
    · split
      · exact onlyWarns_assignFound k field _ _
      · exact onlyWarns_assignTrusted k field.name field.name _
      · exact .bind (.warnAt _ _) fun _ => .pure _

lemma onlyWarns_decide (k : Matching) (field : FieldInfo) : OnlyWarns (k.decide field) := by
  rw [Matching.decide]
  simp only
  split
  · exact .pure _
  · split
    · exact .pure _
    · split
      · exact .pure _
      · exact onlyWarns_assignMatched k field

lemma onlyWarns_resolve (k : Matching) (field : FieldInfo) : OnlyWarns (k.resolve field) := by
  rw [Matching.resolve]
  exact .bind (onlyWarns_decide k field) fun _ => .bind (.log _ _) fun _ => .pure _

lemma onlyWarns_hook (k : Planner) (kind : String) (f : Option FunctionRef) :
    OnlyWarns (k.hook kind f) := by
  cases f with
  | none => exact .pure _
  | some f =>
      simp only [Planner.hook]
      split
      · exact .bind (.warnAt _ _) fun _ => .pure _
      · split
        case' h_1 => refine .bind (.pure _) ?_
        case' h_2 => refine .bind (.known _) fun r => .bind (.pure _) ?_
        all_goals
          intro returnsNothing
          split
          · exact .throw _
          · exact .pure _

lemma onlyWarns_delegateFails (k : Planner) (f : FunctionRef) : OnlyWarns (k.delegateFails f) := by
  rw [Planner.delegateFails]
  split
  · exact .pure _
  · split
    · exact .pure _
    · exact .bind (.warnAt _ _) fun _ => .pure _

lemma onlyWarns_loop (k : Planner) (method : String) (i : Instructions) (source target : TypeId)
    (element : StructInfo) (anchor : Position) :
    OnlyWarns (k.loop method i source target element anchor) := by
  rw [Planner.loop]
  split
  · exact .throw _
  · exact .bind (onlyWarns_delegateFails k _) fun _ => .bind (.log _ _) fun _ =>
      .bind (.known _) fun _ => .bind (.known _) fun _ => .pure _

lemma onlyWarns_fields (k : Planner) (method : String) (i : Instructions)
    (source target : StructInfo) (anchor : Position) :
    OnlyWarns (k.fields method i source target anchor) := by
  rw [Planner.fields]
  exact .bind (.mapM (onlyWarns_resolve _) _) fun _ => .bind (.log _ _) fun _ => .pure _

lemma onlyWarns_noteWhole (k : Planner) (method : String) (source target : TypeId) :
    OnlyWarns (k.noteWhole method source target) := by
  rw [Planner.noteWhole]
  exact .bind (.known _) fun _ => .bind (.known _) fun _ => .log _ _

lemma onlyWarns_assignments (k : Planner) (method : String) (i : Instructions)
    (source target : TypeId) (anchor : Position) :
    OnlyWarns (k.assignments method i source target anchor) := by
  rw [Planner.assignments]
  refine .bind (.known _) fun s => .bind (.known _) fun t => ?_
  split
  · exact .bind (onlyWarns_loop k _ _ _ _ _ _) fun _ => .pure _
  · refine .bind (.known _) fun s => .bind (.known _) fun t => ?_
    split
    · exact onlyWarns_fields k _ _ _ _ _
    · exact .bind (onlyWarns_noteWhole k _ _ _) fun _ => .pure _

/-- **Planning only warns.** -/
theorem onlyWarns_plan (k : Planner) (method : String) (i : Instructions)
    (source target : TypeId) (anchor : Position) :
    OnlyWarns (k.plan method i source target anchor) := by
  rw [Planner.plan]
  exact .bind (onlyWarns_hook k _ _) fun _ => .bind (onlyWarns_hook k _ _) fun _ =>
    .bind (onlyWarns_assignments k _ _ _ _ _) fun _ => .pure _

end

/-! ## Failures become errors -/

namespace Generation

/-- The error that a fault of something with a name is recorded as. -/
def faultDiagnostic (name : String) (anchor : Position) (f : Fault) : Diagnostic :=
  ⟨.error, f.position?.getD anchor, s!"{name}: {f.detail}"⟩

@[simp] lemma diagnostics_recordFault (name : String) (anchor : Position) (f : Fault) :
    (recordFault name anchor f).diagnostics = [faultDiagnostic name anchor f] := by
  simp [recordFault, faultDiagnostic]

variable {α : Type}

lemma orOmit_ok {name : String} {anchor : Position} {x : Attempt α} {a : α}
    (h : x.outcome.value = .ok a) :
    (orOmit name anchor x).value = some a
      ∧ (orOmit name anchor x).diagnostics = x.outcome.diagnostics := by
  rw [orOmit, Journaled.value_bind, Journaled.diagnostics_bind, h]
  exact ⟨rfl, by simp⟩

lemma orOmit_error {name : String} {anchor : Position} {x : Attempt α} {f : Fault}
    (h : x.outcome.value = .error f) :
    (orOmit name anchor x).value = none
      ∧ (orOmit name anchor x).diagnostics
        = x.outcome.diagnostics ++ [faultDiagnostic name anchor f] := by
  rw [orOmit, Journaled.value_bind, Journaled.diagnostics_bind, h]
  exact ⟨rfl, by simp⟩

lemma isSome_orOmit (name : String) (anchor : Position) (x : Attempt α) :
    (orOmit name anchor x).value.isSome = x.outcome.value.isOk := by
  cases hx : x.outcome.value with
  | ok a => rw [(orOmit_ok hx).1]; rfl
  | error f => rw [(orOmit_error hx).1]; rfl

lemma outcome_of_orOmit {name : String} {anchor : Position} {x : Attempt α} {a : α}
    (h : (orOmit name anchor x).value = some a) : x.outcome.value = .ok a := by
  cases hx : x.outcome.value with
  | ok b =>
      rw [(orOmit_ok hx).1] at h
      rw [Option.some.inj h]
  | error f =>
      rw [(orOmit_error hx).1] at h
      exact absurd h (by simp)

/-- **Two steps in one attempt or in two**: what comes of them is the same. -/
lemma orOmit_bind {β : Type} (name : String) (anchor : Position) (x : Attempt α)
    (f : α → Attempt β) :
    (orOmit name anchor (x >>= f)).value
        = (orOmit name anchor x).value.bind (fun a => (orOmit name anchor (f a)).value)
      ∧ (orOmit name anchor (x >>= f)).diagnostics
        = (orOmit name anchor x).diagnostics
          ++ (orOmit name anchor x).value.elim []
            fun a => (orOmit name anchor (f a)).diagnostics := by
  cases hx : x.outcome.value with
  | error e =>
      have hxf := Attempt.outcome_bind_error hx f
      rw [(orOmit_error hxf.1).1, (orOmit_error hxf.1).2, (orOmit_error hx).1, (orOmit_error hx).2,
        hxf.2]
      exact ⟨rfl, (List.append_nil _).symm⟩
  | ok a =>
      have hxf := Attempt.outcome_bind_ok hx f
      rw [(orOmit_ok hx).1, (orOmit_ok hx).2]
      cases hy : (f a).outcome.value with
      | error e =>
          have herr := @orOmit_error β name anchor _ e (hxf.1.trans hy)
          have hstep := @orOmit_error β name anchor _ e hy
          rw [herr.1, herr.2, hxf.2]
          exact ⟨hstep.1.symm, by simp [hstep.2]⟩
      | ok b =>
          have hok := @orOmit_ok β name anchor _ b (hxf.1.trans hy)
          have hstep := @orOmit_ok β name anchor _ b hy
          rw [hok.1, hok.2, hxf.2]
          exact ⟨hstep.1.symm, by simp [hstep.2]⟩

lemma orOmit_map {β : Type} (name : String) (anchor : Position) (x : Attempt α) (f : α → β) :
    (orOmit name anchor (f <$> x)).value = (orOmit name anchor x).value.map f
      ∧ (orOmit name anchor (f <$> x)).diagnostics = (orOmit name anchor x).diagnostics := by
  obtain ⟨hvalue, hdiagnostics⟩ := orOmit_bind name anchor x fun a => pure (f a)
  rw [bind_pure_comp] at hvalue hdiagnostics
  rw [hvalue, hdiagnostics]
  cases (orOmit name anchor x).value with
  | none => exact ⟨rfl, List.append_nil _⟩
  | some a => exact ⟨rfl, List.append_nil _⟩

/-- These diagnostics are the record of an attempt: all that was recorded on the way, which is
warnings, and one error if the attempt failed. -/
structure RecordOf (x : Attempt α) (name : String) (anchor : Position) (ds : List Diagnostic) :
    Prop where
  warns : x.OnlyWarns
  complete : ds = x.outcome.diagnostics ++ Diagnostic.errors ds
  succeeded : ∀ a, x.outcome.value = .ok a → Diagnostic.errors ds = []
  failed : ∀ f, x.outcome.value = .error f →
    Diagnostic.errors ds = (recordFault name anchor f).diagnostics

/-- **One error for a failure, none for a success.** -/
theorem recordOf_orOmit {x : Attempt α} (h : x.OnlyWarns) (name : String) (anchor : Position) :
    RecordOf x name anchor (orOmit name anchor x).diagnostics := by
  have hwarnings : Diagnostic.errors x.outcome.diagnostics = [] := Diagnostic.errors_eq_nil h
  cases hx : x.outcome.value with
  | ok a =>
      rw [(orOmit_ok hx).2]
      refine ⟨h, by simp [hwarnings], fun _ _ => hwarnings, fun f hf => ?_⟩
      rw [hx] at hf
      exact absurd hf (by simp)
  | error f =>
      rw [(orOmit_error hx).2]
      have herrors : Diagnostic.errors (x.outcome.diagnostics ++ [faultDiagnostic name anchor f])
          = [faultDiagnostic name anchor f] := by
        rw [Diagnostic.errors_append, hwarnings]
        rfl
      refine ⟨h, by rw [herrors], fun a ha => ?_, fun g hg => ?_⟩
      · rw [hx] at ha
        exact absurd ha (by simp)
      · rw [hx] at hg
        rw [herrors, diagnostics_recordFault, Except.error.inj hg]

/-- An attempt has as many errors on its record as it failed, once or not at all. -/
lemma RecordOf.countP_isError {x : Attempt α} {name : String} {anchor : Position}
    {ds : List Diagnostic} (h : RecordOf x name anchor ds) :
    ds.countP Diagnostic.isError = if x.outcome.value.isOk then 0 else 1 := by
  rw [List.countP_eq_length_filter]
  change (Diagnostic.errors ds).length = _
  cases hx : x.outcome.value with
  | ok a => rw [h.succeeded a hx]; rfl
  | error f => rw [h.failed f hx, diagnostics_recordFault]; rfl

end Generation

end FieldCopy
