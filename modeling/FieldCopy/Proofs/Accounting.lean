import Mathlib
import FieldCopy.Proofs.CodeTexts
import FieldCopy.Proofs.PlanningOrder

/-!
# Nothing is lost on the way to a file

A method can fail at its own lines, at the choice of its ends and while it is planned, and the lines
of its interface can be at fault.  Whatever happens, a generated file accounts for it.

**One attempt.**  Preparing and planning stand apart in time, but what they leave behind is what
one attempt leaves behind that does both: `Generation.converting`, `Entry.Settled.eq_converting`.

**Early and late.**  The diagnostics of a method are added to the file in one of two places.
`diagnostics_perm` brings the two together: every method gives all of its diagnostics, once.

**Text.**  The text of a file is made of the functions of its entries, one for each plan
(`Entry.Writes`), in the order of the entries.

**Main statement.**  `SourceUnit.generate_accounts`.
-/

namespace FieldCopy

namespace Generation

/-- Prepares and plans a method in one go. -/
def converting (c : Catalog) (siblings : Keyed Bool) (m : Declaration) : Attempt Conversion := do
  let p ← prepare m
  Conversion.mk m p.instructions p.endpoints <$> planning c siblings m p

lemma onlyWarns_converting (c : Catalog) (siblings : Keyed Bool) (m : Declaration) :
    Attempt.OnlyWarns (converting c siblings m) := by
  simp only [converting, planning]
  refine .bind (onlyWarns_prepare m) fun p => ?_
  rw [← bind_pure_comp]
  exact .bind (onlyWarns_plan _ _ _ _ _ _) fun _ => .pure _

namespace Entry

/-- The functions that an entry adds to a file. -/
def functions (c : Catalog) (calls : Keyed CallShape) (e : Entry) : List FunctionCode :=
  e.conversion?.toList.map (Conversion.code c calls)

lemma conversion?_eq (e : Entry) :
    e.conversion? = e.prepared.value.bind fun p =>
      e.plan?.map (Conversion.mk e.declaration p.instructions p.endpoints) := by
  cases hp : e.prepared.value with
  | none => simp [conversion?, hp]
  | some p => cases hplan : e.plan? <;> simp [conversion?, hp, hplan]

/-- What is known of an entry that stands for a conversion. -/
lemma conversion?_eq_some {e : Entry} {v : Conversion} (h : e.conversion? = some v) :
    ∃ p, e.prepared.value = some p ∧ e.plan? = some v.plan ∧ v.declaration = e.declaration
      ∧ v.endpoints = p.endpoints := by
  rw [conversion?_eq] at h
  obtain ⟨p, hp, h⟩ := Option.bind_eq_some_iff.1 h
  obtain ⟨plan, hplan, rfl⟩ := Option.map_eq_some_iff.1 h
  exact ⟨p, hp, hplan, rfl, rfl⟩

variable {c : Catalog} {siblings : Keyed Bool} {e : Entry}

lemma diagnostics_of_planned_none (h : e.planned = none) :
    e.diagnostics = e.prepared.diagnostics := by
  rw [diagnostics, planningEvents, h]
  exact List.append_nil _

lemma diagnostics_of_planned_some {x : Journaled (Option Plan)} (h : e.planned = some x) :
    e.diagnostics = e.prepared.diagnostics ++ x.diagnostics := by
  rw [diagnostics, planningEvents, h]
  simp [Journaled.diagnostics]

/-- **The four ways in which an entry can be settled come down to one attempt.** -/
lemma Settled.eq_converting (h : e.Settled c siblings) :
    e.conversion? = (orOmit e.declaration.name e.declaration.position
        (converting c siblings e.declaration)).value
      ∧ e.diagnostics = (orOmit e.declaration.name e.declaration.position
        (converting c siblings e.declaration)).diagnostics := by
  obtain ⟨hvalue, hdiagnostics⟩ := orOmit_bind e.declaration.name e.declaration.position
    (prepare e.declaration) fun p =>
      Conversion.mk e.declaration p.instructions p.endpoints <$> planning c siblings e.declaration p
  rw [← h.prepared] at hvalue hdiagnostics
  rw [converting, hvalue, hdiagnostics]
  cases hp : e.prepared.value with
  | none =>
      have hnone : e.planned = none := by rw [h.planned, hp]; rfl
      refine ⟨by rw [conversion?_eq, hp]; rfl, ?_⟩
      rw [diagnostics_of_planned_none hnone]
      exact (List.append_nil _).symm
  | some p =>
      have hsome := h.planned
      rw [hp, Option.map_some] at hsome
      obtain ⟨hvalue', hdiagnostics'⟩ := orOmit_map e.declaration.name e.declaration.position
        (planning c siblings e.declaration p)
        (Conversion.mk e.declaration p.instructions p.endpoints)
      refine ⟨?_, ?_⟩
      · rw [Option.bind_some, hvalue', conversion?_eq, hp, Option.bind_some, plan?, hsome]
        rfl
      · rw [diagnostics_of_planned_some hsome, Option.elim_some, hdiagnostics']

/-- A settled entry has a plan exactly if it stands for a conversion. -/
lemma Settled.plan?_isSome (h : e.Settled c siblings) :
    e.plan?.isSome = e.conversion?.isSome := by
  have hplanned := h.planned
  rw [conversion?_eq]
  cases hp : e.prepared.value with
  | none =>
      rw [hp, Option.map_none] at hplanned
      simp [plan?, hplanned]
  | some p => simp

/-- What came of a method, and what is in a file of it. -/
structure Accounted (c : Catalog) (calls : Keyed CallShape) (siblings : Keyed Bool) (e : Entry) :
    Prop where
  settled : e.Settled c siblings
  /-- There is a plan if the attempt succeeded. -/
  plan : e.plan?.isSome = (converting c siblings e.declaration).outcome.value.isOk
  /-- There is one function if there is a plan, and none otherwise. -/
  functions : (e.functions c calls).length = if e.plan?.isSome then 1 else 0
  /-- Every warning is there, and one error if there is no plan. -/
  record : RecordOf (converting c siblings e.declaration) e.declaration.name
    e.declaration.position e.diagnostics

lemma Settled.accounted (calls : Keyed CallShape) (h : e.Settled c siblings) :
    e.Accounted c calls siblings := by
  obtain ⟨hvalue, hdiagnostics⟩ := h.eq_converting
  have hplan := h.plan?_isSome
  refine ⟨h, ?_, ?_, ?_⟩
  · rw [hplan, hvalue, isSome_orOmit]
  · rw [hplan, Entry.functions]
    cases e.conversion? <;> rfl
  · rw [hdiagnostics]
    exact recordOf_orOmit (onlyWarns_converting c siblings e.declaration) _ _

/-- The functions that stand in a file for an entry: one, under the name of the method, if there is
a plan, and none otherwise. -/
inductive Writes (c : Catalog) (calls : Keyed CallShape) (e : Entry) :
    List FunctionText → Prop where
  | omitted : e.plan? = none → Writes c calls e []
  | written {v : Conversion} {t : FunctionText} : e.conversion? = some v → e.plan? = some v.plan →
      (v.code c calls).name = e.declaration.name → t.Shows (v.code c calls) → Writes c calls e [t]

lemma Settled.writes (calls : Keyed CallShape) (h : e.Settled c siblings) :
    e.Writes c calls ((e.functions c calls).map .ofCode) := by
  have hplan := h.plan?_isSome
  rw [Entry.functions]
  cases hv : e.conversion? with
  | none =>
      rw [hv] at hplan
      exact .omitted (Option.not_isSome_iff_eq_none.1 (by simp [hplan]))
  | some v =>
      obtain ⟨p, -, hplan, hdeclaration, -⟩ := conversion?_eq_some hv
      exact .written hv hplan (congrArg Declaration.name hdeclaration)
        (FunctionText.shows_ofCode _)

/-- One error for a method without a plan. -/
lemma Accounted.countP_isError {calls : Keyed CallShape} (h : e.Accounted c calls siblings) :
    e.diagnostics.countP Diagnostic.isError = if e.plan?.isNone then 1 else 0 := by
  have hplan := h.plan
  rw [h.record.countP_isError, ← hplan]
  cases e.plan? <;> rfl

end Entry

/-! ## Interfaces -/

/-- What is recorded while the lines of an interface are read. -/
def interfaceDiagnostics (i : Interface) : List Diagnostic := (examine i).own.diagnostics

lemma interface_recordOf (i : Interface) :
    RecordOf (Instructions.ofLines DirectiveForm.interfaceNames i.lines) i.name i.position
      (interfaceDiagnostics i) := by
  rw [interfaceDiagnostics, examine, Journaled.diagnostics_map]
  exact recordOf_orOmit (onlyWarns_ofLines _ _) _ _

/-! ## The file -/

/-- The diagnostics of the entries that could not be prepared, each in place. -/
lemma earlyDiagnostics_perm : ∀ traits : List Examined,
    (earlyDiagnostics traits).Perm
      (traits.flatMap (fun t => t.own.diagnostics)
        ++ ((traits.flatMap Examined.entries).filter fun e => e.prepared.value.isNone).flatMap
          fun e => e.prepared.diagnostics)
  | [] => .refl _
  | t :: traits => by
      have ih := earlyDiagnostics_perm traits
      rw [earlyDiagnostics] at ih ⊢
      simp only [List.flatMap_cons, List.filter_append, List.flatMap_append, List.append_assoc]
      refine List.Perm.append_left _ ((List.Perm.append_left _ ih).trans ?_)
      exact List.perm_append_comm_assoc _ _ _

/-- Diagnostics of which each list has one error or none have as many errors as there are lists
with one. -/
lemma countP_isError_flatMap {α : Type} {f : α → List Diagnostic} {failed : α → Bool} :
    ∀ {l : List α},
      (∀ a ∈ l, (f a).countP Diagnostic.isError = if failed a then 1 else 0) →
      (l.flatMap f).countP Diagnostic.isError = l.countP failed
  | [], _ => rfl
  | a :: l, h => by
      have ha := h a List.mem_cons_self
      have hl := countP_isError_flatMap fun b hb => h b (List.mem_cons_of_mem a hb)
      rw [List.flatMap_cons, List.countP_append, ha, hl, List.countP_cons, Nat.add_comm]

lemma planOrder_perm (c : Catalog) (es : List Entry) : (planOrder c es).Perm es := by
  have h := List.filter_append_perm (fun e => !isElementwise c e) es
  simpa only [Bool.not_not, planOrder] using h

end Generation

namespace SourceUnit

open Generation

variable (unit : SourceUnit)

/-- The diagnostics of the methods that could not be prepared. -/
lemma unprepared_diagnostics :
    ((((unit.interfaces.map examine).flatMap Examined.entries).filter
        fun e => e.prepared.value.isNone).flatMap fun e => e.prepared.diagnostics)
      = (unit.entries.filter fun e => e.prepared.value.isNone).flatMap Entry.diagnostics := by
  rw [examined_entries, ← annotated, ← entries_unplanned, List.filter_map, List.flatMap_map]
  refine List.flatMap_congr fun e he => ?_
  obtain ⟨hmem, hnone⟩ := List.mem_filter.1 he
  obtain ⟨siblings, hsettled⟩ := unit.entry_settled hmem
  have hvalue : e.prepared.value = none := Option.isNone_iff_eq_none.1 hnone
  have hplanned := hsettled.planned
  rw [hvalue, Option.map_none] at hplanned
  exact (Entry.diagnostics_of_planned_none hplanned).symm

/-- **Every interface and every method gives its diagnostics to the file, all of them, once.** -/
theorem diagnostics_perm (options : GenerationOptions) :
    (unit.generate options).value.diagnostics.Perm
      (unit.interfaces.flatMap interfaceDiagnostics ++ unit.entries.flatMap Entry.diagnostics) := by
  refine (Diagnostic.sorted_perm _).trans ?_
  refine ((earlyDiagnostics_perm _).append_right _).trans ?_
  rw [unprepared_diagnostics, List.flatMap_map, List.append_assoc, lateDiagnostics,
    ← List.flatMap_append]
  refine List.Perm.append_left _ (List.Perm.flatMap_right _ ?_)
  have h := List.filter_append_perm (fun e : Entry => e.prepared.value.isNone) unit.entries
  simpa only [Option.not_isNone] using h

/-- What it means for a generated file to account for a unit. -/
structure AccountedIn (options : GenerationOptions) (g : GeneratedFile) : Prop where
  /-- The entries are the methods that count, in the order of declaration. -/
  methods : unit.entries.map (fun e => (e.interface, e.declaration)) = unit.annotated
  /-- There is a report on each, and no other. -/
  reports : g.methods = unit.entries.map Entry.report
  /-- The text holds the functions of the entries, each once and in the same order, and nothing else
  but the header and the imports. -/
  code : ∃ written : List (List FunctionText),
    List.Forall₂ (Entry.Writes unit.catalog (callShapes unit.entries)) unit.entries written
      ∧ g.code = unit.fileText options written.flatten
  /-- The entries were all planned, in some order. -/
  order : (planOrder unit.catalog unit.entries).Perm unit.entries
  /-- What came of each, given the entries that were planned before. -/
  entry : ∀ before e after, planOrder unit.catalog unit.entries = before ++ e :: after →
    e.Accounted unit.catalog (callShapes unit.entries) (before.foldl Entry.remember .empty)
  /-- What came of each interface. -/
  interface : ∀ i ∈ unit.interfaces,
    RecordOf (Instructions.ofLines DirectiveForm.interfaceNames i.lines) i.name i.position
      (interfaceDiagnostics i)
  /-- The diagnostics of the file are those of the interfaces and the entries. -/
  diagnostics : g.diagnostics.Perm
    (unit.interfaces.flatMap interfaceDiagnostics ++ unit.entries.flatMap Entry.diagnostics)
  /-- There is an error for each interface that cannot be read and each method without a plan. -/
  errors : g.diagnostics.countP Diagnostic.isError
    = unit.interfaces.countP (fun i => !i.isReadable) + g.methods.countP fun r => r.plan.isNone

/-- **A generated file loses no method and hides no failure.** -/
theorem generate_accounts (options : GenerationOptions) :
    unit.AccountedIn options (unit.generate options).value := by
  have hperm := unit.diagnostics_perm options
  have hentry : ∀ before e after, planOrder unit.catalog unit.entries = before ++ e :: after →
      e.Accounted unit.catalog (callShapes unit.entries) (before.foldl Entry.remember .empty) :=
    fun before e after h => (unit.entries_inTurn.settled h).accounted _
  refine ⟨unit.entries_declarations, rfl, ?_, planOrder_perm _ _, hentry,
    fun i _ => interface_recordOf i, hperm, ?_⟩
  · refine ⟨unit.entries.map fun e =>
      (e.functions unit.catalog (callShapes unit.entries)).map .ofCode, ?_, ?_⟩
    · rw [List.forall₂_map_right_iff, List.forall₂_same]
      intro e he
      obtain ⟨siblings, hsettled⟩ := unit.entry_settled he
      exact hsettled.writes _
    · have h : unit.functions
          = unit.entries.flatMap (Entry.functions unit.catalog (callShapes unit.entries)) := by
        rw [SourceUnit.functions, Generation.functions, List.filterMap_eq_flatMap_toList,
          List.map_flatMap]
        rfl
      rw [unit.generate_code options, h, List.map_flatMap]
      rfl
  · rw [hperm.countP_eq, List.countP_append]
    congr 1
    · refine countP_isError_flatMap fun i _ => ?_
      rw [(interface_recordOf i).countP_isError, ← Interface.isReadable]
      cases i.isReadable <;> rfl
    · change _ = (unit.entries.map Entry.report).countP _
      rw [List.countP_map]
      refine countP_isError_flatMap fun e he => ?_
      obtain ⟨siblings, hsettled⟩ := unit.entry_settled he
      exact (hsettled.accounted (callShapes unit.entries)).countP_isError

end SourceUnit

end FieldCopy
