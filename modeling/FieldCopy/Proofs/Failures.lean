import Mathlib
import FieldCopy.Proofs.FailureTexts
import FieldCopy.Proofs.KnownFailures
import FieldCopy.Proofs.Siblings
import FieldCopy.Report.Generated

/-!
# Heads and bodies agree on failure

Three parts of a generated function depend on whether it can fail: the type that it gives, the
places where failures of calls leave it, and its end.  They are written in different places, from
the plan and the declaration.

**Bodies.**  A body propagates failures exactly if a part of the plan can fail
(`Conversion.propagates_body`), and ends in `Ok` exactly if the function can fail
(`Conversion.endsOk_body`).

**Main statement.**  `SourceUnit.failures_agree`: the functions of a file and the reports on planned
methods are paired in their order, and each pair agrees on failure.
-/

namespace FieldCopy

namespace Statement

/-- A failure leaves one of these statements. -/
def Propagates (ss : List Statement) : Prop := ∃ d, Expression.propagate d ∈ partsAll ss

/-- The last of these statements gives `Ok` of a value. -/
def EndsOk (ss : List Statement) : Prop := ∃ e, ss.getLast? = some (.give (.call "Ok" [e]))

lemma partsAll_append : ∀ ss ts : List Statement,
    partsAll (ss ++ ts) = partsAll ss ++ partsAll ts
  | [], _ => rfl
  | s :: ss, ts => by
      rw [List.cons_append, partsAll, partsAll, partsAll_append ss ts, List.append_assoc]

lemma propagates_append {ss ts : List Statement} :
    Propagates (ss ++ ts) ↔ Propagates ss ∨ Propagates ts := by
  simp only [Propagates, partsAll_append, List.mem_append, exists_or]

lemma not_propagates_nil : ¬ Propagates [] := fun ⟨_, h⟩ => List.not_mem_nil h

lemma propagates_flatMap {α : Type} {f : α → List Statement} : ∀ {l : List α},
    Propagates (l.flatMap f) ↔ ∃ a ∈ l, Propagates (f a)
  | [] => by simpa using not_propagates_nil
  | a :: l => by
      rw [List.flatMap_cons, propagates_append, propagates_flatMap, List.exists_mem_cons_iff]

/-- Statements that call something propagate a failure exactly if it is said to fail. -/
lemma CallsChecked.propagates_iff {function : String} {fallible : Bool} {ss : List Statement}
    (h : CallsChecked function fallible ss) : Propagates ss ↔ fallible = true := by
  obtain ⟨e, -, -, hd⟩ := h
  exact ⟨fun ⟨d, hmem⟩ => ((hd d).1 hmem).1, fun hfallible => ⟨e, (hd e).2 ⟨hfallible, rfl⟩⟩⟩

end Statement

namespace Conversion

open Expression Statement

variable (k : Catalog) (calls : Keyed CallShape) (c : Conversion)

/-! ## Bodies -/

lemma not_propagates_receiver : ¬ Propagates c.receiverStatement := by
  rintro ⟨d, hd⟩
  cases h : c.endpoints.receiver <;>
    simp [receiverStatement, h, partsAll, Statement.parts, Expression.self, Expression.parts] at hd

lemma not_propagates_whole (d : Expression) : propagate d ∉ (c.whole k).parts := by
  unfold whole
  simp only
  split
  · split
    · simp [clone, invoke, sourceValue, Expression.parts, argumentsParts]
    · split
      · split <;> simp [sourceValue, Expression.parts]
      · simp [clone, invoke, sourceValue, Expression.parts, argumentsParts]
  · simp [clone, invoke, sourceValue, Expression.parts, argumentsParts]

lemma not_propagates_start (d : Expression) : propagate d ∉ c.start.parts := by
  unfold start
  simp only
  split
  · simp [invoke, sourceValue, Expression.parts, argumentsParts]
  · simp [defaultOf, Expression.parts, argumentsParts]

lemma not_propagates_opening : ¬ Propagates (c.opening k) := by
  rintro ⟨d, hd⟩
  have hwhole := c.not_propagates_whole k d
  have hstart := c.not_propagates_start d
  unfold opening at hd
  simp only at hd
  split at hd <;>
    simp [partsAll, Statement.parts, Expression.parts, targetValue, hwhole, hstart] at hd

/-- What is checked propagates a failure exactly if it is said to fail. -/
lemma exists_propagate_checked {e : Expression} (hnone : ∀ d, propagate d ∉ e.parts)
    (fallible : Bool) : (∃ d, propagate d ∈ (checked fallible e).parts) ↔ fallible = true := by
  simp only [propagate_mem_checked _ (hnone _)]
  exact ⟨fun ⟨_, hfallible, _⟩ => hfallible, fun hfallible => ⟨e, hfallible, rfl⟩⟩

lemma propagates_hook (h : Option Hook) :
    Propagates (c.hook h) ↔ ∃ hook ∈ h, hook.fallible = true := by
  cases h with
  | none => simpa [hook] using not_propagates_nil
  | some h =>
      have hnone : ∀ d, propagate d
          ∉ (Expression.call h.function [c.targetArgument, c.sourceValue]).parts := by
        intro d
        rw [targetArgument]
        cases c.instructions.style <;>
          simp [targetValue, sourceValue, Expression.parts, argumentsParts]
      simp only [Propagates, hook, partsAll, Statement.parts, List.append_nil,
        exists_propagate_checked hnone, Option.mem_some_iff, exists_eq_left']

lemma propagates_assign (field : String) (e : Expression) :
    Propagates [.assign (.member c.target field) e] ↔ ∃ d, propagate d ∈ e.parts := by
  simp [Propagates, partsAll, Statement.parts, Expression.parts]

/-- The value that a field gets is checked if it can fail, and nothing else is. -/
lemma exists_checked_of_fieldValue? {a : Assignment} {e : Expression}
    (he : c.fieldValue? k a = some e) :
    ∃ value, e = checked a.fallible value ∧ ∀ d, propagate d ∉ value.parts := by
  cases a with
  | copy field path =>
      refine ⟨e, rfl, fun d => ?_⟩
      obtain rfl := Option.some.inj he
      split <;> simp [sourceMember, clone, invoke, Expression.parts, argumentsParts]
  | cast field path type =>
      refine ⟨e, rfl, fun d => ?_⟩
      obtain rfl := Option.some.inj he
      split <;> simp [sourceMember, clone, invoke, Expression.parts, argumentsParts]
  | getter field method =>
      obtain rfl := Option.some.inj he
      exact ⟨_, rfl, by simp [sourceValue, Expression.parts, argumentsParts]⟩
  | stringer field path =>
      obtain rfl := Option.some.inj he
      exact ⟨_, rfl, by simp [sourceMember, Expression.parts, argumentsParts]⟩
  | converter field path function byReference fallible =>
      obtain rfl := Option.some.inj he
      refine ⟨_, rfl, fun d => ?_⟩
      cases byReference <;>
        simp [sourceMember, clone, invoke, Expression.parts, argumentsParts]
  | method field name fallible =>
      obtain rfl := Option.some.inj he
      exact ⟨_, rfl, by simp [sourceValue, invoke, Expression.parts, argumentsParts]⟩
  | literal field text =>
      obtain rfl := Option.some.inj he
      exact ⟨_, rfl, by simp [Expression.parts]⟩
  | skip _ _ | delegateLoop _ _ _ _ _ => exact absurd he (by simp [fieldValue?])

/-- **An assignment propagates a failure exactly if it is said to fail.** -/
lemma propagates_assignment (a : Assignment) :
    Propagates (c.assignment k calls a) ↔ a.fallible = true := by
  have hfield : ∀ e, c.fieldValue? k a = some e →
      (Propagates [.assign (.member c.target a.target) e] ↔ a.fallible = true) := by
    intro e he
    obtain ⟨value, rfl, hnone⟩ := c.exists_checked_of_fieldValue? k he
    rw [c.propagates_assign]
    exact exists_propagate_checked hnone a.fallible
  cases a with
  | skip field reason =>
      refine iff_of_false (fun ⟨d, hd⟩ => ?_) Bool.false_ne_true
      exact absurd hd (by simp [assignment, partsAll, Statement.parts])
  | delegateLoop target source element delegate fallible =>
      have hcall := (c.delegate_callsChecked (calls.find? delegate) delegate
        ((Source.Ty.elementName? c.endpoints.target.written).getD element) fallible).propagates_iff
      refine propagates_append.trans ((or_iff_right ?clear).trans (Iff.trans ?step hcall))
      case clear =>
        rintro ⟨d, hd⟩
        revert hd
        cases c.instructions.style <;>
          simp [partsAll, Statement.parts, targetValue, invoke, Expression.parts, argumentsParts]
      case step =>
        simp [Propagates, partsAll, Statement.parts, sourceValue, invoke, Expression.parts,
          argumentsParts]
  | _ => exact hfield _ rfl

/-- **A body propagates failures exactly if a part of the plan can fail.** -/
lemma propagates_body : Propagates (c.body k calls) ↔ c.plan.fallible = true := by
  have hending : ¬ Propagates c.ending := by
    rintro ⟨d, hd⟩
    revert hd
    rw [ending]
    cases c.instructions.style <;> cases c.fallible <;>
      simp [partsAll, Statement.parts, targetValue, Expression.parts, argumentsParts]
  simp only [body, propagates_append, c.not_propagates_receiver, c.not_propagates_opening k,
    hending, propagates_hook, propagates_flatMap, propagates_assignment, false_or, or_false]
  rw [Plan.fallible_iff, Plan.hooks]
  simp only [List.mem_append, Option.mem_toList, Option.mem_def, or_and_right, exists_or]
  rw [or_assoc, or_left_comm]

/-! ## Ends -/

/-- The reason for which a field is skipped ends in a letter. -/
lemma isInner_skip (field : String) (reason : SkipReason) :
    (Statement.comment (field ++ ": " ++ reason.text)).IsInner := by
  have hreason : ∃ front c, reason.text.toList = front ++ [c] ∧ c.isAlpha = true := by
    cases reason
    case directive => exact ⟨"skipped by directiv".toList, 'e', rfl, rfl⟩
    case noMatch => exact ⟨"no matc".toList, 'h', rfl, rfl⟩
    case matchDisabled => exact ⟨"automatic matching disable".toList, 'd', rfl, rfl⟩
    case typeMismatch => exact ⟨"type mismatc".toList, 'h', rfl, rfl⟩
    case converterSignature => exact ⟨"converter signature mismatc".toList, 'h', rfl, rfl⟩
  obtain ⟨front, c, hfront, hc⟩ := hreason
  exact ⟨(field ++ ": ").toList ++ front, c,
    by rw [String.toList_append, hfront, List.append_assoc], hc⟩

/-- No statement of the body in front of its end is the value of the function, or looks like it. -/
lemma isInner_of_mem {s : Statement} (h : s ∈ c.receiverStatement ++ c.opening k
      ++ c.hook c.plan.before ++ c.plan.assignments.flatMap (c.assignment k calls)
      ++ c.hook c.plan.after) : s.IsInner := by
  have hhook : ∀ hook, s ∈ c.hook hook → s.IsInner := by
    intro hook hs
    cases hook with
    | none => exact absurd hs List.not_mem_nil
    | some hook => exact List.mem_singleton.1 hs ▸ trivial
  have hassignment : ∀ a, s ∈ c.assignment k calls a → s.IsInner := by
    intro a hs
    have hfield : ∀ e, s ∈ [.assign (.member c.target a.target) e] → s.IsInner :=
      fun e hs => List.mem_singleton.1 hs ▸ trivial
    cases a with
    | skip field reason =>
        obtain rfl := List.mem_singleton.1 hs
        exact isInner_skip field reason
    | delegateLoop target source element delegate fallible =>
        rcases List.mem_append.1 hs with hs | hs
        · cases hstyle : c.instructions.style <;> rw [hstyle] at hs
          · exact absurd hs List.not_mem_nil
          · exact List.mem_singleton.1 hs ▸ trivial
        · exact List.mem_singleton.1 hs ▸ trivial
    | _ => exact hfield _ hs
  simp only [List.mem_append] at h
  rcases h with (((hs | hs) | hs) | hs) | hs
  · obtain ⟨r, -, rfl⟩ := List.mem_map.1 hs
    trivial
  · rw [opening] at hs
    split at hs
    case h_4 => exact absurd hs List.not_mem_nil
    all_goals exact List.mem_singleton.1 hs ▸ trivial
  · exact hhook _ hs
  · obtain ⟨a, -, hs⟩ := List.mem_flatMap.1 hs
    exact hassignment a hs
  · exact hhook _ hs

/-- **A body ends in `Ok` exactly if the function can fail.** -/
lemma endsOk_body : EndsOk (c.body k calls) ↔ c.fallible = true := by
  have hinner := fun s => c.isInner_of_mem k calls (s := s)
  rw [EndsOk, body]
  cases hfallible : c.fallible with
  | true =>
      have hend : ∃ e, c.ending = [.give (.call "Ok" [e])] := by
        rw [ending, hfallible]
        cases c.instructions.style <;> exact ⟨_, rfl⟩
      obtain ⟨e, he⟩ := hend
      exact iff_of_true ⟨e, by rw [he, List.getLast?_concat]⟩ rfl
  | false =>
      refine iff_of_false ?_ Bool.false_ne_true
      rintro ⟨e, he⟩
      rw [ending, hfallible] at he
      cases hstyle : c.instructions.style with
      | result =>
          rw [hstyle, List.getLast?_concat] at he
          exact absurd he (by simp [targetValue])
      | argument =>
          rw [hstyle, List.append_nil] at he
          exact hinner _ (List.mem_of_getLast? he)

/-- A destination that is the result has one of two names. -/
lemma target_dst_or_out (h : c.instructions.style = .result) :
    c.target = "dst" ∨ c.target = "out" := by
  rw [target, h]
  exact (Decidable.em _).symm.imp (if_neg ·) (if_pos ·)

/-- **The last line of a body is `Ok` of a value exactly if the function can fail.** -/
lemma okLine_body : (∃ s, (linesAll (c.body k calls)).getLast? = some ("Ok(" ++ s ++ ")"))
    ↔ c.fallible = true := by
  rw [body, ending]
  cases hfallible : c.fallible with
  | true =>
      refine iff_of_true ?_ rfl
      cases hstyle : c.instructions.style with
      | result =>
          rcases c.target_dst_or_out hstyle with hdst | hout
          · exact ⟨"dst", by rw [getLast?_linesAll_give, targetValue, hdst]; decide⟩
          · exact ⟨"out", by rw [getLast?_linesAll_give, targetValue, hout]; decide⟩
      | argument => exact ⟨"()", by rw [getLast?_linesAll_give]; decide⟩
  | false =>
      refine iff_of_false ?_ Bool.false_ne_true
      rintro ⟨s, hs⟩
      cases hstyle : c.instructions.style with
      | result =>
          -- The line is the variable of the destination, which does not end in a bracket.
          have hplain : ∃ l, (Lines.ofText c.targetValue.text).getLast? = some l
              ∧ l.toList.getLast? ≠ some ')' := by
            rcases c.target_dst_or_out hstyle with hdst | hout
            · exact ⟨"dst", by rw [targetValue, hdst]; decide, by decide⟩
            · exact ⟨"out", by rw [targetValue, hout]; decide, by decide⟩
          obtain ⟨l, hl, hbracket⟩ := hplain
          rw [hstyle, getLast?_linesAll_give, hl] at hs
          rw [Option.some.inj hs, String.toList_append] at hbracket
          exact hbracket List.getLast?_concat
      | argument =>
          rw [hstyle, List.append_nil] at hs
          exact getLast?_linesAll_ne (fun _ => c.isInner_of_mem k calls) s hs

end Conversion

/-! ## Texts -/

namespace FunctionText

/-- The type behind the parameters is a `Result`. -/
def GivesResult (t : FunctionText) : Prop :=
  ∃ v e, t.returns = " -> Result<" ++ v ++ ", " ++ e ++ ">"

/-- The last line of the body is `Ok` of something. -/
def EndsInOk (t : FunctionText) : Prop := ∃ s, t.body.getLast? = some ("Ok(" ++ s ++ ")")

lemma returns_ofCode (f : FunctionCode) :
    if f.result.failure.isSome then (ofCode f).GivesResult
    else (ofCode f).returns = "" ∨ ∃ v ∈ f.result.value, (ofCode f).returns = " -> " ++ v := by
  rcases hresult : f.result with ⟨value, failure⟩
  rw [GivesResult, ofCode, hresult]
  cases failure with
  | some e => exact ⟨value.getD "()", e, by cases value <;> rfl⟩
  | none =>
      cases value with
      | none => exact .inl rfl
      | some v => exact .inr ⟨v, rfl, rfl⟩

end FunctionText

/-! ## Reports -/

/-- The member of a JSON object under a key. -/
def Json.member? (key : String) : Json → Option Json
  | .object members => (members.find? fun m => m.1 == key).map (·.2)
  | _ => none

namespace Generation

open Statement

/-- What a report shows for `produces_error` in the instructions of a method. -/
def reportedFlag (r : MethodReport) : Option Json :=
  ((Report.method r).member? "spec").bind (Json.member? "produces_error")

/-- A function, its text and the report on its method agree on failure. -/
structure AgreesOnFailure (f : FunctionCode) (t : FunctionText) (r : MethodReport) : Prop where
  name : f.name = r.method
  /-- The text is that of the function. -/
  shows : t.Shows f
  /-- What is propagated stands in a line of the body, with a question mark behind it. -/
  marks : ∀ d s, Expression.propagate d ∈ partsAll f.body → d.Reads s → '\n' ∉ s.toList →
    ∃ l ∈ t.body, (s ++ "?").toList <:+: l.toList
  /-- What is propagated fits the type that the function gives. -/
  propagates : Propagates f.body → f.result.failure.isSome
  /-- That type is written as a `Result` if the function can fail, and as it is declared if not. -/
  returns : if f.result.failure.isSome then t.GivesResult
    else t.returns = "" ∨ ∃ v ∈ f.result.value, t.returns = " -> " ++ v
  ends : EndsOk f.body ↔ f.result.failure.isSome
  /-- The last line of the body is `Ok` of a value if the function can fail, and only then. -/
  lastLine : t.EndsInOk ↔ f.result.failure.isSome
  /-- The report shows whether a part of the plan can fail, and so does the body. -/
  reported : ∃ plan fails, r.plan = some plan ∧ reportedFlag r = some (.bool fails)
    ∧ (fails = true ↔ (∃ a ∈ plan.assignments, a.fallible = true)
      ∨ ∃ h ∈ plan.hooks, h.fallible = true)
    ∧ (fails = true ↔ Propagates f.body)

lemma reportedFlag_eq {r : MethodReport} {i : Instructions} (h : r.instructions = some i) :
    reportedFlag r = some (.bool (r.plan.any Plan.fallible)) := by
  simp [reportedFlag, Report.method, Json.member?, Report.reportedInstructions, h, Json.option,
    Report.instructions]

variable {c : Catalog}

/-- A method that is planned has a function that agrees with its report. -/
lemma agreesOnFailure_code (calls : Keyed CallShape) {e : Entry} {v : Conversion}
    (h : e.conversion? = some v) :
    AgreesOnFailure (v.code c calls) (.ofCode (v.code c calls)) e.report := by
  obtain ⟨p, hp, hplan, hdeclaration, -⟩ := Entry.conversion?_eq_some h
  have hfailure : (v.code c calls).result.failure.isSome = true ↔ v.fallible = true := by
    rw [v.code_failure c calls]
  have hbody := v.propagates_body c calls
  have hreport : e.report.plan = some v.plan := hplan
  refine
    { name := congrArg Declaration.name hdeclaration
      shows := FunctionText.shows_ofCode _
      marks := fun _ _ hd hs hline => exists_mem_linesAll_propagate hd hs hline
      propagates := fun hpropagates => hfailure.2 ?_
      returns := FunctionText.returns_ofCode _
      ends := (v.endsOk_body c calls).trans hfailure.symm
      lastLine := (v.okLine_body c calls).trans hfailure.symm
      reported := ⟨v.plan, v.plan.fallible, hreport, ?_, v.plan.fallible_iff, hbody.symm⟩ }
  · rw [Conversion.fallible, hbody.1 hpropagates, Bool.true_or]
  · rw [reportedFlag_eq (i := p.instructions) (by rw [Entry.report, hp]; rfl), hreport]
    rfl

/-- The functions of planned methods, with their texts, and the reports on them agree one by one. -/
lemma functions_agree (calls : Keyed CallShape) : ∀ {es : List Entry},
    (∀ e ∈ es, e.plan?.isSome = e.conversion?.isSome) →
      List.Forall₂ (fun f r => AgreesOnFailure f (.ofCode f) r)
        ((es.filterMap Entry.conversion?).map (Conversion.code c calls))
        ((es.map Entry.report).filter fun r => r.plan.isSome)
  | [], _ => .nil
  | e :: es, h => by
      have ih := functions_agree calls fun d hd => h d (List.mem_cons_of_mem e hd)
      have he := h e List.mem_cons_self
      cases hv : e.conversion? with
      | none =>
          rw [hv] at he
          rw [List.filterMap_cons_none hv, List.map_cons, List.filter_cons_of_neg]
          · exact ih
          · exact fun hsome => Bool.false_ne_true (he.symm.trans hsome)
      | some v =>
          rw [hv] at he
          rw [List.filterMap_cons_some hv, List.map_cons, List.map_cons, List.filter_cons_of_pos]
          · exact .cons (agreesOnFailure_code calls hv) ih
          · exact he

end Generation

namespace SourceUnit

open Generation

/-- **Heads, bodies and reports agree on failure.**  The functions of a file, as they stand in its
text, belong to the reports that have a plan, in the same order, and each of them agrees with its
report. -/
theorem failures_agree (unit : SourceUnit) (options : GenerationOptions) :
    ∃ written : List (FunctionCode × FunctionText),
      written.map Prod.fst = unit.functions
        ∧ (unit.generate options).value.code = unit.fileText options (written.map Prod.snd)
        ∧ List.Forall₂ (fun w r => AgreesOnFailure w.1 w.2 r) written
          ((unit.generate options).value.methods.filter fun r => r.plan.isSome) := by
  have hagree := functions_agree (c := unit.catalog) (callShapes unit.entries) fun e he => by
    obtain ⟨siblings, hsettled⟩ := unit.entry_settled he
    exact hsettled.plan?_isSome
  refine ⟨unit.functions.map fun f => (f, .ofCode f), ?_, ?_, ?_⟩
  · rw [List.map_map]
    exact List.map_id _
  · rw [unit.generate_code options, List.map_map]
    rfl
  · rw [List.forall₂_map_left_iff]
    exact hagree

end SourceUnit

end FieldCopy
