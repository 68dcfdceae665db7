import Mathlib
import FieldCopy.Proofs.PlanFailures

/-!
# What is warned of while a plan is made

A field may be left alone although nobody asked for that: no member of the source matches it, its
type does not fit, or its converter does not.  That is warned of once for each such field, and of
other fields nothing is said.  Besides, functions that directives name and nobody knows are warned
of at their directives.

**Records.**  `Attempt.Records x Q` relates what an attempt gives to the diagnostics that it
recorded.  What a loop records is what its steps record alone, one after the other
(`diagnostics_mapM`), so the warnings of a plan can be counted field by field.

**Main statement.**  `Planner.warned_exactly`: what matching a field records (`Matching.Explains`)
and what planning does (`Planner.Warned`).
-/

namespace FieldCopy

open Attempt Catalog

/-- A field is left alone for this reason although nobody asked for it. -/
def SkipReason.isMishap : SkipReason → Bool
  | noMatch | typeMismatch | converterSignature => true
  | directive | matchDisabled => false

/-- A field is left alone although nobody asked for it. -/
def Assignment.isMishap : Assignment → Bool
  | skip _ reason => reason.isMishap
  | _ => false

/-! ## Records -/

namespace Attempt

variable {α β : Type}

/-- What an attempt gives is related to the diagnostics that it recorded. -/
def Records (x : Attempt α) (Q : α → List Diagnostic → Prop) : Prop :=
  ∀ a, x.outcome.value = .ok a → Q a x.outcome.diagnostics

namespace Records

variable {Q : β → List Diagnostic → Prop}

lemma pure {b : β} (h : Q b []) : Records (Pure.pure b : Attempt β) Q := by
  intro d hd
  obtain rfl : b = d := Except.ok.inj hd
  exact h

lemma throw (e : Fault) : Records (MonadExcept.throw e : Attempt β) Q := by
  intro b hb
  exact absurd hb (by simp [outcome])

lemma bind {P : α → List Diagnostic → Prop} {x : Attempt α} {f : α → Attempt β}
    (hx : Records x P) (hf : ∀ a ds, P a ds → Records (f a) fun b es => Q b (ds ++ es)) :
    Records (x >>= f) Q := by
  intro b hb
  cases h : x.outcome.value with
  | ok a =>
      obtain ⟨hvalue, hdiagnostics⟩ := outcome_bind_ok h f
      rw [hdiagnostics]
      exact hf a _ (hx a h) b (hvalue.symm.trans hb)
  | error e =>
      rw [(outcome_bind_error h f).1] at hb
      simp at hb

/-- What records nothing does not matter. -/
lemma quietly {x : Attempt α} {f : α → Attempt β} (hx : x.outcome.diagnostics = [])
    (hf : ∀ a, Records (f a) Q) : Records (x >>= f) Q :=
  bind (P := fun _ ds => ds = []) (fun _ _ => hx) fun a ds hds => by
    rw [hds]
    exact hf a

/-- A look-up records nothing. -/
lemma after_known {x : Except Dangling α} {f : α → Attempt β}
    (hf : ∀ a, x = .ok a → Records (f a) Q) : Records (known x >>= f) Q := by
  cases x with
  | ok a =>
      rw [known, pure_bind]
      exact hf a rfl
  | error d => exact throw _

/-- A warning stands in front of what is recorded behind it. -/
lemma warned {p : Position} {m : String} {y : Attempt β}
    (h : Records y fun b es => Q b (⟨.warning, p, m⟩ :: es)) :
    Records (warnAt p m >>= fun _ => y) Q :=
  bind (P := fun _ ds => ds = [⟨.warning, p, m⟩]) (fun _ _ => rfl) fun _ ds hds => by
    rw [hds]
    exact h

end Records

/-- **A loop records what its steps record alone.** -/
lemma diagnostics_mapM {f : α → Attempt β} : ∀ {l : List α} {bs : List β},
    (l.mapM f).outcome.value = .ok bs →
      (l.mapM f).outcome.diagnostics = l.flatMap fun a => (f a).outcome.diagnostics
  | [], _, _ => by
      rw [List.mapM_nil]
      rfl
  | a :: l, bs, h => by
      rw [List.mapM_cons] at h ⊢
      cases ha : (f a).outcome.value with
      | error e =>
          rw [(outcome_bind_error ha _).1] at h
          simp at h
      | ok b =>
          rw [(outcome_bind_ok ha _).1] at h
          rw [(outcome_bind_ok ha _).2, List.flatMap_cons]
          cases hl : (l.mapM f).outcome.value with
          | error e =>
              rw [(outcome_bind_error hl _).1] at h
              simp at h
          | ok cs =>
              rw [(outcome_bind_ok hl _).2, diagnostics_mapM hl]
              simp [outcome]

end Attempt

/-! ## Fields -/

namespace Matching

variable (k : Matching)

/-- A diagnostic is a warning at the anchor that names the conversion and a field. -/
structure WarnsOf (field : String) (d : Diagnostic) : Prop where
  severity : d.severity = .warning
  position : d.position = k.anchor
  names : ∃ front rest, d.message = k.method ++ ": " ++ front ++ "\"" ++ field ++ "\"" ++ rest

/-- A field that is left alone by mishap is warned of once, and nothing is said of others. -/
def Explains (field : String) (a : Assignment) (ds : List Diagnostic) : Prop :=
  if a.isMishap then ∃ d, ds = [d] ∧ k.WarnsOf field d else ds = []

variable {k} {field : FieldInfo}

/-- A mishap is warned of, the two names being somewhere in the message. -/
lemma records_mishap {name message : String} {reason : SkipReason} (front rest : String)
    (hreason : reason.isMishap = true)
    (hmessage : message = k.method ++ ": " ++ front ++ "\"" ++ name ++ "\"" ++ rest) :
    Records (do k.warn message; pure (Assignment.skip name reason)) (k.Explains name) := by
  refine .warned (.pure ?_)
  have hmishap : (Assignment.skip name reason).isMishap = true := hreason
  rw [Explains, if_pos hmishap]
  exact ⟨_, rfl, rfl, rfl, front, rest, hmessage⟩

lemma records_converterCall (field source function : String) :
    Records (k.converterCall field source function) (k.Explains field) := by
  rw [converterCall]
  split
  · exact .pure rfl
  · split
    · exact .after_known fun _ _ => .pure rfl
    · refine records_mishap "field "
        (": converter " ++ function ++ " must take one argument and return a value") rfl ?_
      have hfront : ": field \"" = ": " ++ "field " ++ "\"" := rfl
      have hrest : "\": converter " = "\"" ++ ": converter " := rfl
      simp only [hfront, hrest, String.append_assoc]

lemma records_assignMember (m : Accessor) :
    Records (k.assignMember field m) (k.Explains field.name) := by
  rw [assignMember]
  refine .after_known fun source _ => .after_known fun target _ => ?_
  split
  · split <;> exact .pure rfl
  · simp only
    split
    case' isTrue => refine .after_known fun stringer _ => ?_
    case' isFalse => refine .quietly rfl fun stringer => ?_
    all_goals
      split
      · exact .pure rfl
      · split
        · exact .pure rfl
        · refine records_mishap "field "
            (": type mismatch, " ++ source.name ++ " cannot be assigned to " ++ target.name) rfl ?_
          have hfront : ": field \"" = ": " ++ "field " ++ "\"" := rfl
          have hrest : "\": type mismatch, " = "\"" ++ ": type mismatch, " := rfl
          simp only [hfront, hrest, String.append_assoc]

lemma records_assignTrusted (name path : String) (c : Option Converter) :
    Records (k.assignTrusted name path c) (k.Explains name) := by
  unfold assignTrusted
  refine .quietly rfl fun _ => ?_
  cases c with
  | some c => exact records_converterCall name path c.function
  | none => exact .pure rfl

lemma records_assignFound (m : Accessor) (c : Option Converter) :
    Records (k.assignFound field m c) (k.Explains field.name) := by
  cases c with
  | some c => exact records_converterCall field.name m.path c.function
  | none => exact records_assignMember m

lemma records_assignMatched : Records (k.assignMatched field) (k.Explains field.name) := by
  unfold assignMatched
  simp only
  split
  · refine .after_known fun found _ => ?_
    cases found with
    | some m => exact records_assignFound m _
    | none => exact records_assignTrusted field.name _ _
  · split
    · exact .pure rfl
    · split
      · exact records_assignFound _ _
      · exact records_assignTrusted field.name field.name _
      · refine records_mishap "no source member matches destination field " "" rfl ?_
        have hfront : ": no source member matches destination field \""
            = ": " ++ "no source member matches destination field " ++ "\"" := rfl
        simp only [hfront, String.append_assoc, String.append_empty]

/-- **A field is warned of exactly if it is left alone by mishap.** -/
theorem records_resolve : Records (k.resolve field) (k.Explains field.name) := by
  rw [resolve, decide]
  refine .bind (P := k.Explains field.name) ?_ fun a ds hds => .quietly rfl fun _ => .pure ?_
  · simp only
    split
    · exact .pure rfl
    · split
      · exact .pure rfl
      · split
        · exact .pure rfl
        · exact records_assignMatched
  · rwa [List.append_nil]

/-- A field is warned of once or not at all. -/
lemma Explains.length {field : String} {a : Assignment} {ds : List Diagnostic}
    (h : k.Explains field a ds) : ds.length = if a.isMishap then 1 else 0 := by
  rw [Explains] at h
  split at h
  · rename_i hmishap
    obtain ⟨d, rfl, -⟩ := h
    simp [hmishap]
  · rename_i hkept
    simp [h, hkept]

/-- The warnings of all fields are as many as the mishaps. -/
lemma length_flatMap_diagnostics : ∀ {fields : List FieldInfo} {as : List Assignment},
    List.Forall₂ (fun f a => (k.resolve f).outcome.value = .ok a) fields as →
      (fields.flatMap fun f => (k.resolve f).outcome.diagnostics).length
        = as.countP Assignment.isMishap
  | [], _, h => by
      cases h
      rfl
  | f :: fields, _, h => by
      cases h with
      | @cons _ a _ as ha has =>
          rw [List.flatMap_cons, List.length_append, List.countP_cons,
            length_flatMap_diagnostics has, (records_resolve a ha).length, Nat.add_comm]

end Matching

/-! ## Plans -/

namespace Planner

variable (k : Planner) (method : String) (i : Instructions) (source target : TypeId)
  (anchor : Position)

/-- The warning about a function that is named but not found. -/
def notFound (kind : String) (f : FunctionRef) : Diagnostic :=
  ⟨.warning, f.position, s!"{kind} func {f.name} not found"⟩

/-- The hook that is given, if the catalog does not know it. -/
def unknownHook? (hook : Option FunctionRef) : Option FunctionRef :=
  hook.filter fun f => (k.catalog.function? f.name).isNone

/-- The delegate that is given, if it is no sibling and the catalog does not know it. -/
def unknownDelegate? : Option FunctionRef :=
  i.delegate.filter fun f =>
    (k.siblings.find? f.name).isNone && (k.catalog.function? f.name).isNone

/-- The hooks that are given and that the catalog does not know. -/
def unknownHooks : List FunctionRef :=
  (k.unknownHook? i.before).toList ++ (k.unknownHook? i.after).toList

/-- The warnings about hooks. -/
def hookWarnings : List Diagnostic :=
  (k.unknownHook? i.before).toList.map (notFound "preprocess")
    ++ (k.unknownHook? i.after).toList.map (notFound "postprocess")

lemma length_hookWarnings : (k.hookWarnings i).length = (k.unknownHooks i).length := by
  simp [hookWarnings, unknownHooks]

/-- What a plan has recorded: first what there is to be said of its hooks, and then of its delegate
or of its fields. -/
structure Warned (plan : Plan) (ds : List Diagnostic) : Prop where
  severity : ∀ d ∈ ds, d.severity = .warning
  fields : ∀ s t, k.catalog.LeadsToStruct source s → k.catalog.LeadsToStruct target t →
    ds = k.hookWarnings i ++ (t.fields.flatMap fun f =>
        (Matching.resolve ⟨k.catalog, i, s, method, anchor⟩ f).outcome.diagnostics)
      ∧ ds.length = plan.assignments.countP Assignment.isMishap + (k.unknownHooks i).length
  elements : k.BetweenElements source target →
    ds = k.hookWarnings i ++ (k.unknownDelegate? i).toList.map (notFound "struct_conv")
      ∧ ds.length
        = (k.unknownHooks i).length + if (k.unknownDelegate? i).isSome then 1 else 0
  whole : ¬ k.BetweenElements source target → ¬ k.BetweenStructs source target →
    ds = k.hookWarnings i

lemma records_hook (kind : String) (hook : Option FunctionRef) :
    Records (k.hook kind hook) fun _ ds =>
      ds = (k.unknownHook? hook).toList.map (notFound kind) := by
  cases hook with
  | none => exact .pure rfl
  | some f =>
      rw [Planner.hook]
      cases hf : k.catalog.function? f.name with
      | none => exact .warned (.pure (by simp [unknownHook?, Option.filter_some, hf, notFound]))
      | some info =>
          simp only
          have hknown : (k.unknownHook? (some f)).toList.map (notFound kind) = [] := by
            simp [unknownHook?, hf]
          rw [hknown]
          split
          case' h_1 => refine .quietly rfl fun returnsNothing => ?_
          case' h_2 =>
            refine .after_known fun t _ => .quietly rfl fun returnsNothing => ?_
          all_goals
            split
            · exact .throw _
            · exact .pure rfl

lemma records_delegateFails {f : FunctionRef} (hf : i.delegate = some f) :
    Records (k.delegateFails f) fun _ ds =>
      ds = (k.unknownDelegate? i).toList.map (notFound "struct_conv") := by
  rw [delegateFails]
  cases hsibling : k.siblings.find? f.name with
  | some fallible => exact .pure (by simp [unknownDelegate?, hf, hsibling])
  | none =>
      cases hinfo : k.catalog.function? f.name with
      | some info => exact .pure (by simp [unknownDelegate?, hf, hsibling, hinfo])
      | none =>
          refine .warned (.pure ?_)
          have hkind : toString "struct_conv func " = toString "struct_conv" ++ toString " func " :=
            rfl
          simp [unknownDelegate?, Option.filter_some, hf, hsibling, hinfo, notFound, hkind]

lemma records_loop (element : StructInfo) :
    Records (k.loop method i source target element anchor) fun _ ds =>
      ds = (k.unknownDelegate? i).toList.map (notFound "struct_conv") := by
  rw [loop]
  split
  · exact .throw _
  · rename_i f hf
    refine .bind (k.records_delegateFails i hf) fun _ ds hds => .quietly rfl fun _ =>
      .after_known fun _ _ => .after_known fun _ _ => .pure ?_
    rw [List.append_nil, hds]

lemma records_fields (s t : StructInfo) :
    Records (k.fields method i s t anchor) fun as ds =>
      (ds = t.fields.flatMap fun f =>
        (Matching.resolve ⟨k.catalog, i, s, method, anchor⟩ f).outcome.diagnostics)
        ∧ ds.length = as.countP Assignment.isMishap := by
  rw [fields]
  refine .bind (P := fun as ds => (ds = t.fields.flatMap fun f =>
      (Matching.resolve ⟨k.catalog, i, s, method, anchor⟩ f).outcome.diagnostics)
      ∧ ds.length = as.countP Assignment.isMishap) (fun as has => ?_) fun as ds hds =>
    .quietly rfl fun _ => .pure (by rwa [List.append_nil])
  have hlength :=
    Matching.length_flatMap_diagnostics (Ensures.mapM_forall₂ _ t.fields as has)
  rw [diagnostics_mapM has]
  exact ⟨rfl, hlength⟩

/-- What the assignments of a plan have recorded. -/
lemma records_assignments :
    Records (k.assignments method i source target anchor) fun as ds =>
      (∀ s t, k.catalog.LeadsToStruct source s → k.catalog.LeadsToStruct target t →
        (ds = t.fields.flatMap fun f =>
          (Matching.resolve ⟨k.catalog, i, s, method, anchor⟩ f).outcome.diagnostics)
          ∧ ds.length = as.countP Assignment.isMishap)
        ∧ (k.BetweenElements source target →
          ds = (k.unknownDelegate? i).toList.map (notFound "struct_conv"))
        ∧ (¬ k.BetweenElements source target → ¬ k.BetweenStructs source target → ds = []) := by
  have hmade := k.assignments_made method i source target anchor
  generalize k.assignments method i source target anchor = x at hmade ⊢
  cases hmade with
  | dangling _ => exact .throw _
  | @elements s t hs ht =>
      refine .bind (k.records_loop method i source target anchor t) fun _ ds hds => .pure ?_
      rw [List.append_nil]
      refine ⟨fun _ _ hstruct _ => absurd hs hstruct.not_elements, fun _ => hds, fun h => ?_⟩
      exact absurd ⟨⟨s, hs⟩, t, ht⟩ h
  | @fields s t apart hs ht =>
      refine fun as has => ⟨fun s' t' hs' ht' => ?_, fun h => absurd h apart,
        fun _ h => absurd ⟨⟨s, hs⟩, t, ht⟩ h⟩
      obtain rfl := hs.unique hs'
      obtain rfl := ht.unique ht'
      exact k.records_fields method i anchor _ _ as has
  | whole apart unlike =>
      rw [noteWhole]
      simp only [bind_assoc]
      refine .after_known fun _ _ => .after_known fun _ _ => .quietly rfl fun _ => .pure ?_
      exact ⟨fun s t hs ht => absurd ⟨⟨s, hs⟩, t, ht⟩ unlike, fun h => absurd h apart,
        fun _ _ => rfl⟩

/-- What a plan has recorded: the warnings of its hooks, and behind them those of its
assignments. -/
lemma records_plan :
    Records (k.plan method i source target anchor) (k.Warned method i source target anchor) := by
  intro plan hplan
  have hwarns := onlyWarns_plan k method i source target anchor
  revert plan
  suffices h : Records (k.plan method i source target anchor) fun plan ds =>
      (∀ d ∈ ds, d.severity = .warning) → k.Warned method i source target anchor plan ds from
    fun plan hplan => h plan hplan hwarns
  rw [Planner.plan]
  refine .bind (k.records_hook "preprocess" i.before) fun before ds hds =>
    .bind (k.records_hook "postprocess" i.after) fun after es hes =>
      .bind (k.records_assignments method i source target anchor) fun as fs hfs => .pure ?_
  obtain ⟨hfields, helements, hwhole⟩ := hfs
  subst hds hes
  rw [List.append_nil, ← List.append_assoc]
  change (∀ d ∈ k.hookWarnings i ++ fs, d.severity = .warning) →
    k.Warned method i source target anchor ⟨as, before, after⟩ (k.hookWarnings i ++ fs)
  intro hseverity
  refine ⟨hseverity, fun s t hs ht => ?_, fun h => ?_, fun h h' => ?_⟩
  · obtain ⟨hlist, hlength⟩ := hfields s t hs ht
    rw [List.length_append, length_hookWarnings, hlength, Nat.add_comm, ← hlist]
    exact ⟨rfl, rfl⟩
  · rw [List.length_append, length_hookWarnings, helements h]
    cases k.unknownDelegate? i <;> exact ⟨rfl, rfl⟩
  · rw [hwhole h h', List.append_nil]

end Planner

/-- **Warnings are exact.**  Matching a field warns once, at the anchor and by both names, if the
field is left alone by mishap, and says nothing otherwise; in a closed catalog it gives something.
So a plan between structures has as many warnings as mishaps and unknown hooks, and one between
slices of structures as many as unknown hooks, and one more if its delegate is unknown. -/
theorem Planner.warned_exactly :
    (∀ (m : Matching) (field : FieldInfo),
      (∀ a, (m.resolve field).outcome.value = .ok a →
        ((∃ d, (m.resolve field).outcome.diagnostics = [d] ∧ m.WarnsOf field.name d)
            ↔ a.isMishap = true)
          ∧ (a.isMishap = false → (m.resolve field).outcome.diagnostics = []))
        ∧ (m.Placed → m.catalog.Knows (.type field.type) →
          ∃ a, (m.resolve field).outcome.value = .ok a))
      ∧ ∀ (k : Planner) (method : String) (i : Instructions) (source target : TypeId)
          (anchor : Position) (plan : Plan),
        (k.plan method i source target anchor).outcome.value = .ok plan →
          k.Warned method i source target anchor plan
            (k.plan method i source target anchor).outcome.diagnostics := by
  refine ⟨fun m field => ⟨fun a ha => ?_, fun hplaced hfield => hplaced.resolve_succeeds hfield⟩,
    fun k method i source target anchor => k.records_plan method i source target anchor⟩
  have hexplains := Matching.records_resolve a ha
  rw [Matching.Explains] at hexplains
  cases hmishap : a.isMishap with
  | true =>
      rw [hmishap] at hexplains
      exact ⟨iff_of_true hexplains rfl, fun h => absurd h (by simp)⟩
  | false =>
      rw [hmishap] at hexplains
      refine ⟨iff_of_false ?_ (by simp), fun _ => hexplains⟩
      rintro ⟨d, hd, -⟩
      exact absurd (hexplains.symm.trans hd) (by simp)

/-- A card has an owner that the pet does not have, and nobody knows what is called before. -/
theorem Planner.petCards_warned :
    let anchor : Position := ⟨"pets.rs", 4, 5⟩
    let noting : Instructions :=
      { Instructions.default with before := some ⟨"note", ⟨"pets.rs", 3, 5⟩⟩ }
    let pet : StructInfo := ⟨"Pet", "", [⟨"label", ⟨0⟩, none, false, false⟩], []⟩
    let owner : FieldInfo := ⟨"owner", ⟨0⟩, none, false, false⟩
    let cards : Matching := ⟨petCards.catalog, noting, pet, "card", anchor⟩
    let planned := (petCards.plan "card" noting ⟨2⟩ ⟨3⟩ anchor).outcome
    (∃ d, (cards.resolve owner).outcome.diagnostics = [d] ∧ cards.WarnsOf "owner" d)
      ∧ (∃ a, (cards.resolve owner).outcome.value = .ok a)
      ∧ ∃ plan, planned.value = .ok plan
        ∧ plan.assignments = [.copy "label" "label", .skip "owner" .noMatch]
        ∧ planned.diagnostics.length = 1 + 1 := by
  intro anchor noting pet owner cards planned
  have hclosed : petCards.catalog.IsClosed :=
    (sound_of_storedNumbers (by decide) (by decide)).closed
  have hplaced : cards.Placed := ⟨hclosed, ⟨0⟩, rfl⟩
  have howner : (cards.resolve owner).outcome.value = .ok (.skip "owner" .noMatch) := rfl
  have hplan : planned.value = .ok
      ⟨[.copy "label" "label", .skip "owner" .noMatch], some ⟨"note", false⟩, none⟩ := rfl
  obtain ⟨hwarns, hsucceeds⟩ := warned_exactly.1 cards owner
  refine ⟨(hwarns _ howner).1.2 rfl, hsucceeds hplaced ?_, _, hplan, rfl, ?_⟩
  · exact Nat.zero_lt_succ _
  · have hwarned := warned_exactly.2 petCards "card" noting ⟨2⟩ ⟨3⟩ anchor _ hplan
    exact (hwarned.fields _ _ ((structOf_eq_some_iff rfl _).1 rfl)
      ((structOf_eq_some_iff rfl _).1 rfl)).2

end FieldCopy
