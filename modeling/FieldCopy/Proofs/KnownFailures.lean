import Mathlib
import FieldCopy.Proofs.Matching.Outcomes

/-!
# Failures that are known

The catalog tells which functions and methods can fail, and a plan calls some of them: hooks, the
delegate of a loop, converters, methods that directives name, and the methods on a source path.  A
part of a plan that can fail carries a flag, and the generated function propagates the failure.

**What is known.**  `Assignment.callsFailing` looks up everything that an assignment calls.  On a
path these are the methods that the catalog finds along it (`calledMethods`).

**What is lost.**  No path with a call that can fail is followed (`calledMethods_of_follow`), since
such a method is no getter.  So a path that directives name is used as it is written, and nothing
says that it can fail (`Assignment.loses`).

**Main statement.**  `Planner.failures_known`: the flags of a plan tell what is known, but for what
is lost on paths.
-/

namespace FieldCopy

open Attempt

/-! ## Calls on a path -/

namespace Matching

/-- The methods that a path calls, as far as the catalog finds them. -/
def calledMethods (c : Catalog) (caseSensitive : Bool) (s : StructInfo) :
    List String → List MethodInfo
  | [] => []
  | segment :: rest =>
      let onward (type : Option TypeId) : List MethodInfo :=
        match type with
        | none => []
        | some t =>
            match c.structOf t with
            | .ok (some inner) => calledMethods c caseSensitive inner rest
            | _ => []
      match calledName? segment with
      | some name =>
          match s.method? name caseSensitive with
          | some m => m :: onward m.result
          | none => []
      | none => onward ((s.field? segment caseSensitive).map FieldInfo.type)

/-- **A path with a call that can fail is not followed.** -/
lemma calledMethods_of_follow {c : Catalog} {caseSensitive : Bool} {path : List String}
    {s : StructInfo} {done : List String} {a : Accessor}
    (h : follow c caseSensitive s done path = .ok (some a)) :
    ∀ m ∈ calledMethods c caseSensitive s path, m.fallible = false := by
  induction path generalizing s done with
  | nil => exact absurd h (by simp [follow, pure, Except.pure])
  | cons segment rest ih =>
      rw [follow] at h
      cases hmember : member? s caseSensitive segment with
      | none =>
          rw [hmember] at h
          exact absurd h (by simp [pure, Except.pure])
      | some b =>
          simp only [hmember] at h
          -- the rest of the path starts at the type of what was found
          have honward : ∀ m ∈ (match c.structOf b.type with
              | .ok (some inner) => calledMethods c caseSensitive inner rest
              | _ => []), m.fallible = false := by
            cases rest with
            | nil => split <;> simp [calledMethods]
            | cons next rest =>
                rw [if_neg (by simp)] at h
                cases hinner : c.structOf b.type with
                | error d => simp
                | ok inner =>
                    cases inner with
                    | none => simp
                    | some inner =>
                        rw [hinner] at h
                        exact ih h
          rw [member?] at hmember
          rw [calledMethods]
          cases hname : calledName? segment with
          | none =>
              rw [hname] at hmember
              obtain ⟨f, hf, rfl⟩ := Option.map_eq_some_iff.1 hmember
              simpa [hf, ofField] using honward
          | some name =>
              rw [hname] at hmember
              obtain ⟨m, hm, hgetter⟩ := Option.bind_eq_some_iff.1 hmember
              rw [ofMethod?] at hgetter
              split at hgetter
              · rename_i hcalled
                obtain ⟨t, ht, rfl⟩ := Option.map_eq_some_iff.1 hgetter
                have hsafe : m.fallible = false := by
                  simp only [MethodInfo.isGetter, Bool.and_eq_true, Bool.not_eq_true'] at hcalled
                  exact hcalled.2
                simpa [hm, ht, hsafe] using honward
              · exact absurd hgetter (by simp)

end Matching

namespace Instructions

/-- The source path that directives name for a field. -/
def explicitPath? (i : Instructions) (field : String) : Option String :=
  ((i.override? i.converters field).bind Converter.source) <|> i.override? i.fieldOverrides field

end Instructions

/-! ## What an assignment calls -/

section

variable (c : Catalog) (i : Instructions) (s : StructInfo)

/-- Whether a path calls a method that is known to fail. -/
def StructInfo.pathFails (path : String) : Bool :=
  (Matching.calledMethods c i.caseSensitive s (Matching.segments path)).any MethodInfo.fallible

/-- Whether a function of the catalog is known to fail. -/
def Catalog.functionFails (function : String) : Bool :=
  (c.function? function).any FunctionInfo.fallible

namespace Assignment

/-- Whether the assignment of a field calls something that is known to fail. -/
def callsFailing : Assignment → Bool
  | converter field _ function _ _ =>
      c.functionFails function || (i.explicitPath? field).any (s.pathFails c i)
  | method _ name _ => (s.method? name i.caseSensitive).any MethodInfo.fallible
  | copy field _ | cast field _ _ | getter field _ | stringer field _ =>
      (i.explicitPath? field).any (s.pathFails c i)
  | literal _ _ | skip _ _ | delegateLoop _ _ _ _ _ => false

/-- Whether an assignment uses a path as directives write it, although a call on the path is known
to fail, and is not said to fail itself. -/
def loses : Assignment → Bool
  | copy field path => i.explicitPath? field == some path && s.pathFails c i path
  | converter field path _ _ fallible =>
      !fallible && i.explicitPath? field == some path && s.pathFails c i path
  | _ => false

/-- An assignment tells what is known of its calls, but for what it loses. -/
def Tells (a : Assignment) : Prop := a.callsFailing c i s = (a.fallible || a.loses c i s)

end Assignment

end

/-! ## Fields -/

namespace Matching

open Assignment

variable {k : Matching} {field : FieldInfo}

/-- What is known of the calls on the source path that directives name for a field. -/
abbrev ExplicitFails (k : Matching) (field : FieldInfo) : Bool :=
  (k.instructions.explicitPath? field.name).any (k.source.pathFails k.catalog k.instructions)

/-- A path that can fail only if it is the one that directives name. -/
lemma explicitFails_eq {path : String}
    (h : k.ExplicitFails field = true → k.instructions.explicitPath? field.name = some path) :
    k.ExplicitFails field = (k.instructions.explicitPath? field.name == some path
      && k.source.pathFails k.catalog k.instructions path) := by
  rw [Bool.eq_iff_iff, Bool.and_eq_true, beq_iff_eq]
  constructor
  · intro hfails
    have hpath := h hfails
    rw [ExplicitFails, hpath] at hfails
    exact ⟨hpath, hfails⟩
  · rintro ⟨hpath, hfails⟩
    rw [ExplicitFails, hpath]
    exact hfails

/-- The call of a converter tells what is known of it. -/
lemma Called.tells {path function : String} {a : Assignment}
    (hpath : k.ExplicitFails field = true → k.instructions.explicitPath? field.name = some path)
    (h : k.Called field.name path function a) : a.Tells k.catalog k.instructions k.source := by
  have hfails := explicitFails_eq hpath
  rw [ExplicitFails] at hfails
  cases h with
  | unknown absent =>
      rw [Tells, callsFailing, fallible, loses, Catalog.functionFails, absent, hfails]
      rfl
  | @known f input t present parameters result type =>
      rw [Tells, callsFailing, fallible, loses, Catalog.functionFails, present, hfails]
      cases hf : f.fallible <;> simp [hf]
  | unusable present unfit => rfl

/-- What is assigned without a converter from where nothing fails does not fail. -/
lemma Assigned.tells {m : Accessor} {a : Assignment} (hsafe : k.ExplicitFails field = false)
    (h : k.Assigned field m a) : a.Tells k.catalog k.instructions k.source := by
  have hpath : k.ExplicitFails field = true →
      k.instructions.explicitPath? field.name = some m.path := fun hfails =>
    absurd (hfails.symm.trans hsafe) (by simp)
  have hcopy := explicitFails_eq hpath
  cases h with
  | copy same plain => exact hcopy
  | getter same called => exact hsafe
  | stringer differs type turns => exact hsafe
  | cast differs memberType type stays casts => exact hsafe
  | mismatch differs memberType type stays unfit => rfl

/-- A path that was followed does not fail. -/
lemma explicitFails_of_resolved {path : String} {m : Accessor}
    (hpath : k.instructions.explicitPath? field.name = some path)
    (h : k.resolvePath path = .ok (some m)) : k.ExplicitFails field = false := by
  rw [ExplicitFails, hpath, Option.any_some, StructInfo.pathFails, List.any_eq_false]
  intro m hm
  rw [calledMethods_of_follow h m hm]
  exact Bool.false_ne_true

lemma ensures_assignFound_tells (hsafe : k.ExplicitFails field = false) (m : Accessor)
    (converter : Option Converter) :
    Ensures (k.assignFound field m converter) (Tells k.catalog k.instructions k.source) := by
  cases converter with
  | some c =>
      exact fun a ha => (ensures_called _ _ _ a ha).tells
        fun hfails => absurd (hfails.symm.trans hsafe) (by simp)
  | none => exact fun a ha => (ensures_assigned m a ha).tells hsafe

lemma ensures_assignTrusted_tells {path : String}
    (hpath : k.ExplicitFails field = true → k.instructions.explicitPath? field.name = some path)
    (converter : Option Converter) :
    Ensures (k.assignTrusted field.name path converter)
      (Tells k.catalog k.instructions k.source) := by
  refine .after fun _ => ?_
  cases converter with
  | some c => exact fun a ha => (ensures_called _ _ _ a ha).tells hpath
  | none => exact .pure (explicitFails_eq hpath)

lemma ensures_assignMatched_tells :
    Ensures (k.assignMatched field) (Tells k.catalog k.instructions k.source) := by
  unfold assignMatched
  simp only
  split
  · rename_i path hpath
    change k.instructions.explicitPath? field.name = some path at hpath
    refine .bind (.known fun found hfound => hfound) fun found hfound => ?_
    cases found with
    | some m => exact ensures_assignFound_tells (explicitFails_of_resolved hpath hfound) m _
    | none => exact ensures_assignTrusted_tells (fun _ => hpath) _
  · rename_i hnone
    have hsafe : k.ExplicitFails field = false := by
      rw [ExplicitFails, Instructions.explicitPath?, hnone]
      rfl
    split
    · exact .pure rfl
    · split
      · exact ensures_assignFound_tells hsafe _ _
      · exact ensures_assignTrusted_tells
          (fun hfails => absurd (hfails.symm.trans hsafe) (by simp)) _
      · exact .after fun _ => .pure rfl

/-- **The assignment of a field tells what is known of its calls**, but for what it loses. -/
theorem ensures_resolve_tells :
    Ensures (k.resolve field) (Tells k.catalog k.instructions k.source) := by
  rw [resolve, decide]
  refine .bind (P := Tells k.catalog k.instructions k.source) ?_
    fun a ha => .after fun _ => .pure ha
  simp only
  split
  · exact .pure rfl
  · split
    · exact .pure rfl
    · split
      · exact .pure (Bool.or_false _).symm
      · exact ensures_assignMatched_tells

end Matching

/-! ## Plans -/

/-- The hooks of a plan. -/
def Plan.hooks (p : Plan) : List Hook := p.before.toList ++ p.after.toList

lemma Plan.fallible_iff (p : Plan) :
    p.fallible = true
      ↔ (∃ a ∈ p.assignments, a.fallible = true) ∨ ∃ h ∈ p.hooks, h.fallible = true := by
  obtain ⟨assignments, before, after⟩ := p
  cases before <;> cases after <;> simp [Plan.fallible, Plan.hooks, or_assoc]

namespace Planner

variable (k : Planner)

/-- A hook tells what the catalog knows of its function. -/
lemma ensures_hook (kind : String) (f : Option FunctionRef) :
    Ensures (k.hook kind f) fun found =>
      ∀ h ∈ found, h.fallible = k.catalog.functionFails h.function := by
  cases f with
  | none => exact .pure fun h hh => absurd hh (by simp)
  | some f =>
      simp only [hook]
      split
      · rename_i habsent
        refine .after fun _ => .pure fun h hh => ?_
        obtain rfl := Option.mem_some_iff.1 hh
        rw [Catalog.functionFails, habsent]
        rfl
      · rename_i info hinfo
        have hknown : ∀ h ∈ some (Hook.mk f.name info.fallible),
            h.fallible = k.catalog.functionFails h.function := by
          intro h hh
          obtain rfl := Option.mem_some_iff.1 hh
          rw [Catalog.functionFails, hinfo]
          rfl
        split
        case' h_1 => refine .after fun returnsNothing => ?_
        case' h_2 => refine .after fun r => .after fun returnsNothing => ?_
        all_goals
          split
          · exact .throw _
          · exact .pure hknown

/-- The structure of a source. -/
def source? (source : TypeId) : Option StructInfo :=
  match k.catalog.structOf source with
  | .ok s => s
  | .error _ => none

/-- Whether a part of a plan calls something that is known to fail. -/
def callsFailing (i : Instructions) (source : TypeId) : Assignment → Bool
  | .delegateLoop _ _ _ delegate _ => k.delegateFlag delegate
  | a => (k.source? source).any (a.callsFailing k.catalog i)

/-- Whether a part of a plan loses what is known of a path. -/
def loses (i : Instructions) (source : TypeId) (a : Assignment) : Bool :=
  (k.source? source).any (a.loses k.catalog i)

variable {k} in
lemma not_fallible_of_loses {i : Instructions} {source : TypeId} {a : Assignment}
    (h : k.loses i source a = true) : a.fallible = false := by
  obtain ⟨s, -, hs⟩ := (Option.any_eq_true ..).1 h
  cases a with
  | converter field path function byReference fallible =>
      simp only [Assignment.loses, Bool.and_eq_true, Bool.not_eq_true'] at hs
      exact hs.1.1
  | copy _ _ => rfl
  | _ => exact absurd hs (by simp [Assignment.loses])

/-- A part of a plan tells what is known of its calls, but for what it loses. -/
def Tells (i : Instructions) (source : TypeId) (a : Assignment) : Prop :=
  k.callsFailing i source a = (a.fallible || k.loses i source a)

variable {k} {i : Instructions} {source target : TypeId}

/-- The assignment of a field tells as much as a part of a plan. -/
lemma tells_of_field {s : StructInfo} (hs : k.catalog.structOf source = .ok (some s))
    {a : Assignment} (htells : a.Tells k.catalog i s) (hfield : a.isLoop = false) :
    k.Tells i source a := by
  have hsource : k.source? source = some s := by rw [source?, hs]
  rw [Tells, loses, hsource, Option.any_some, ← htells]
  cases a with
  | delegateLoop _ _ _ _ _ => exact absurd hfield (by simp [Assignment.isLoop])
  | _ => simp only [callsFailing, hsource, Option.any_some]

lemma ensures_loop_tells (method : String) (element : StructInfo) (anchor : Position) :
    Ensures (k.loop method i source target element anchor) (k.Tells i source) := by
  rw [loop]
  split
  · exact .throw _
  · rename_i f _
    refine .bind (k.ensures_delegateFails f) fun b hb => .after fun _ => .after fun _ =>
      .after fun _ => .pure ?_
    rw [Tells, callsFailing, ← hb, loses]
    cases k.source? source <;> simp [Assignment.loses, Assignment.fallible]

lemma ensures_assignments_tells (method : String) (anchor : Position) :
    Ensures (k.assignments method i source target anchor) fun as =>
      ∀ a ∈ as, k.Tells i source a := by
  unfold assignments
  simp only
  refine .after fun s' => .after fun t' => ?_
  split
  · refine .bind (ensures_loop_tells method _ anchor) fun a ha => .pure fun b hb => ?_
    exact List.mem_singleton.1 hb ▸ ha
  · refine .bind (.known fun s hs => hs) fun s hs => .after fun t => ?_
    split
    · rename_i s t
      rw [fields]
      refine .bind (.mapM (fun f a ha => ?_) t.fields) fun as has => .after fun _ => .pure has
      exact tells_of_field hs (Matching.ensures_resolve_tells a ha)
        (Matching.ensures_resolve _ f a ha)
    · exact .after fun _ => .pure fun a ha => absurd ha List.not_mem_nil

/-- Whatever of a plan calls something that is known to fail is said to fail, and so is the plan. -/
structure KeepsFailures (k : Planner) (i : Instructions) (source : TypeId) (plan : Plan) :
    Prop where
  assignments : ∀ a ∈ plan.assignments, k.callsFailing i source a = true →
    a.fallible = true ∧ plan.fallible = true
  hooks : ∀ h ∈ plan.hooks, k.catalog.functionFails h.function = true →
    h.fallible = true ∧ plan.fallible = true

/-- **The flags of a plan tell what is known of its calls, but for what is lost on paths.**  Nothing
else can be lost: known failures are kept exactly if no assignment loses one. -/
theorem failures_known {method : String} {anchor : Position} {plan : Plan}
    (h : (k.plan method i source target anchor).outcome.value = .ok plan) :
    (∀ h ∈ plan.hooks, h.fallible = k.catalog.functionFails h.function)
      ∧ (∀ a ∈ plan.assignments, k.Tells i source a)
      ∧ (k.KeepsFailures i source plan ↔ ∀ a ∈ plan.assignments, k.loses i source a = false) := by
  have hplan : Ensures (k.plan method i source target anchor) fun plan =>
      (∀ h ∈ plan.hooks, h.fallible = k.catalog.functionFails h.function)
        ∧ ∀ a ∈ plan.assignments, k.Tells i source a := by
    rw [Planner.plan]
    refine .bind (k.ensures_hook _ _) fun before hbefore => .bind (k.ensures_hook _ _) fun after
      hafter => .bind (ensures_assignments_tells method anchor) fun as has => .pure ⟨?_, has⟩
    intro h hh
    rw [Plan.hooks, List.mem_append, Option.mem_toList, Option.mem_toList] at hh
    exact hh.elim (hbefore h) (hafter h)
  obtain ⟨hhooks, htells⟩ := hplan plan h
  refine ⟨hhooks, htells, fun hkeeps a ha => ?_, fun hnone => ⟨fun a ha hcalls => ?_,
    fun h hh hcalls => ?_⟩⟩
  · by_contra hloses
    rw [Bool.not_eq_false] at hloses
    have hcalls := htells a ha
    rw [Tells, hloses, Bool.or_true] at hcalls
    exact absurd ((hkeeps.assignments a ha hcalls).1) (by simp [not_fallible_of_loses hloses])
  · have hfallible : a.fallible = true := by
      have ha' := htells a ha
      rwa [Tells, hcalls, hnone a ha, Bool.or_false, eq_comm] at ha'
    exact ⟨hfallible, plan.fallible_iff.2 (.inl ⟨a, ha, hfallible⟩)⟩
  · have hfallible : h.fallible = true := (hhooks h hh).trans hcalls
    exact ⟨hfallible, plan.fallible_iff.2 (.inr ⟨h, hh, hfallible⟩)⟩

/-! ### A label that is validated -/

/-- A pet with a label that can be validated, which can fail. -/
def validating : Planner where
  catalog := { Catalog.empty with
    types := #[⟨⟨0⟩, "String", .basic⟩, ⟨⟨1⟩, "Pet", .struct ⟨0⟩⟩]
    structs := #[⟨"Pet", "", [⟨"label", ⟨0⟩, none, false, false⟩],
      [⟨"validate", 0, some ⟨0⟩, true⟩]⟩] }
  siblings := .empty

/-- The failure of a validation that is called by an override is kept. -/
theorem validating_keepsFailures :
    let i := { Instructions.default with methodOverrides := Keyed.empty.insert "label" "validate" }
    validating.KeepsFailures i ⟨1⟩ ⟨[.method "label" "validate" true], none, none⟩ := by
  intro i
  have h : (validating.plan "pet" i ⟨1⟩ ⟨1⟩ ⟨"pets.rs", 1, 1⟩).outcome.value
      = .ok ⟨[.method "label" "validate" true], none, none⟩ := rfl
  refine (failures_known h).2.2.2 fun a ha => ?_
  rw [List.mem_singleton] at ha
  subst ha
  rfl

/-- **A method that is known to fail is called on a path, and the plan is not said to fail.** -/
theorem exists_lost :
    ∃ (i : Instructions) (plan : Plan),
      (validating.plan "pet" i ⟨1⟩ ⟨1⟩ ⟨"pets.rs", 1, 1⟩).outcome.value = .ok plan
        ∧ i.explicitPath? "label" = some "validate()"
        ∧ .copy "label" "validate()" ∈ plan.assignments
        ∧ validating.callsFailing i ⟨1⟩ (.copy "label" "validate()") = true
        ∧ plan.fallible = false := by
  refine ⟨{ Instructions.default with fieldOverrides := Keyed.empty.insert "label" "validate()" },
    ⟨[.copy "label" "validate()"], none, none⟩, rfl, rfl, List.mem_singleton_self _, ?_, rfl⟩
  decide +kernel

end Planner

end FieldCopy
