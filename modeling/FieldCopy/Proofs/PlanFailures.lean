import Mathlib
import FieldCopy.Proofs.Grounded
import FieldCopy.Proofs.PlanShapes

/-!
# When planning fails

Between known types of a closed catalog planning fails for three reasons only: the function that is
to be called before cannot be called as a hook, or the one that is to be called after cannot, or the
elements of a slice are to be converted and nobody says by what.  What cannot be done for a field is
no reason.

**Exact failures.**  `Attempt.FailsExactly x F` says that an attempt fails with exactly the faults
that have the property `F`.  Of two attempts in a row the second one matters only if the first
cannot fail (`FailsExactly.bind`); so the first reason is the one that is told.

**Main statement.**  `Planner.plan_fails_iff`, in terms of `Planner.Refuses`.
-/

namespace FieldCopy

open Attempt Catalog

/-! ## Exact failures -/

namespace Attempt

variable {α β : Type} {F G : Fault → Prop}

/-- An attempt fails with exactly the faults that have a property. -/
def FailsExactly (x : Attempt α) (F : Fault → Prop) : Prop := ∀ e, x.outcome.value = .error e ↔ F e

namespace FailsExactly

lemma throw (e : Fault) : FailsExactly (MonadExcept.throw e : Attempt α) (· = e) := by
  intro d
  change Except.error e = .error d ↔ d = e
  rw [Except.error.injEq, eq_comm]

lemma of_succeeds {x : Attempt α} (hx : Succeeds x) : FailsExactly x fun _ => False :=
  fun e => ⟨fun he => hx.ne_error e he, False.elim⟩

lemma iff {x : Attempt α} (hx : FailsExactly x F) (h : ∀ e, F e ↔ G e) : FailsExactly x G :=
  fun e => (hx e).trans (h e)

/-- An attempt that a test can end. -/
lemma tested (p : Prop) [Decidable p] (d : Fault) {x : Attempt α} (hx : Succeeds x) :
    FailsExactly (if p then MonadExcept.throw d else x) fun e => p ∧ e = d := by
  split
  · rename_i hp
    exact (throw d).iff fun e => (and_iff_right hp).symm
  · rename_i hp
    exact (of_succeeds hx).iff fun e => ⟨False.elim, fun he => absurd he.1 hp⟩

/-- An attempt succeeds if there is nothing that it could fail with. -/
lemma succeeds_iff {x : Attempt α} (hx : FailsExactly x F) : Succeeds x ↔ ∀ e, ¬ F e := by
  cases h : x.outcome.value with
  | ok a =>
      refine iff_of_true ⟨a, h⟩ fun e he => ?_
      rw [← hx e, h] at he
      simp at he
  | error e => exact iff_of_false (fun hs => hs.ne_error e h) fun hnone => hnone e ((hx e).1 h)

/-- Of two attempts the first one fails, or it cannot and the second one does. -/
lemma bind {x : Attempt α} {f : α → Attempt β} (hx : FailsExactly x F)
    (hf : ∀ a, FailsExactly (f a) G) :
    FailsExactly (x >>= f) fun e => F e ∨ (∀ d, ¬ F d) ∧ G e := by
  intro e
  cases h : x.outcome.value with
  | ok a =>
      have hnone : ∀ d, ¬ F d := hx.succeeds_iff.1 ⟨a, h⟩
      rw [(outcome_bind_ok h f).1, hf a e]
      simp only [hnone, false_or, not_false_eq_true, implies_true, true_and]
  | error d =>
      have hd : F d := (hx d).1 h
      have he : d = e ↔ F e := by rw [← hx e, h, Except.error.injEq]
      rw [(outcome_bind_error h f).1, Except.error.injEq, he]
      exact ⟨.inl, fun h => h.resolve_right fun hnone => hnone.1 d hd⟩

/-- What succeeds afterwards does not matter. -/
lemma before {x : Attempt α} {f : α → Attempt β} (hx : FailsExactly x F)
    (hf : ∀ a, Succeeds (f a)) : FailsExactly (x >>= f) F :=
  (hx.bind fun a => of_succeeds (hf a)).iff fun e => by simp

/-- A look-up that finds something is passed over. -/
lemma after_known {x : Except Dangling α} {a : α} (hx : x = .ok a) {f : α → Attempt β}
    (hf : FailsExactly (f a) F) : FailsExactly (Attempt.known x >>= f) F := by
  rw [hx, known, pure_bind]
  exact hf

lemma failsOnly {x : Attempt α} (hx : FailsExactly x F) (h : ∀ e, F e → G e) : FailsOnly x G :=
  fun e he => h e ((hx e).1 he)

end FailsExactly

end Attempt

/-- A fault that is no dangling number. -/
def Fault.IsGrounded (f : Fault) : Prop := ∀ d, f ≠ .dangling d

namespace Planner

/-! ## Reasons -/

section

variable (k : Planner) (i : Instructions) (source target : TypeId) (anchor : Position)

/-- A function of the catalog cannot be called as a hook: it takes fewer than two arguments, or it
gives something. -/
def Unusable (f : FunctionRef) : Prop :=
  ∃ info, k.catalog.function? f.name = some info
    ∧ (info.parameters.length < 2
      ∨ ∃ result t, info.result = some result ∧ k.catalog.type? result = some t ∧ t.name ≠ "()")

/-- The fault of a hook that cannot be called, at the place of its directive. -/
def hookFault (kind : String) (f : FunctionRef) : Fault :=
  .misconfigured f.position (.unusableHook f.name kind)

/-- What planning fails with: the first of the reasons that there are. -/
inductive Refuses : Fault → Prop where
  | before {f : FunctionRef} (given : i.before = some f) (unusable : k.Unusable f) :
      Refuses (hookFault "preprocess" f)
  | after {f : FunctionRef} (usable : ∀ b, i.before = some b → ¬ k.Unusable b)
      (given : i.after = some f) (unusable : k.Unusable f) : Refuses (hookFault "postprocess" f)
  | delegate (usable : ∀ b, i.before = some b → ¬ k.Unusable b)
      (usableAfter : ∀ b, i.after = some b → ¬ k.Unusable b)
      (elements : k.BetweenElements source target) (missing : i.delegate = none) :
      Refuses (.misconfigured anchor .noDelegate)

end

variable {k : Planner} {i : Instructions} {source target : TypeId} {anchor : Position}

/-! ## Steps -/

/-- A hook fails if it cannot be called.  One that is not given or not known does not fail. -/
lemma hook_failsExactly (hc : k.catalog.IsClosed) (kind : String) (hook : Option FunctionRef) :
    FailsExactly (k.hook kind hook) fun e =>
      ∃ f, hook = some f ∧ k.Unusable f ∧ e = hookFault kind f := by
  cases hook with
  | none => exact (FailsExactly.of_succeeds (.pure none)).iff fun e => by simp
  | some f =>
      suffices h : FailsExactly (k.hook kind (some f)) fun e =>
          k.Unusable f ∧ e = hookFault kind f from h.iff fun e => by simp
      rw [hook]
      split
      · rename_i habsent
        have husable : ¬ k.Unusable f := by
          rintro ⟨info, hinfo, -⟩
          simp [habsent] at hinfo
        exact (FailsExactly.of_succeeds (.after (.warnAt _ _) fun _ => .pure _)).iff
          fun e => by simp [husable]
      · rename_i info hinfo
        simp only
        split
        · rename_i hresult
          rw [pure_bind]
          exact (FailsExactly.tested _ _ (.pure _)).iff fun e => by
            simp [Unusable, hookFault, hinfo, hresult]
        · rename_i result hresult
          have hknown : k.catalog.Knows (.type result) := by
            refine knows_function hc.stored hinfo (List.mem_append_right _ ?_)
            rw [hresult]
            exact List.mem_singleton_self _
          obtain ⟨t, ht, htype⟩ := hknown.typeAt
          refine .after_known htype ?_
          rw [pure_bind]
          exact (FailsExactly.tested _ _ (.pure _)).iff fun e => by
            simp [Unusable, hookFault, hinfo, hresult, ht]

lemma delegateFails_succeeds (f : FunctionRef) : Succeeds (k.delegateFails f) := by
  rw [delegateFails]
  split
  · exact .pure _
  · split
    · exact .pure _
    · exact .after (.warnAt _ _) fun _ => .pure _

variable {method : String}

/-- A loop between known types fails if there is no delegate. -/
lemma loop_failsExactly (hsource : k.catalog.Knows (.type source))
    (htarget : k.catalog.Knows (.type target)) (element : StructInfo) :
    FailsExactly (k.loop method i source target element anchor) fun e =>
      i.delegate = none ∧ e = .misconfigured anchor .noDelegate := by
  obtain ⟨s, -, hs⟩ := hsource.typeAt
  obtain ⟨t, -, ht⟩ := htarget.typeAt
  rw [loop]
  split
  · rename_i hmissing
    exact (FailsExactly.throw _).iff fun e => (and_iff_right hmissing).symm
  · rename_i f hgiven
    refine (FailsExactly.of_succeeds ?_).iff fun e => by simp [hgiven]
    exact .after (delegateFails_succeeds f) fun _ => .after (.log _ _) fun _ =>
      .after_known ht (.after_known hs (.pure _))

/-- **No field makes a conversion between structures fail.** -/
lemma fields_succeeds (hc : k.catalog.IsClosed) {s t : StructInfo}
    (hs : ∃ id, k.catalog.struct? id = some s) (ht : ∃ id, k.catalog.struct? id = some t) :
    Succeeds (k.fields method i s t anchor) := by
  obtain ⟨id, hid⟩ := ht
  have hplaced : (⟨k.catalog, i, s, method, anchor⟩ : Matching).Placed := ⟨hc, hs⟩
  refine .after (.mapM fun f hf => ?_) fun _ => .after (.log _ _) fun _ => .pure _
  exact hplaced.resolve_succeeds (knows_field hc.stored hid hf)

lemma noteWhole_succeeds (hsource : k.catalog.Knows (.type source))
    (htarget : k.catalog.Knows (.type target)) : Succeeds (k.noteWhole method source target) := by
  obtain ⟨s, -, hs⟩ := hsource.typeAt
  obtain ⟨t, -, ht⟩ := htarget.typeAt
  exact .after_known hs (.after_known ht (.log _ _))

/-- In a closed catalog no end is lost. -/
lemma not_lost (hc : k.catalog.IsClosed) (hsource : k.catalog.Knows (.type source))
    (htarget : k.catalog.Knows (.type target)) {d : Dangling} : ¬ k.Lost source target d := by
  rintro ⟨e, he, hlost⟩
  have hknown : k.catalog.Knows (.type e) := by
    rcases he with rfl | rfl
    · exact hsource
    · exact htarget
  obtain ⟨_, helements⟩ := hc.elementStructOf hknown
  obtain ⟨_, hstruct⟩ := hc.structOf hknown
  simp [helements, hstruct] at hlost

/-- The assignments fail if both ends are slices of structures and there is no delegate. -/
lemma assignments_failsExactly (hc : k.catalog.IsClosed) (hsource : k.catalog.Knows (.type source))
    (htarget : k.catalog.Knows (.type target)) :
    FailsExactly (k.assignments method i source target anchor) fun e =>
      k.BetweenElements source target ∧ i.delegate = none
        ∧ e = .misconfigured anchor .noDelegate := by
  have hmade := k.assignments_made method i source target anchor
  generalize k.assignments method i source target anchor = x at hmade ⊢
  cases hmade with
  | dangling lost => exact absurd lost (not_lost hc hsource htarget)
  | @elements s t hs ht =>
      have helements : k.BetweenElements source target := ⟨⟨s, hs⟩, t, ht⟩
      exact ((loop_failsExactly hsource htarget t).before fun _ => .pure _).iff
        fun e => (and_iff_right helements).symm
  | fields apart hs ht =>
      refine (FailsExactly.of_succeeds ?_).iff fun e => by simp [apart]
      exact fields_succeeds hc hs.exists_struct? ht.exists_struct?
  | whole apart _ =>
      refine (FailsExactly.of_succeeds ?_).iff fun e => by simp [apart]
      exact .after (noteWhole_succeeds hsource htarget) fun _ => .pure _

/-! ## Plans -/

/-- Planning fails with what is refused, and with nothing else. -/
lemma plan_failsExactly (hc : k.catalog.IsClosed) (hsource : k.catalog.Knows (.type source))
    (htarget : k.catalog.Knows (.type target)) :
    FailsExactly (k.plan method i source target anchor) (k.Refuses i source target anchor) := by
  have hassignments : FailsExactly (k.assignments method i source target anchor) _ :=
    assignments_failsExactly hc hsource htarget
  have hplan := (hook_failsExactly hc "preprocess" i.before).bind fun before =>
    (hook_failsExactly hc "postprocess" i.after).bind fun after =>
      hassignments.before fun as => .pure (⟨as, before, after⟩ : Plan)
  refine hplan.iff fun e => ⟨?_, ?_⟩
  · rintro (⟨f, hf, hunusable, rfl⟩ | ⟨husable, ⟨f, hf, hunusable, rfl⟩ | ⟨husableAfter, h⟩⟩)
    · exact .before hf hunusable
    · exact .after (fun b hb hu => husable _ ⟨b, hb, hu, rfl⟩) hf hunusable
    · obtain ⟨helements, hmissing, rfl⟩ := h
      exact .delegate (fun b hb hu => husable _ ⟨b, hb, hu, rfl⟩)
        (fun b hb hu => husableAfter _ ⟨b, hb, hu, rfl⟩) helements hmissing
  · intro h
    cases h with
    | before given unusable => exact .inl ⟨_, given, unusable, rfl⟩
    | after usable given unusable =>
        refine .inr ⟨?_, .inl ⟨_, given, unusable, rfl⟩⟩
        rintro d ⟨b, hb, hu, -⟩
        exact usable b hb hu
    | delegate usable usableAfter elements missing =>
        refine .inr ⟨?_, .inr ⟨?_, elements, missing, rfl⟩⟩
        · rintro d ⟨b, hb, hu, -⟩
          exact usable b hb hu
        · rintro d ⟨b, hb, hu, -⟩
          exact usableAfter b hb hu

/-- Something is refused if there is a reason. -/
lemma exists_refuses_iff : (∃ e, k.Refuses i source target anchor e) ↔
    (∃ f, i.before = some f ∧ k.Unusable f) ∨ (∃ f, i.after = some f ∧ k.Unusable f)
      ∨ (k.BetweenElements source target ∧ i.delegate = none) := by
  constructor
  · rintro ⟨e, h⟩
    cases h with
    | before given unusable => exact .inl ⟨_, given, unusable⟩
    | after _ given unusable => exact .inr (.inl ⟨_, given, unusable⟩)
    | delegate _ _ elements missing => exact .inr (.inr ⟨elements, missing⟩)
  · intro h
    by_cases hbefore : ∃ f, i.before = some f ∧ k.Unusable f
    · obtain ⟨f, hf, hunusable⟩ := hbefore
      exact ⟨_, .before hf hunusable⟩
    · have husable : ∀ b, i.before = some b → ¬ k.Unusable b := fun b hb hu => hbefore ⟨b, hb, hu⟩
      by_cases hafter : ∃ f, i.after = some f ∧ k.Unusable f
      · obtain ⟨f, hf, hunusable⟩ := hafter
        exact ⟨_, .after husable hf hunusable⟩
      · obtain ⟨helements, hmissing⟩ := (h.resolve_left hbefore).resolve_left hafter
        exact ⟨_, .delegate husable (fun b hb hu => hafter ⟨b, hb, hu⟩) helements hmissing⟩

/-- **Planning between known types never fails with a dangling number.** -/
theorem plan_failsOnly (hc : k.catalog.Sound) (method : String) (i : Instructions)
    (hsource : k.catalog.Knows (.type source)) (htarget : k.catalog.Knows (.type target))
    (anchor : Position) :
    FailsOnly (k.plan method i source target anchor) Fault.IsGrounded := by
  refine (plan_failsExactly hc.closed hsource htarget).failsOnly fun e h d => ?_
  cases h <;> simp [hookFault]

/-- **Planning fails for three reasons.**  The fault is that of the function to be called before, if
it cannot be called; else that of the function to be called after; else the want of a delegate for
the elements of a slice.  Between structures it fails for a hook only, whatever the fields, the
overrides, the converters and the types are. -/
theorem plan_fails_iff (hc : k.catalog.IsClosed) (hsource : k.catalog.Knows (.type source))
    (htarget : k.catalog.Knows (.type target)) :
    (∀ e, (k.plan method i source target anchor).outcome.value = .error e
        ↔ k.Refuses i source target anchor e)
      ∧ ((∃ e, (k.plan method i source target anchor).outcome.value = .error e)
        ↔ (∃ f, i.before = some f ∧ k.Unusable f) ∨ (∃ f, i.after = some f ∧ k.Unusable f)
          ∨ (k.BetweenElements source target ∧ i.delegate = none))
      ∧ (k.BetweenStructs source target →
        ((∃ plan, (k.plan method i source target anchor).outcome.value = .ok plan)
          ↔ ∀ f, i.before = some f ∨ i.after = some f → ¬ k.Unusable f)) := by
  have hplan : FailsExactly (k.plan method i source target anchor) _ :=
    plan_failsExactly hc hsource htarget
  refine ⟨hplan, ?_, fun hstructs => ?_⟩
  · rw [← exists_refuses_iff]
    exact exists_congr hplan
  · refine hplan.succeeds_iff.trans ⟨fun h f hf hunusable => ?_, fun h e he => ?_⟩
    · obtain ⟨e, he⟩ := exists_refuses_iff.2 (hf.elim (fun hf => .inl ⟨f, hf, hunusable⟩)
        fun hf => .inr (.inl ⟨f, hf, hunusable⟩))
      exact h e he
    · cases he with
      | before given unusable => exact h _ (.inl given) unusable
      | after _ given unusable => exact h _ (.inr given) unusable
      | delegate _ _ elements _ =>
          obtain ⟨⟨s, hs⟩, -⟩ := hstructs
          obtain ⟨⟨e, he⟩, -⟩ := elements
          exact hs.not_elements he

/-- A kennel of pets that is copied, with a function that takes one argument. -/
def kennelCopy : Planner where
  catalog := { Catalog.empty with
    types := #[⟨⟨0⟩, "Pet", .struct ⟨0⟩⟩, ⟨⟨1⟩, "Vec<Pet>", .slice ⟨0⟩⟩,
      ⟨⟨2⟩, "&Vec<Pet>", .pointer ⟨1⟩⟩]
    structs := #[⟨"Pet", "", [], []⟩]
    functions := Keyed.empty.insert "note" ⟨"note", [⟨0⟩], none, false⟩ }
  siblings := .empty

lemma kennelCopy_closed : kennelCopy.catalog.IsClosed :=
  (sound_of_storedNumbers (by decide) (by decide)).closed

/-- The elements have no delegate, and what is to be called behind takes one argument only. -/
theorem kennelCopy_refused :
    let line (n : Nat) : Position := ⟨"pets.rs", n, 5⟩
    let noting : Instructions := { Instructions.default with after := some ⟨"note", line 3⟩ }
    kennelCopy.Refuses noting ⟨2⟩ ⟨1⟩ (line 4)
        (.misconfigured (line 3) (.unusableHook "note" "postprocess"))
      ∧ kennelCopy.Refuses .default ⟨2⟩ ⟨1⟩ (line 4) (.misconfigured (line 4) .noDelegate)
      ∧ (∃ plan, (kennelCopy.plan "copy" .default ⟨0⟩ ⟨0⟩ (line 4)).outcome.value = .ok plan)
      ∧ kennelCopy.BetweenStructs ⟨0⟩ ⟨0⟩ := by
  intro line noting
  have hknows : ∀ n : Nat, n < 3 → kennelCopy.catalog.Knows (.type ⟨n⟩) := fun _ hn => hn
  have hstructs : kennelCopy.BetweenStructs ⟨0⟩ ⟨0⟩ := by
    have hpet : kennelCopy.catalog.LeadsToStruct ⟨0⟩ ⟨"Pet", "", [], []⟩ :=
      (structOf_eq_some_iff rfl _).1 rfl
    exact ⟨⟨_, hpet⟩, _, hpet⟩
  have hfails (i : Instructions) (e : Fault) :
      (kennelCopy.plan "copy" i ⟨2⟩ ⟨1⟩ (line 4)).outcome.value = .error e
        ↔ kennelCopy.Refuses i ⟨2⟩ ⟨1⟩ (line 4) e :=
    (plan_fails_iff kennelCopy_closed (hknows 2 (by decide)) (hknows 1 (by decide))).1 e
  refine ⟨(hfails noting _).1 (by decide +kernel), (hfails .default _).1 (by decide +kernel), ?_,
    hstructs⟩
  refine ((plan_fails_iff kennelCopy_closed (hknows 0 (by decide)) (hknows 0 (by decide))).2.2
    hstructs).2 fun f hf => ?_
  simp [Instructions.default] at hf

end Planner

end FieldCopy
