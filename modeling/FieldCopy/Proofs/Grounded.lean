import Mathlib
import FieldCopy.Proofs.Loops
import FieldCopy.Proofs.Matching.Members

/-!
# Matching with known numbers

Matching looks numbers up: those of the fields, and those that it finds in the catalog.  In a closed
catalog all of them stand for something if those of the fields do, so no look-up fails, and matching
does nothing else that could.

**Attempts that succeed.**  `Attempt.Succeeds x` says that an attempt gives something.  A look-up
that finds something can be passed over (`Succeeds.after_known`).  `Attempt.FailsOnly x F` says that
whatever an attempt fails with has the property `F`.

**Main statement.**  `Matching.Placed.resolve_succeeds`: matching a field gives an assignment.
-/

namespace FieldCopy

namespace Attempt

variable {α β : Type} {F : Fault → Prop}

/-- Whatever an attempt fails with has a property. -/
def FailsOnly (x : Attempt α) (F : Fault → Prop) : Prop := ∀ f, x.outcome.value = .error f → F f

/-- An attempt gives something. -/
def Succeeds (x : Attempt α) : Prop := ∃ a, x.outcome.value = .ok a

namespace Succeeds

lemma pure (a : α) : Succeeds (Pure.pure a : Attempt α) := ⟨a, rfl⟩

lemma log (l : Level) (m : String) : Succeeds (Attempt.log l m) := ⟨(), rfl⟩

lemma warnAt (p : Position) (m : String) : Succeeds (Attempt.warnAt p m) := ⟨(), rfl⟩

lemma after {x : Attempt α} {f : α → Attempt β} (hx : Succeeds x) (hf : ∀ a, Succeeds (f a)) :
    Succeeds (x >>= f) := by
  obtain ⟨a, ha⟩ := hx
  obtain ⟨b, hb⟩ := hf a
  exact ⟨b, (outcome_bind_ok ha f).1.trans hb⟩

/-- A look-up that finds something is passed over. -/
lemma after_known {x : Except Dangling α} {a : α} (hx : x = .ok a) {f : α → Attempt β}
    (hf : Succeeds (f a)) : Succeeds (Attempt.known x >>= f) := by
  rw [hx, known, pure_bind]
  exact hf

lemma mapM {f : α → Attempt β} : ∀ {l : List α}, (∀ a ∈ l, Succeeds (f a)) → Succeeds (l.mapM f)
  | [], _ => by
      rw [List.mapM_nil]
      exact pure []
  | a :: l, hf => by
      rw [List.mapM_cons]
      refine after (hf a List.mem_cons_self) fun b => after ?_ fun bs => pure _
      exact mapM fun d hd => hf d (List.mem_cons_of_mem a hd)

lemma ne_error {x : Attempt α} (hx : Succeeds x) (f : Fault) : x.outcome.value ≠ .error f := by
  obtain ⟨a, ha⟩ := hx
  rw [ha]
  simp

/-- An attempt that succeeds fails with nothing. -/
lemma failsOnly {x : Attempt α} (hx : Succeeds x) : FailsOnly x F :=
  fun f hf => absurd hf (hx.ne_error f)

end Succeeds

end Attempt

open Attempt Catalog

namespace Matching

/-! ## Members -/

section

variable {c : Catalog} {s : StructInfo} {id : StructId}

/-- The members of a structure are of known types. -/
lemma Member.knows (hc : c.IsClosed) (hs : c.struct? id = some s) {a : Accessor} (h : Member s a) :
    c.Knows (.type a.type) := by
  cases h with
  | field declared => exact knows_field hc.stored hs declared
  | getter declared _ result => exact knows_methodResult hc.stored hs declared result

/-- A path can be followed until it ends or leaves the catalog, and it ends at a known type. -/
lemma follow_ends (hc : c.IsClosed) (caseSensitive : Bool) : ∀ (segments done : List String)
    {s : StructInfo} {id : StructId}, c.struct? id = some s →
    ∃ found, follow c caseSensitive s done segments = .ok found
      ∧ ∀ a, found = some a → c.Knows (.type a.type)
  | [], done, s, _, _ => ⟨none, rfl, fun _ h => absurd h (by simp)⟩
  | segment :: rest, done, s, id, hs => by
      rw [follow]
      split
      · exact ⟨none, rfl, fun _ h => absurd h (by simp)⟩
      · rename_i m hm
        have hknown := (member?_member hm).knows hc hs
        simp only
        split
        · refine ⟨_, rfl, fun a ha => ?_⟩
          obtain rfl := Option.some.inj ha
          exact hknown
        · obtain ⟨found, hfound⟩ := hc.structOf hknown
          rw [hfound, Catalog.ok_bind]
          split
          · obtain ⟨d, hd⟩ := Catalog.exists_struct?_of_structOf hfound
            exact follow_ends hc caseSensitive rest _ hd
          · exact ⟨none, rfl, fun _ h => absurd h (by simp)⟩

end

/-- The catalog is sound, and the source is one of its structures. -/
structure Grounded (k : Matching) : Prop where
  sound : k.catalog.Sound
  source : ∃ id, k.catalog.struct? id = some k.source

/-- The catalog is closed, and the source is one of its structures. -/
structure Placed (k : Matching) : Prop where
  closed : k.catalog.IsClosed
  source : ∃ id, k.catalog.struct? id = some k.source

variable {k : Matching}

lemma Grounded.placed (h : k.Grounded) : k.Placed := ⟨h.sound.closed, h.source⟩

namespace Placed

lemma resolvePath (h : k.Placed) (path : String) :
    ∃ found, k.resolvePath path = .ok found
      ∧ ∀ a, found = some a → k.catalog.Knows (.type a.type) :=
  h.source.elim fun _ hid => follow_ends h.closed _ _ _ hid

lemma accessor? (h : k.Placed) {field : FieldInfo} {a : Accessor}
    (ha : k.accessor? field = some a) : k.catalog.Knows (.type a.type) :=
  h.source.elim fun _ hid => (accessor?_member ha).knows h.closed hid

/-! ## Assignments -/

lemma converterCall_succeeds (h : k.Placed) (field source function : String) :
    Succeeds (k.converterCall field source function) := by
  rw [converterCall]
  split
  · exact .pure _
  · rename_i f hf
    split
    · rename_i input result hparameters hresult
      have hinput : k.catalog.Knows (.type input) := by
        refine knows_function h.closed.stored hf (List.mem_append_left _ ?_)
        rw [hparameters]
        exact List.mem_singleton_self _
      obtain ⟨t, -, ht⟩ := hinput.typeAt
      exact .after_known ht (.pure _)
    · exact .after (.warnAt _ _) fun _ => .pure _

lemma assignMember_succeeds (h : k.Placed) {field : FieldInfo} {m : Accessor}
    (hfield : k.catalog.Knows (.type field.type)) (hm : k.catalog.Knows (.type m.type)) :
    Succeeds (k.assignMember field m) := by
  obtain ⟨source, -, hsource⟩ := hm.typeAt
  obtain ⟨target, -, htarget⟩ := hfield.typeAt
  obtain ⟨stringer, hstringer⟩ := h.closed.isStringer hm
  rw [assignMember]
  refine .after_known hsource (.after_known htarget ?_)
  split
  · split <;> exact .pure _
  · simp only
    split
    case' isTrue => refine .after_known hstringer ?_
    case' isFalse => refine .after (.pure false) fun stringer => ?_
    all_goals
      split
      · exact .pure _
      · split
        · exact .pure _
        · exact .after (.warnAt _ _) fun _ => .pure _

lemma assignFound_succeeds (h : k.Placed) {field : FieldInfo} {m : Accessor}
    (hfield : k.catalog.Knows (.type field.type)) (hm : k.catalog.Knows (.type m.type))
    (c : Option Converter) : Succeeds (k.assignFound field m c) := by
  cases c with
  | some c => exact h.converterCall_succeeds field.name m.path c.function
  | none => exact h.assignMember_succeeds hfield hm

lemma assignTrusted_succeeds (h : k.Placed) (field path : String) (c : Option Converter) :
    Succeeds (k.assignTrusted field path c) := by
  unfold assignTrusted
  refine .after (.log _ _) fun _ => ?_
  cases c with
  | some c => exact h.converterCall_succeeds field path c.function
  | none => exact .pure _

lemma assignMatched_succeeds (h : k.Placed) {field : FieldInfo}
    (hfield : k.catalog.Knows (.type field.type)) : Succeeds (k.assignMatched field) := by
  unfold assignMatched
  simp only
  split
  · rename_i path _
    obtain ⟨found, hfound, hknown⟩ := h.resolvePath path
    refine .after_known hfound ?_
    cases found with
    | some m => exact h.assignFound_succeeds hfield (hknown m rfl) _
    | none => exact h.assignTrusted_succeeds field.name path _
  · split
    · exact .pure _
    · split
      · rename_i m _ ha
        exact h.assignFound_succeeds hfield (h.accessor? ha) _
      · exact h.assignTrusted_succeeds field.name field.name _
      · exact .after (.warnAt _ _) fun _ => .pure _

/-- **Matching a field gives an assignment,** whatever the directives say of it and whatever the
types are. -/
theorem resolve_succeeds (h : k.Placed) {field : FieldInfo}
    (hfield : k.catalog.Knows (.type field.type)) : Succeeds (k.resolve field) := by
  rw [resolve, decide]
  refine .after ?_ fun _ => .after (.log _ _) fun _ => .pure _
  simp only
  split
  · exact .pure _
  · split
    · exact .pure _
    · split
      · exact .pure _
      · exact h.assignMatched_succeeds hfield

end Placed

/-- Matching a field does not fail. -/
theorem resolve_failsOnly {F : Fault → Prop} (h : k.Grounded) {field : FieldInfo}
    (hfield : k.catalog.Knows (.type field.type)) : FailsOnly (k.resolve field) F :=
  (h.placed.resolve_succeeds hfield).failsOnly

end Matching

end FieldCopy
