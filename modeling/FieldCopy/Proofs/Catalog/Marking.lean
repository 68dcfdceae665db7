import Mathlib
import FieldCopy.Proofs.Catalog.Naming
import FieldCopy.Proofs.Catalog.Pointers

/-!
# Marked types and types that turn into text

A type is marked as it is, and it is asked for with all pointers looked through.  So the mark of a
pointer is never looked at.

**Operations.**  `Catalog.Permits`: each operation is given numbers only that stand for something by
then.  What is marked are the types that operations marked (`Catalog.mem_stringers_ofOperations`),
in whatever order.

**Main statement.**  `Catalog.isStringer_ofOperations`: a type is said to turn into text exactly if
the type at which its pointers end was marked.  `Catalog.exists_forgotten_mark`: there are marked
types of which this is not said.
-/

namespace FieldCopy.Catalog

/-- Operations that a catalog permits, one after the other: each is given numbers only that stand
for something by then. -/
def Permits : Catalog → List Operation → Prop
  | _, [] => True
  | c, op :: ops => (∀ n ∈ op.given, c.Knows n) ∧ Permits (op.apply c) ops

instance decidablePermits : (c : Catalog) → (ops : List Operation) → Decidable (c.Permits ops)
  | _, [] => inferInstanceAs (Decidable True)
  | c, op :: ops =>
      have := decidablePermits (op.apply c) ops
      inferInstanceAs (Decidable ((∀ n ∈ op.given, c.Knows n) ∧ (op.apply c).Permits ops))

variable {c : Catalog} {ops : List Operation}

/-! ## What is known -/

/-- An operation that is permitted keeps a catalog sound, and what is known. -/
lemma Sound.apply (hc : c.Sound) {op : Operation} (given : ∀ n ∈ op.given, c.Knows n) :
    (op.apply c).Sound ∧ ∀ n, c.Knows n → (op.apply c).Knows n := by
  obtain ⟨answers, c', hrun⟩ := Operation.run_ok hc given
  have hextends := Operation.run_extends hrun
  rw [Operation.apply, hrun]
  exact ⟨hextends.sound hc given, hextends.knows⟩

/-- **Operations that are permitted keep a catalog sound.**  What is known and what they are given
is known afterwards. -/
lemma Permits.after (h : c.Permits ops) (hc : c.Sound) :
    (c.after ops).Sound ∧ (∀ n, c.Knows n → (c.after ops).Knows n)
      ∧ ∀ op ∈ ops, ∀ n ∈ op.given, (c.after ops).Knows n := by
  induction ops generalizing c with
  | nil => exact ⟨hc, fun _ hn => hn, fun _ hop => absurd hop List.not_mem_nil⟩
  | cons op ops ih =>
      obtain ⟨hsound, hknows⟩ := hc.apply h.1
      obtain ⟨hsound, hlater, hgiven⟩ := ih h.2 hsound
      refine ⟨hsound, fun n hn => hlater n (hknows n hn), fun other hother n hn => ?_⟩
      rcases List.mem_cons.1 hother with rfl | hother
      · exact hlater n (hknows n (h.1 n hn))
      · exact hgiven other hother n hn

/-! ## What is marked -/

lemma mem_stringers_markStringer {id t : TypeId} :
    t ∈ (c.markStringer id).stringers ↔ t ∈ c.stringers ∨ t = id := by
  rw [markStringer]
  split
  · rename_i hmarked
    rw [List.contains_iff_mem] at hmarked
    exact ⟨.inl, fun h => h.elim (fun hbefore => hbefore) fun hid => hid ▸ hmarked⟩
  · rw [List.mem_append, List.mem_singleton]

/-- An operation marks what it says and nothing else. -/
lemma mem_stringers_apply (c : Catalog) (op : Operation) (t : TypeId) :
    t ∈ (op.apply c).stringers ↔ t ∈ c.stringers ∨ op = .markStringer t := by
  rw [(Operation.tables_of_apply c op).2]
  cases op with
  | markStringer id => rw [mem_stringers_markStringer, Operation.markStringer.injEq, eq_comm]
  | _ => simp

lemma mem_stringers_after (c : Catalog) (ops : List Operation) (t : TypeId) :
    t ∈ (c.after ops).stringers ↔ t ∈ c.stringers ∨ .markStringer t ∈ ops := by
  induction ops generalizing c with
  | nil => rw [or_iff_left List.not_mem_nil]; rfl
  | cons op ops ih =>
      rw [after, List.foldl_cons, ← after, ih, mem_stringers_apply, List.mem_cons, or_assoc,
        eq_comm]

/-- **What is marked are the types that operations marked.** -/
theorem mem_stringers_ofOperations (ops : List Operation) (t : TypeId) :
    t ∈ (ofOperations ops).stringers ↔ .markStringer t ∈ ops := by
  rw [ofOperations, mem_stringers_after, or_iff_right]
  exact List.not_mem_nil

/-! ## What is said to turn into text -/

/-- What is said of a type is whether the type behind all pointers is marked. -/
lemma EndsAt.isStringer {id last : TypeId} (h : c.EndsAt id last) :
    c.isStringer id = .ok (c.stringers.contains last) := by
  rw [Catalog.isStringer, h.strip]
  rfl

/-- A type that is no pointer is where its pointers end. -/
lemma EndsAt.eq_self {id last : TypeId} (h : c.EndsAt id last) (hid : ∀ e, ¬ c.Points id e) :
    last = id := by
  rcases h.leads.cases_head with rfl | ⟨next, hnext, -⟩
  · rfl
  · exact absurd hnext (hid next)

/-- **Which types are said to turn into text.**  Every type that was marked is known, and of every
known type it is said exactly if the type at which its pointers end was marked.  So it is said of a
marked type that is no pointer, and of none that leads to no marked type; the mark of a pointer is
not looked at. -/
theorem isStringer_ofOperations (ops : List Operation) (permitted : Catalog.empty.Permits ops) :
    (∀ t, .markStringer t ∈ ops → (ofOperations ops).Knows (.type t))
      ∧ ∀ t, (ofOperations ops).Knows (.type t) → ∃ last answer,
        (ofOperations ops).EndsAt t last
          ∧ (ofOperations ops).finished.isStringer t = .ok answer
          ∧ (answer = true ↔ .markStringer last ∈ ops)
          ∧ (.markStringer t ∈ ops → (∀ e, ¬ (ofOperations ops).Points t e) → answer = true)
          ∧ (answer = true → ∃ marked, .markStringer marked ∈ ops
            ∧ Relation.ReflTransGen (ofOperations ops).Points t marked) := by
  obtain ⟨hsound, -, hgiven⟩ := permitted.after sound_empty
  refine ⟨fun t ht => hgiven _ ht (.type t) (List.mem_singleton_self _), fun t ht => ?_⟩
  obtain ⟨last, hends⟩ := hsound.ends ht
  have hanswer : (ofOperations ops).stringers.contains last = true ↔ .markStringer last ∈ ops := by
    rw [List.contains_iff_mem, mem_stringers_ofOperations]
  refine ⟨last, _, hends, ?_, hanswer, fun hmarked hid => ?_, fun htrue => ?_⟩
  · rw [(namesMatch_ofOperations ops).finished_eq]
    exact hends.isStringer
  · obtain rfl := hends.eq_self hid
    exact hanswer.2 hmarked
  · exact ⟨last, hanswer.1 htrue, hends.leads⟩

/-- A pointer to a marked type turns into text. -/
theorem boxedPet_isStringer :
    let ops : List Operation := [.declareStruct "Pet" "", .structType ⟨0⟩, .markStringer ⟨0⟩,
      .pointerTo "Box" ⟨0⟩]
    Catalog.empty.Permits ops ∧ (ofOperations ops).finished.isStringer ⟨1⟩ = .ok true := by
  intro ops
  have permitted : Catalog.empty.Permits ops := by decide
  obtain ⟨last, answer, hends, hanswer, hmarked, -⟩ :=
    (isStringer_ofOperations ops permitted).2 ⟨1⟩ (by decide)
  have hlast : last = ⟨0⟩ := Except.ok.inj (hends.strip.symm.trans (by decide))
  obtain rfl := hmarked.2 (by simp [hlast, ops])
  exact ⟨permitted, hanswer⟩

/-- **The mark of a pointer is forgotten.**  It is not said to turn into text, as what it points to
was not marked. -/
theorem exists_forgotten_mark : ¬ ∀ (ops : List Operation) (t : TypeId),
    Catalog.empty.Permits ops → .markStringer t ∈ ops →
      (ofOperations ops).finished.isStringer t = .ok true := by
  intro h
  have hboxed := h [.declareStruct "Pet" "", .structType ⟨0⟩, .pointerTo "Box" ⟨0⟩,
    .markStringer ⟨1⟩] ⟨1⟩ (by decide) (by simp)
  exact absurd hboxed (by decide)

end FieldCopy.Catalog
