import Mathlib
import FieldCopy.Proofs.Catalog.Pointers
import FieldCopy.Proofs.Matching.Outcomes

/-!
# What a plan consists of

What a plan looks like is decided by where pointers lead from the two ends of a conversion.  Between
slices of structures it is one loop; between structures it has one assignment for each field of the
destination, in the order of declaration; between anything else it is empty.

**Ways.**  The look-ups at the ends are gone through once (`Planner.assignments_made`).  What is
proved of assignments behind that has one case for each way of making them (`Planner.Made`).

**Fields do not disturb each other.**  The assignment of a field is what matching this field alone
gives (`Attempt.Ensures.mapM_forall₂`): what was recorded for the fields in front of it does not
matter.

**Main statement.**  `Planner.plan_shaped`: a plan has the one of these shapes that its ends ask for
(`Planner.Shaped`), whatever the catalog, the directives and the siblings are.
-/

namespace FieldCopy

open Attempt

/-- What is done to each of a list is what is done to it alone. -/
lemma Attempt.Ensures.mapM_forall₂ {α β : Type} (f : α → Attempt β) :
    ∀ l : List α,
      Ensures (l.mapM f) fun bs => List.Forall₂ (fun a b => (f a).outcome.value = .ok b) l bs
  | [] => by
      rw [List.mapM_nil]
      exact .pure .nil
  | a :: l => by
      rw [List.mapM_cons]
      exact .bind (fun _ hb => hb) fun b hb =>
        .bind (mapM_forall₂ f l) fun bs hbs => .pure (.cons hb hbs)

/-- What stands in the second list is related to something in the first. -/
lemma exists_of_mem_right {α β : Type} {R : α → β → Prop} {l : List α} {l' : List β}
    (h : List.Forall₂ R l l') {b : β} (hb : b ∈ l') : ∃ a ∈ l, R a b := by
  induction h with
  | nil => exact absurd hb List.not_mem_nil
  | @cons a _ _ _ related _ ih =>
      rcases List.mem_cons.1 hb with rfl | hb
      · exact ⟨a, List.mem_cons_self, related⟩
      · obtain ⟨a', ha', hrelated⟩ := ih hb
        exact ⟨a', List.mem_cons_of_mem _ ha', hrelated⟩

/-! ## Fields keep their names -/

namespace Matching

variable {k : Matching} {field : FieldInfo} {a : Assignment}

lemma Called.target_eq {name source function : String} (h : k.Called name source function a) :
    a.target = name := by
  cases h <;> rfl

lemma Assigned.target_eq {m : Accessor} (h : k.Assigned field m a) : a.target = field.name := by
  cases h <;> rfl

lemma Matched.target_eq (h : k.Matched field a) : a.target = field.name := by
  cases h with
  | converter _ call => exact call.target_eq
  | followed _ _ _ assigned | member _ _ _ _ assigned => exact assigned.target_eq
  | trusted _ _ _ | disabled _ _ _ | missing _ _ _ _ => rfl

/-- **Whatever a field comes to keeps its name.** -/
theorem Outcome.target_eq (h : k.Outcome field a) : a.target = field.name := by
  cases h with
  | matched _ _ _ matched => exact matched.target_eq
  | literal _ | skipped _ _ | method _ _ _ => rfl

end Matching

/-! ## Shapes -/

namespace Planner

variable (k : Planner) (method : String) (i : Instructions) (source target : TypeId)
  (anchor : Position)

/-- An assignment is what matching a field of the destination alone comes to: it produces the field
of that name and is no loop. -/
structure FieldShaped (s : StructInfo) (field : FieldInfo) (a : Assignment) : Prop where
  target : a.target = field.name
  single : a.isLoop = false
  alone : (Matching.resolve ⟨k.catalog, i, s, method, anchor⟩ field).outcome.value = .ok a

/-- Both ends are slices of structures. -/
def BetweenElements : Prop :=
  (∃ s, k.catalog.LeadsToElements source s) ∧ ∃ t, k.catalog.LeadsToElements target t

/-- Both ends are structures. -/
def BetweenStructs : Prop :=
  (∃ s, k.catalog.LeadsToStruct source s) ∧ ∃ t, k.catalog.LeadsToStruct target t

/-- A look-up of an end of a conversion leads nowhere. -/
def Lost (d : Dangling) : Prop :=
  ∃ e, (e = source ∨ e = target)
    ∧ (k.catalog.elementStructOf e = .error d ∨ k.catalog.structOf e = .error d)

/-- The ways in which the assignments of a plan are made.  Where its ends lead decides which of them
it is. -/
inductive Made : Attempt (List Assignment) → Prop where
  | dangling {d : Dangling} (lost : k.Lost source target d) : Made (throw (.dangling d))
  | elements {s t : StructInfo} (sourceElements : k.catalog.LeadsToElements source s)
      (targetElements : k.catalog.LeadsToElements target t) :
      Made (do pure [← k.loop method i source target t anchor])
  | fields {s t : StructInfo} (apart : ¬ k.BetweenElements source target)
      (sourceStruct : k.catalog.LeadsToStruct source s)
      (targetStruct : k.catalog.LeadsToStruct target t) : Made (k.fields method i s t anchor)
  | whole (apart : ¬ k.BetweenElements source target)
      (unlike : ¬ k.BetweenStructs source target) :
      Made (do k.noteWhole method source target; pure [])

/-- **The assignments of a plan are made in one of these ways.** -/
theorem assignments_made :
    k.Made method i source target anchor (k.assignments method i source target anchor) := by
  unfold assignments
  simp only
  cases hse : k.catalog.elementStructOf source with
  | error d => exact .dangling ⟨source, .inl rfl, .inl hse⟩
  | ok se =>
      cases hte : k.catalog.elementStructOf target with
      | error d => exact .dangling ⟨target, .inr rfl, .inl hte⟩
      | ok te =>
          replace hse := Catalog.elementStructOf_eq_some_iff hse
          replace hte := Catalog.elementStructOf_eq_some_iff hte
          simp only [known, pure_bind]
          split
          · exact .elements ((hse _).1 rfl) ((hte _).1 rfl)
          · rename_i hapart
            have hnone : ¬ k.BetweenElements source target := by
              rintro ⟨⟨s, hs⟩, t, ht⟩
              exact hapart s t ((hse s).2 hs) ((hte t).2 ht)
            cases hss : k.catalog.structOf source with
            | error d => exact .dangling ⟨source, .inl rfl, .inr hss⟩
            | ok ss =>
                cases hts : k.catalog.structOf target with
                | error d => exact .dangling ⟨target, .inr rfl, .inr hts⟩
                | ok ts =>
                    replace hss := Catalog.structOf_eq_some_iff hss
                    replace hts := Catalog.structOf_eq_some_iff hts
                    simp only [pure_bind]
                    split
                    · exact .fields hnone ((hss _).1 rfl) ((hts _).1 rfl)
                    · rename_i hwhole
                      refine .whole hnone ?_
                      rintro ⟨⟨s, hs⟩, t, ht⟩
                      exact hwhole s t ((hss s).2 hs) ((hts t).2 ht)

/-- The assignments of a plan are those that its ends ask for. -/
structure Shaped (as : List Assignment) : Prop where
  /-- Between slices of structures, one loop that calls the delegate. -/
  elements : ∀ s t, k.catalog.LeadsToElements source s → k.catalog.LeadsToElements target t →
    ∃ f a b, i.delegate = some f ∧ k.catalog.type? source = some a
      ∧ k.catalog.type? target = some b
      ∧ as = [.delegateLoop b.name a.name t.path f.name (k.delegateFlag f.name)]
  /-- Between structures, one assignment for each field, in order. -/
  fields : ¬ k.BetweenElements source target →
    ∀ s t, k.catalog.LeadsToStruct source s → k.catalog.LeadsToStruct target t →
      List.Forall₂ (k.FieldShaped method i anchor s) t.fields as
  /-- Between other types, nothing. -/
  whole : ¬ k.BetweenElements source target → ¬ k.BetweenStructs source target → as = []

variable {k method i source target anchor} in
/-- An assignment that is no loop comes of a field of the destination. -/
lemma Shaped.exists_field {as : List Assignment} (h : k.Shaped method i source target anchor as)
    {a : Assignment} (ha : a ∈ as) (single : a.isLoop = false) :
    ∃ s t field, k.catalog.LeadsToStruct source s ∧ k.catalog.LeadsToStruct target t
      ∧ field ∈ t.fields ∧ k.FieldShaped method i anchor s field a := by
  by_cases helements : k.BetweenElements source target
  · obtain ⟨⟨s, hs⟩, t, ht⟩ := helements
    obtain ⟨f, b, d, -, -, -, rfl⟩ := h.elements s t hs ht
    obtain rfl := List.mem_singleton.1 ha
    exact absurd single (by simp [Assignment.isLoop])
  · by_cases hstructs : k.BetweenStructs source target
    · obtain ⟨⟨s, hs⟩, t, ht⟩ := hstructs
      obtain ⟨field, hfield, hshaped⟩ := exists_of_mem_right (h.fields helements s t hs ht) ha
      exact ⟨s, t, field, hs, ht, hfield, hshaped⟩
    · rw [h.whole helements hstructs] at ha
      exact absurd ha List.not_mem_nil

variable {k method i source target anchor} in
/-- What a field of the destination comes to is assigned. -/
lemma Shaped.mem_of_field {as : List Assignment} (h : k.Shaped method i source target anchor as)
    {s t : StructInfo} (hs : k.catalog.LeadsToStruct source s)
    (ht : k.catalog.LeadsToStruct target t) {field : FieldInfo} (hfield : field ∈ t.fields)
    {a : Assignment}
    (ha : (Matching.resolve ⟨k.catalog, i, s, method, anchor⟩ field).outcome.value = .ok a) :
    a ∈ as := by
  have hfields := h.fields (fun helements => hs.not_elements helements.1.choose_spec) s t hs ht
  obtain ⟨b, hb, hshaped⟩ := exists_of_mem_right (List.Forall₂.flip hfields) hfield
  rwa [Except.ok.inj (ha.symm.trans hshaped.alone)]

lemma ensures_loop_eq (element : StructInfo) :
    Ensures (k.loop method i source target element anchor) fun assignment =>
      ∃ f a b, i.delegate = some f ∧ k.catalog.type? source = some a
        ∧ k.catalog.type? target = some b
        ∧ assignment
          = .delegateLoop b.name a.name element.path f.name (k.delegateFlag f.name) := by
  rw [loop]
  split
  · exact .throw _
  · rename_i f hf
    refine .bind (k.ensures_delegateFails f) fun fails hfails => .after fun _ =>
      .bind (.known fun b hb => hb) fun b hb => .bind (.known fun a ha => ha) fun a ha => .pure ?_
    refine ⟨f, a, b, hf, Catalog.type?_of_typeAt ha, Catalog.type?_of_typeAt hb, ?_⟩
    rw [hfails]

lemma ensures_fields_shaped (s t : StructInfo) :
    Ensures (k.fields method i s t anchor) fun as =>
      List.Forall₂ (k.FieldShaped method i anchor s) t.fields as := by
  rw [fields]
  refine .bind (.mapM_forall₂ _ _) fun as has => .after fun _ => .pure (has.imp fun f a ha => ?_)
  exact ⟨(Matching.ensures_resolve_outcome a ha).target_eq, Matching.ensures_resolve _ f a ha, ha⟩

lemma ensures_assignments_shaped :
    Ensures (k.assignments method i source target anchor)
      (k.Shaped method i source target anchor) := by
  have hmade := k.assignments_made method i source target anchor
  generalize k.assignments method i source target anchor = x at hmade ⊢
  cases hmade with
  | dangling _ => exact .throw _
  | @elements s t hs ht =>
      refine .bind (k.ensures_loop_eq method i source target anchor t) fun a ha => .pure ?_
      have hboth : k.BetweenElements source target := ⟨⟨s, hs⟩, t, ht⟩
      refine ⟨fun s' t' _ ht' => ?_, fun h => absurd hboth h, fun h => absurd hboth h⟩
      obtain rfl := ht.unique ht'
      obtain ⟨f, a, b, hf, ha, hb, rfl⟩ := ha
      exact ⟨f, a, b, hf, ha, hb, rfl⟩
  | @fields s t apart hs ht =>
      refine fun as has => ⟨fun s' t' hs' ht' => absurd ⟨⟨s', hs'⟩, t', ht'⟩ apart,
        fun _ s' t' hs' ht' => ?_, fun _ h => absurd ⟨⟨s, hs⟩, t, ht⟩ h⟩
      obtain rfl := hs.unique hs'
      obtain rfl := ht.unique ht'
      exact k.ensures_fields_shaped method i anchor _ _ as has
  | whole apart unlike =>
      exact .after fun _ => .pure ⟨fun s t hs ht => absurd ⟨⟨s, hs⟩, t, ht⟩ apart,
        fun _ s t hs ht => absurd ⟨⟨s, hs⟩, t, ht⟩ unlike, fun _ _ => rfl⟩

lemma ensures_plan_shaped :
    Ensures (k.plan method i source target anchor) fun plan =>
      k.Shaped method i source target anchor plan.assignments := by
  rw [Planner.plan]
  exact .after fun _ => .after fun _ =>
    .bind (k.ensures_assignments_shaped method i source target anchor) fun _ has => .pure has

variable {k method i source target anchor}

/-- **A plan consists of what its ends ask for:** one loop that calls the delegate between slices of
structures, the assignments of the fields between structures, each as it is for the field alone, and
nothing between other types. -/
theorem plan_shaped {plan : Plan}
    (h : (k.plan method i source target anchor).outcome.value = .ok plan) :
    k.Shaped method i source target anchor plan.assignments :=
  k.ensures_plan_shaped method i source target anchor plan h

/-- A pet is made into a card, whose second field no member of the pet matches. -/
def petCards : Planner where
  catalog := { Catalog.empty with
    types := #[⟨⟨0⟩, "String", .basic⟩, ⟨⟨1⟩, "Pet", .struct ⟨0⟩⟩, ⟨⟨2⟩, "&Pet", .pointer ⟨1⟩⟩,
      ⟨⟨3⟩, "Card", .struct ⟨1⟩⟩]
    structs := #[⟨"Pet", "", [⟨"label", ⟨0⟩, none, false, false⟩], []⟩,
      ⟨"Card", "", [⟨"label", ⟨0⟩, none, false, false⟩, ⟨"owner", ⟨0⟩, none, false, false⟩], []⟩] }
  siblings := .empty

/-- The plan for a card has an assignment for each of its two fields. -/
theorem petCards_shaped :
    ∃ pet card, petCards.catalog.structs.toList = [pet, card]
      ∧ (petCards.plan "card" .default ⟨2⟩ ⟨3⟩ ⟨"pets.rs", 1, 1⟩).outcome.value
        = .ok ⟨[.copy "label" "label", .skip "owner" .noMatch], none, none⟩
      ∧ List.Forall₂ (petCards.FieldShaped "card" .default ⟨"pets.rs", 1, 1⟩ pet) card.fields
        [.copy "label" "label", .skip "owner" .noMatch] := by
  have hplan : (petCards.plan "card" .default ⟨2⟩ ⟨3⟩ ⟨"pets.rs", 1, 1⟩).outcome.value
      = .ok ⟨[.copy "label" "label", .skip "owner" .noMatch], none, none⟩ := rfl
  refine ⟨_, _, rfl, hplan, (plan_shaped hplan).fields ?_ _ _ ?_ ?_⟩
  · rintro ⟨⟨s, hs⟩, -⟩
    have hnone : petCards.catalog.elementStructOf ⟨2⟩ = .ok none := rfl
    exact absurd ((Catalog.elementStructOf_eq_some_iff hnone s).2 hs) (by simp)
  · exact (Catalog.structOf_eq_some_iff rfl _).1 rfl
  · exact (Catalog.structOf_eq_some_iff rfl _).1 rfl

end Planner

end FieldCopy
