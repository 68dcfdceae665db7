import Mathlib
import FieldCopy.Proofs.Matching.Outcomes
import FieldCopy.Proofs.Matching.Members

/-!
# Fields that nothing matches

Where no directive is about a field, its name decides.  It is left unmatched if the source has no
member of that name under the case rule; but one method of a name is looked at only, and so a method
that is no getter hides the getters behind it.

**Main statement.**  `Matching.resolve_noMatch_iff`: when a field is left unmatched, and that
methods with distinct names hide nothing.
-/

namespace FieldCopy

open Attempt

namespace Instructions

variable {i : Instructions} {a b c : String}

lemma sameName_comm (i : Instructions) (a b : String) : i.sameName a b = i.sameName b a := by
  rw [sameName, sameName, sameIgnoringCase_comm a b, Bool.beq_comm]

lemma sameName_trans (hab : i.sameName a b = true) (hbc : i.sameName b c = true) :
    i.sameName a c = true := by
  simp only [sameName, sameIgnoringCase] at *
  cases hcase : i.caseSensitive <;> simp_all

end Instructions

namespace Matching

variable (k : Matching) (field : FieldInfo)

/-- No directive is about the field, and fields are matched by their names. -/
structure Plain : Prop where
  rule : k.instructions.matching = .name
  literal : k.literal? field = none
  kept : k.instructions.skipped field.name = false
  method : k.methodOverride? field = none
  converter : k.converter? field = none
  source : k.sourceOverride? field = none

/-- A method of the source that takes nothing, gives a value and cannot fail has the name of the
field. -/
def HasGetter : Prop :=
  ∃ m ∈ k.source.methods, m.isGetter = true
    ∧ k.instructions.sameName m.name field.name = true

/-- No member of the source that may be used has the name of the field. -/
structure NothingMatches : Prop where
  fields : ∀ f ∈ k.source.fields, k.instructions.sameName f.name field.name = false
  getters : k.instructions.getters = true → ¬ k.HasGetter field

/-- A getter has the name of the field, but the name stands for a method that is none. -/
structure HidesGetter : Prop where
  fields : ∀ f ∈ k.source.fields, k.instructions.sameName f.name field.name = false
  allowed : k.instructions.getters = true
  getter : k.HasGetter field
  hides : ∃ m, StandsFor MethodInfo.name k.source.methods field.name k.instructions.caseSensitive m
    ∧ m.isGetter = false

variable {k field}

/-! ## The member that matches -/

lemma ofMethod?_eq_none_iff {m : MethodInfo} : ofMethod? m = none ↔ m.isGetter = false := by
  rw [ofMethod?]
  split
  · rename_i hgetter
    have hresult : m.result.isSome = true := by
      simp only [MethodInfo.isGetter, Bool.and_eq_true] at hgetter
      exact hgetter.1.2
    obtain ⟨t, ht⟩ := Option.isSome_iff_exists.1 hresult
    simp [ht, hgetter]
  · rename_i hnone
    simpa using hnone

/-- No getter matches if none has the name, or if the name stands for a method that is none. -/
lemma matchingGetter?_eq_none_iff (allowed : k.instructions.getters = true) :
    k.matchingGetter? field = none ↔ ¬ k.HasGetter field
      ∨ ∃ m, StandsFor MethodInfo.name k.source.methods field.name k.instructions.caseSensitive m
        ∧ m.isGetter = false := by
  rw [matchingGetter?, if_pos allowed, StructInfo.method?]
  cases h : findNamed? MethodInfo.name k.source.methods field.name k.instructions.caseSensitive with
  | none =>
      have hmissing := (findNamed?_eq_none_iff k.instructions).1 h
      refine iff_of_true rfl (.inl ?_)
      rintro ⟨m, hm, -, hsame⟩
      simp [hmissing m hm] at hsame
  | some m =>
      have hstands := findNamed?_eq_some_iff.1 h
      rw [Option.bind_some, ofMethod?_eq_none_iff]
      refine ⟨fun hm => .inr ⟨m, hstands, hm⟩, ?_⟩
      rintro (hnone | ⟨m', hstands', hm'⟩)
      · rw [← Bool.not_eq_true]
        exact fun hgetter => hnone ⟨m, hstands.mem, hgetter, hstands.sameName⟩
      · have heq : m = m' := Option.some.inj (h.symm.trans (findNamed?_eq_some_iff.2 hstands'))
        rwa [heq]

/-- No member matches if there is none, or if a getter is hidden. -/
lemma accessor?_eq_none_iff (rule : k.instructions.matching = .name) :
    k.accessor? field = none ↔ k.NothingMatches field ∨ k.HidesGetter field := by
  have hfields : k.matchingField? field = none
      ↔ ∀ f ∈ k.source.fields, k.instructions.sameName f.name field.name = false := by
    rw [matchingField?, rule]
    exact findNamed?_eq_none_iff k.instructions
  have haccessor : k.accessor? field = none
      ↔ k.matchingField? field = none ∧ k.matchingGetter? field = none := by
    rw [accessor?, Option.orElse_eq_none, Option.map_eq_none_iff]
  rw [haccessor, hfields]
  cases hallowed : k.instructions.getters with
  | false =>
      have hnone : k.matchingGetter? field = none := by rw [matchingGetter?, hallowed]; rfl
      refine ⟨fun h => .inl ⟨h.1, fun h => absurd (hallowed.symm.trans h) (by simp)⟩, ?_⟩
      rintro (h | h)
      · exact ⟨h.fields, hnone⟩
      · exact absurd (hallowed.symm.trans h.allowed) (by simp)
  | true =>
      rw [matchingGetter?_eq_none_iff hallowed]
      constructor
      · rintro ⟨hfields, hgetter⟩
        by_cases hhas : k.HasGetter field
        · exact .inr ⟨hfields, hallowed, hhas, hgetter.resolve_left (not_not_intro hhas)⟩
        · exact .inl ⟨hfields, fun _ => hhas⟩
      · rintro (h | h)
        · exact ⟨h.fields, .inl (h.getters hallowed)⟩
        · exact ⟨h.fields, .inr h.hides⟩

/-! ## What matching says -/

/-- A plain field is left unmatched if no member matches. -/
lemma resolve_noMatch_iff_accessor (plain : k.Plain field) :
    (k.resolve field).outcome.value = .ok (.skip field.name .noMatch)
      ↔ k.accessor? field = none := by
  constructor
  · intro h
    have hassigned : ∀ m, ¬ k.Assigned field m (.skip field.name .noMatch) := by
      intro m hm
      cases hm
    cases ensures_resolve_outcome _ h with
    | matched _ _ _ hmatched =>
        cases hmatched with
        | converter given _ => exact absurd (plain.converter.symm.trans given) (by simp)
        | followed _ _ _ assigned => exact absurd assigned (hassigned _)
        | member _ _ _ _ assigned => exact absurd assigned (hassigned _)
        | missing _ _ _ absent => exact absent
  · intro h
    have hliteral := plain.literal
    have hmethod := plain.method
    have hconverter := plain.converter
    have hsource := plain.source
    rw [literal?] at hliteral
    rw [methodOverride?] at hmethod
    rw [converter?] at hconverter
    rw [sourceOverride?] at hsource
    rw [resolve, decide]
    unfold assignMatched
    simp only [hliteral, plain.kept, hmethod, hconverter, hsource, plain.rule, h]
    rfl

/-- Methods with distinct names under the case rule hide no getter. -/
lemma not_hidesGetter
    (distinct : ∀ m ∈ k.source.methods, ∀ n ∈ k.source.methods,
      k.instructions.sameName m.name n.name = true → m = n) : ¬ k.HidesGetter field := by
  intro h
  obtain ⟨g, hg, hgetter, hsame⟩ := h.getter
  obtain ⟨m, hm, hnone⟩ := h.hides
  have hnames : k.instructions.sameName m.name g.name = true := by
    rw [Instructions.sameName_comm] at hsame
    exact Instructions.sameName_trans hm.sameName hsame
  have heq : m = g := distinct m hm.mem g hg hnames
  rw [heq, hgetter] at hnone
  simp at hnone

/-- **When a field is left unmatched.**  A field that no directive is about is left unmatched if no
member of the source has its name under the case rule, and besides if the name stands for a method
that is no getter while another one of that name is.  The latter is the only case in which something
that matches is missed; it needs two methods whose names are the same under the case rule. -/
theorem resolve_noMatch_iff (plain : k.Plain field) :
    ((k.resolve field).outcome.value = .ok (.skip field.name .noMatch)
        ↔ k.NothingMatches field ∨ k.HidesGetter field)
      ∧ (k.NothingMatches field → ¬ k.HidesGetter field)
      ∧ ((∀ m ∈ k.source.methods, ∀ n ∈ k.source.methods,
          k.instructions.sameName m.name n.name = true → m = n) →
        ((k.resolve field).outcome.value = .ok (.skip field.name .noMatch)
          ↔ k.NothingMatches field)) := by
  have hiff := (resolve_noMatch_iff_accessor plain).trans (accessor?_eq_none_iff plain.rule)
  refine ⟨hiff, fun h h' => h.getters h'.allowed h'.getter, fun distinct => hiff.trans ?_⟩
  exact or_iff_left (not_hidesGetter distinct)

/-- A pet with two methods whose names differ in case, the first of which takes an argument. -/
def labelled (caseSensitive : Bool) : Matching where
  catalog := { Catalog.empty with types := #[⟨⟨0⟩, "String", .basic⟩] }
  instructions := { Instructions.default with caseSensitive := caseSensitive, getters := true }
  source := ⟨"Pet", "", [], [⟨"LABEL", 1, some ⟨0⟩, false⟩, ⟨"Label", 0, some ⟨0⟩, false⟩]⟩
  method := "card"
  anchor := ⟨"pets.rs", 4, 5⟩

/-- A label. -/
def label : FieldInfo := ⟨"label", ⟨0⟩, none, false, false⟩

lemma labelled_plain (caseSensitive : Bool) : (labelled caseSensitive).Plain label :=
  by cases caseSensitive <;> exact ⟨rfl, rfl, rfl, rfl, rfl, rfl⟩

lemma labelled_hasGetter : (labelled false).HasGetter label :=
  ⟨_, List.mem_cons_of_mem _ List.mem_cons_self, rfl, by decide⟩

/-- Ignoring case, the getter is hidden; otherwise it has another name. -/
theorem labelled_unmatched :
    ((labelled false).resolve label).outcome.value = .ok (.skip "label" .noMatch)
      ∧ (labelled true).NothingMatches label := by
  have hhides : (labelled false).HidesGetter label :=
    { fields := by simp [labelled]
      allowed := rfl
      getter := labelled_hasGetter
      hides := ⟨⟨"LABEL", 1, some ⟨0⟩, false⟩, findNamed?_eq_some_iff.1 (by decide), rfl⟩ }
  have hdistinct : ∀ m ∈ (labelled true).source.methods, ∀ n ∈ (labelled true).source.methods,
      (labelled true).instructions.sameName m.name n.name = true → m = n := by decide
  refine ⟨(resolve_noMatch_iff (labelled_plain false)).1.2 (.inr hhides), ?_⟩
  exact ((resolve_noMatch_iff (labelled_plain true)).2.2 hdistinct).1 rfl

/-- Something matches, and still the field is left unmatched. -/
theorem labelled_hidden :
    (labelled false).Plain label
      ∧ ((labelled false).resolve label).outcome.value = .ok (.skip "label" .noMatch)
      ∧ ¬ (labelled false).NothingMatches label :=
  ⟨labelled_plain false, rfl, fun h => h.getters rfl labelled_hasGetter⟩

end Matching

end FieldCopy
