import Mathlib
import FieldCopy.Proofs.KnownFailures
import FieldCopy.Proofs.Matching.Members
import FieldCopy.Proofs.Matching.Spelling
import FieldCopy.Proofs.PlanShapes

/-!
# Matching by tags without tags

A field without a tag is serialized under its name, so where no field has one, matching by tags
compares the same names as matching by names.  The two search in different ways, though.  By tags
the first field counts whose name is the same under the case rule; by names one that has the name
itself goes before those that differ in case only.

**Ties.**  The two searches find the same, unless a field that differs in case only stands in front
of all that have the name itself (`Preempted`, `find?_sameName_eq_findNamed?_iff`).

**Main statement.**  `Planner.plan_untagged`: without such a tie the plans are the same, with all
that is recorded on the way; and with one they differ, or the field is left alone in both.
-/

namespace FieldCopy

open Attempt

/-- No field of a structure has a tag. -/
def StructInfo.Untagged (s : StructInfo) : Prop := ∀ f ∈ s.fields, f.tag = none

lemma FieldInfo.key_of_untagged {f : FieldInfo} (h : f.tag = none) : f.key = f.name := by
  rw [FieldInfo.key, h, Option.getD_none]

namespace Instructions

variable (i : Instructions) (r : MatchRule)

/-- The instructions under another match rule. -/
def ruledBy : Instructions := { i with matching := r }

@[simp] lemma ruledBy_caseSensitive : (i.ruledBy r).caseSensitive = i.caseSensitive := rfl

@[simp] lemma ruledBy_literals : (i.ruledBy r).literals = i.literals := rfl

@[simp] lemma ruledBy_methodOverrides : (i.ruledBy r).methodOverrides = i.methodOverrides := rfl

@[simp] lemma override?_ruledBy {α : Type} (table : Keyed α) (field : String) :
    (i.ruledBy r).override? table field = i.override? table field := rfl

@[simp] lemma skipped_ruledBy (field : String) :
    (i.ruledBy r).skipped field = i.skipped field := rfl

end Instructions

/-! ## Two searches -/

section

variable {α : Type} {nameOf : α → String} {items : List α} {name : String}

variable (nameOf items name) in
/-- Ignoring case, an item that differs in case only stands in front of all that have the name
itself, of which there are some. -/
inductive Preempted (caseSensitive : Bool) : Prop where
  | tie {front rest : List α} {j i : α} (ignored : caseSensitive = false)
      (place : items = front ++ j :: rest) (missing : ∀ h ∈ front ++ [j], nameOf h ≠ name)
      (folded : sameIgnoringCase (nameOf j) name = true) (mem : i ∈ rest) (exact : nameOf i = name)

/-- In a tie the first item whose name is the same ignoring case has another name, and some item has
the name itself. -/
lemma Preempted.found {caseSensitive : Bool} (h : Preempted nameOf items name caseSensitive) :
    (∃ g, items.find? (fun j => sameIgnoringCase (nameOf j) name) = some g ∧ nameOf g ≠ name)
      ∧ ∃ e, items.find? (fun j => nameOf j == name) = some e := by
  obtain ⟨-, rfl, missing, folded, mem, exact⟩ := h
  rename_i front rest j i
  -- what is found first stands no later than the item of the tie
  have hfirst : ((front ++ [j]).find? fun h => sameIgnoringCase (nameOf h) name).isSome :=
    List.find?_isSome.2 ⟨j, by simp, folded⟩
  obtain ⟨g, hg⟩ := Option.isSome_iff_exists.1 hfirst
  refine ⟨⟨g, ?_, missing g (List.mem_of_find?_eq_some hg)⟩, ?_⟩
  · rw [List.append_cons, List.find?_append, hg, Option.some_or]
  · exact Option.isSome_iff_exists.1
      (List.find?_isSome.2 ⟨i, by simp [mem], by simpa using exact⟩)

/-- Ignoring case, the item that has the name itself is found first but for a tie. -/
lemma find?_folded_iff {e : α} (hexact : items.find? (fun j => nameOf j == name) = some e) :
    items.find? (fun j => sameIgnoringCase (nameOf j) name) = some e
      ↔ ¬ Preempted nameOf items name false := by
  have hname : nameOf e = name := by simpa using List.find?_some hexact
  have hmem : e ∈ items := List.mem_of_find?_eq_some hexact
  constructor
  · intro hfirst htie
    obtain ⟨⟨g, hg, hgname⟩, -⟩ := htie.found
    obtain rfl := Option.some.inj (hfirst.symm.trans hg)
    exact hgname hname
  · intro hfree
    have hsome : (items.find? fun j => sameIgnoringCase (nameOf j) name).isSome :=
      List.find?_isSome.2 ⟨e, hmem, hname ▸ sameIgnoringCase_refl _⟩
    obtain ⟨g, hg⟩ := Option.isSome_iff_exists.1 hsome
    obtain ⟨hsame, front, rest, hplace, hfront⟩ := List.find?_eq_some_iff_append.1 hg
    have hother : ∀ h ∈ front, nameOf h ≠ name := by
      rintro h hh rfl
      exact absurd (sameIgnoringCase_refl (nameOf h)) (by simpa using hfront h hh)
    by_cases hgname : nameOf g = name
    · have hfirst : items.find? (fun j => nameOf j == name) = some g :=
        List.find?_eq_some_iff_append.2
          ⟨by simpa using hgname, front, rest, hplace, fun h hh => by simpa using hother h hh⟩
      rw [hg, ← hfirst, hexact]
    · refine absurd (.tie rfl hplace (fun h hh => ?_) hsame ?_ hname) hfree
      · rcases List.mem_append.1 hh with hh | hh
        · exact hother h hh
        · rwa [List.mem_singleton.1 hh]
      · rw [hplace, List.mem_append, List.mem_cons] at hmem
        rcases hmem with hmem | rfl | hmem
        · exact absurd hname (hother e hmem)
        · exact absurd hname hgname
        · exact hmem

/-- **The first item of the same name is the one that the name stands for,** but for a tie. -/
lemma find?_sameName_eq_findNamed?_iff (i : Instructions) :
    items.find? (fun j => i.sameName (nameOf j) name)
        = findNamed? nameOf items name i.caseSensitive
      ↔ ¬ Preempted nameOf items name i.caseSensitive := by
  simp only [Instructions.sameName, findNamed?]
  cases i.caseSensitive with
  | true =>
      have hfree : ¬ Preempted nameOf items name true := by
        rintro ⟨ignored, -⟩
        exact absurd ignored (by simp)
      refine iff_of_true ?_ hfree
      simp only [if_true]
      cases items.find? fun j => nameOf j == name <;> rfl
  | false =>
      cases hexact : items.find? fun j => nameOf j == name with
      | none =>
          have hmissing : ∀ j ∈ items, nameOf j ≠ name := by simpa using hexact
          refine iff_of_true rfl ?_
          rintro ⟨-, rfl, -, -, mem, exact⟩
          exact hmissing _ (List.mem_append_right _ (List.mem_cons_of_mem _ mem)) exact
      | some e => exact find?_folded_iff hexact

/-- Names that differ more than in case make no tie. -/
lemma not_preempted {caseSensitive : Bool}
    (distinct : caseSensitive = true ∨ ∀ i ∈ items, ∀ j ∈ items,
      sameIgnoringCase (nameOf i) (nameOf j) = true → nameOf i = nameOf j) :
    ¬ Preempted nameOf items name caseSensitive := by
  rintro ⟨ignored, rfl, missing, folded, mem, rfl⟩
  rename_i front rest j i
  rcases distinct with hcase | hdistinct
  · exact absurd (ignored.symm.trans hcase) (by simp)
  · exact missing j (by simp) (hdistinct j (by simp) i (by simp [mem]) folded)

end

namespace Matching

variable (k : Matching) (field : FieldInfo)

/-! ## Fields -/

/-- The same matching under another match rule. -/
def ruledBy (r : MatchRule) : Matching := { k with instructions := k.instructions.ruledBy r }

/-- No directive decides on the field, or names the member that it is produced from. -/
structure Automatic : Prop where
  literal : k.literal? field = none
  kept : k.instructions.skipped field.name = false
  method : k.methodOverride? field = none
  path : k.instructions.explicitPath? field.name = none

/-- A field of the source that differs in case only stands in front of the one that has the name of
the field itself. -/
def Tied : Prop :=
  Preempted FieldInfo.name k.source.fields field.name k.instructions.caseSensitive

variable {k field}

/-- What a field comes to for which no directive names a path, the member that matches it being
given. -/
def assignSearched (k : Matching) (field : FieldInfo) (found : Option Accessor) :
    Attempt Assignment :=
  match found, k.converter? field with
  | some m, c => k.assignFound field m c
  | none, some c => k.assignTrusted field.name field.name (some c)
  | none, none => do
      k.warn (k.method ++ ": no source member matches destination field \"" ++ field.name ++ "\"")
      pure (.skip field.name .noMatch)

lemma explicitPath?_eq (k : Matching) (field : FieldInfo) :
    k.instructions.explicitPath? field.name
      = ((k.instructions.override? k.instructions.converters field.name).bind Converter.source
        <|> k.instructions.override? k.instructions.fieldOverrides field.name) := rfl

lemma assignMatched_of_searched (path : k.instructions.explicitPath? field.name = none)
    (rule : k.instructions.matching ≠ .none) :
    k.assignMatched field = k.assignSearched field (k.accessor? field) := by
  rw [explicitPath?_eq] at path
  unfold assignMatched
  simp only [path, rule, decide_false, Bool.false_and, Bool.false_eq_true, if_false,
    assignSearched, converter?]
  cases k.accessor? field <;>
    cases k.instructions.override? k.instructions.converters field.name <;> rfl

/-- What was found is assigned alike under all rules. -/
lemma assignSearched_ruledBy (r : MatchRule) (found : Option Accessor) :
    (k.ruledBy r).assignSearched field found = k.assignSearched field found := by
  have hconverter : (k.ruledBy r).converter? field = k.converter? field := rfl
  unfold assignSearched
  rw [hconverter]
  cases found <;> cases k.converter? field <;> rfl

/-- A path that directives name is followed alike under all rules. -/
lemma assignMatched_ruledBy {path : String}
    (given : k.instructions.explicitPath? field.name = some path) (r r' : MatchRule) :
    (k.ruledBy r).assignMatched field = (k.ruledBy r').assignMatched field := by
  have hgiven : ∀ r, (k.ruledBy r).instructions.explicitPath? field.name = some path :=
    fun _ => given
  simp only [explicitPath?_eq] at hgiven
  unfold assignMatched
  simp only [hgiven]
  rfl

/-- The rule matters for automatic fields only. -/
lemma decide_ruledBy_congr {r r' : MatchRule}
    (h : k.Automatic field →
      (k.ruledBy r).assignMatched field = (k.ruledBy r').assignMatched field) :
    (k.ruledBy r).decide field = (k.ruledBy r').decide field := by
  have hmatched : k.literal? field = none → k.instructions.skipped field.name = false →
      k.methodOverride? field = none →
        (k.ruledBy r).assignMatched field = (k.ruledBy r').assignMatched field := by
    intro hliteral hkept hmethod
    cases hpath : k.instructions.explicitPath? field.name with
    | some path => exact assignMatched_ruledBy hpath r r'
    | none => exact h ⟨hliteral, hkept, hmethod, hpath⟩
  rw [literal?, methodOverride?] at hmatched
  have hinstructions : ∀ r, (k.ruledBy r).instructions = k.instructions.ruledBy r := fun _ => rfl
  have hsource : ∀ r, (k.ruledBy r).source = k.source := fun _ => rfl
  rw [decide, decide]
  simp only [hinstructions, hsource, Instructions.override?_ruledBy, Instructions.ruledBy_literals,
    Instructions.skipped_ruledBy, Instructions.ruledBy_methodOverrides,
    Instructions.ruledBy_caseSensitive]
  split
  · rfl
  · rename_i hliteral
    split
    · rfl
    · rename_i hkept
      split
      · rfl
      · rename_i hmethod
        exact hmatched hliteral (by simpa using hkept) hmethod

/-- Fields that are searched for come to what is found. -/
lemma resolve_ruledBy_congr {r r' : MatchRule} (hr : r ≠ .none) (hr' : r' ≠ .none)
    (h : k.Automatic field → (k.ruledBy r).accessor? field = (k.ruledBy r').accessor? field) :
    (k.ruledBy r).resolve field = (k.ruledBy r').resolve field := by
  have hdecide : (k.ruledBy r).decide field = (k.ruledBy r').decide field := by
    refine decide_ruledBy_congr fun auto => ?_
    have hsearched : ∀ {r : MatchRule}, r ≠ .none → (k.ruledBy r).assignMatched field
        = k.assignSearched field ((k.ruledBy r).accessor? field) := fun {r} hr =>
      (assignMatched_of_searched (k := k.ruledBy r) auto.path hr).trans
        (assignSearched_ruledBy r _)
    rw [hsearched hr, hsearched hr', h auto]
  rw [resolve, resolve, hdecide]
  rfl

/-! ## Fields without tags -/

/-- What an automatic field carries is the name of the field that matches it. -/
lemma access?_ruledBy {r : MatchRule} {f : FieldInfo} {a : Assignment} {access : String}
    (auto : k.Automatic field) (found : (k.ruledBy r).matchingField? field = some f)
    (result : ((k.ruledBy r).resolve field).outcome.value = .ok a)
    (reads : a.access? = some access) : access = f.name := by
  have hpath : (k.ruledBy r).instructions.explicitPath? field.name = none := auto.path
  have hmember : (k.ruledBy r).memberFor field = .ok (some (ofField f)) := by
    rw [memberFor, hpath, accessor?, found]
    rfl
  rcases ((spelled_of_resolve result reads).found auto.method _ hmember).2 with h | ⟨hgetter, -⟩
  · exact h
  · exact absurd hgetter (by simp [ofField])

section

variable (source : k.source.Untagged) (tag : field.tag = none)

include source tag

/-- Both rules search for the name of the field. -/
lemma matchingField?_tag : (k.ruledBy .tag).matchingField? field
    = k.source.fields.find? fun f => k.instructions.sameName f.name field.name := by
  have hsearch : (k.ruledBy .tag).matchingField? field
      = k.source.fields.find? fun f => k.instructions.sameName f.key field.key := rfl
  rw [hsearch, FieldInfo.key_of_untagged tag]
  refine List.find?_congr fun f hf => ?_
  rw [FieldInfo.key_of_untagged (source f hf)]

/-- **Without tags both rules find the same field but for a tie.** -/
lemma matchingField?_tag_eq_iff :
    (k.ruledBy .tag).matchingField? field = (k.ruledBy .name).matchingField? field
      ↔ ¬ k.Tied field := by
  rw [matchingField?_tag source tag]
  exact find?_sameName_eq_findNamed?_iff k.instructions

lemma resolve_tag_eq (h : k.Automatic field → ¬ k.Tied field) :
    (k.ruledBy .tag).resolve field = (k.ruledBy .name).resolve field := by
  refine resolve_ruledBy_congr (by simp) (by simp) fun auto => ?_
  rw [accessor?, accessor?, (matchingField?_tag_eq_iff source tag).2 (h auto)]
  rfl

/-- **With a tie the rules differ,** or the field is left alone. -/
lemma skip_of_tied (auto : k.Automatic field) (tied : k.Tied field) {a : Assignment}
    (byTag : ((k.ruledBy .tag).resolve field).outcome.value = .ok a)
    (byName : ((k.ruledBy .name).resolve field).outcome.value = .ok a) :
    ∃ reason, a = .skip field.name reason := by
  obtain ⟨⟨g, hg, hgname⟩, e, he⟩ := Preempted.found tied
  have hcase : k.instructions.caseSensitive = false := by
    obtain ⟨ignored, -⟩ := tied
    exact ignored
  have hfoundByTag : (k.ruledBy .tag).matchingField? field = some g := by
    rw [matchingField?_tag source tag, ← hg]
    simp only [Instructions.sameName, hcase, Bool.false_eq_true, if_false]
  have hfoundByName : (k.ruledBy .name).matchingField? field = some e := by
    have hsearch : (k.ruledBy .name).matchingField? field
        = findNamed? FieldInfo.name k.source.fields field.name k.instructions.caseSensitive := rfl
    rw [hsearch, findNamed?, he]
  have hename : e.name = field.name := by simpa using List.find?_some he
  cases ensures_resolve_outcome a byName with
  | literal given => exact absurd (auto.literal.symm.trans given) (by simp)
  | skipped _ _ => exact ⟨_, rfl⟩
  | method _ _ given => exact absurd (auto.method.symm.trans given) (by simp)
  | matched _ _ _ matched =>
      refine matched.reads_or_skips.resolve_left ?_
      rintro ⟨access, reads⟩
      have hg' := access?_ruledBy auto hfoundByTag byTag reads
      have he' := access?_ruledBy auto hfoundByName byName reads
      exact hgname (hg'.symm.trans (he'.trans hename))

end

end Matching

/-! ## Plans -/

/-- What follows a look-up matters for what is found only. -/
lemma Attempt.known_bind_congr {α β : Type} {x : Except Dangling α} {f g : α → Attempt β}
    (h : ∀ a, x = .ok a → f a = g a) : (known x >>= f) = (known x >>= g) := by
  cases x with
  | ok a =>
      simp only [known, pure_bind]
      exact h a rfl
  | error d => rfl

namespace Planner

variable {k : Planner} {method : String} {i : Instructions} {source target : TypeId}
  {anchor : Position}

lemma fields_congr {i' : Instructions} {s t : StructInfo}
    (h : ∀ f ∈ t.fields, Matching.resolve ⟨k.catalog, i, s, method, anchor⟩ f
      = Matching.resolve ⟨k.catalog, i', s, method, anchor⟩ f) :
    k.fields method i s t anchor = k.fields method i' s t anchor := by
  have hmap : t.fields.mapM (Matching.resolve ⟨k.catalog, i, s, method, anchor⟩)
      = t.fields.mapM (Matching.resolve ⟨k.catalog, i', s, method, anchor⟩) := by
    generalize t.fields = fields at h
    induction fields with
    | nil => rfl
    | cons f fields ih =>
        rw [List.forall_mem_cons] at h
        rw [List.mapM_cons, List.mapM_cons, h.1, ih h.2]
  rw [fields, fields, hmap]

/-- The rule matters for the fields of structures only. -/
lemma plan_ruledBy_congr {r r' : MatchRule}
    (h : ∀ s t, k.catalog.LeadsToStruct source s → k.catalog.LeadsToStruct target t →
      ∀ f ∈ t.fields, Matching.resolve ⟨k.catalog, i.ruledBy r, s, method, anchor⟩ f
        = Matching.resolve ⟨k.catalog, i.ruledBy r', s, method, anchor⟩ f) :
    k.plan method (i.ruledBy r) source target anchor
      = k.plan method (i.ruledBy r') source target anchor := by
  have hassignments : k.assignments method (i.ruledBy r) source target anchor
      = k.assignments method (i.ruledBy r') source target anchor := by
    unfold assignments
    simp only
    refine bind_congr fun se => bind_congr fun te => ?_
    split
    · rfl
    · refine known_bind_congr fun s hs => known_bind_congr fun t ht => ?_
      split
      · exact fields_congr (h _ _ ((Catalog.structOf_eq_some_iff hs _).1 rfl)
          ((Catalog.structOf_eq_some_iff ht _).1 rfl))
      · rfl
  rw [plan, plan, hassignments]
  rfl

/-- The assignments of a plan between structures are those of the fields alone. -/
lemma alone_of_plan {s t : StructInfo} (sourceStruct : k.catalog.LeadsToStruct source s)
    (targetStruct : k.catalog.LeadsToStruct target t) {plan : Plan}
    (h : (k.plan method i source target anchor).outcome.value = .ok plan) :
    List.Forall₂ (fun f a =>
      (Matching.resolve ⟨k.catalog, i, s, method, anchor⟩ f).outcome.value = .ok a)
      t.fields plan.assignments := by
  have hplan : Ensures (k.plan method i source target anchor) fun plan =>
      k.Shaped method i source target anchor plan.assignments := by
    rw [Planner.plan]
    exact .after fun _ => .after fun _ =>
      .bind (k.ensures_assignments_shaped method i source target anchor) fun _ has => .pure has
  have hapart : ¬ k.BetweenElements source target := by
    rintro ⟨⟨e, he⟩, -⟩
    exact sourceStruct.not_elements he
  exact ((hplan plan h).fields hapart s t sourceStruct targetStruct).imp fun _ _ h => h.alone

variable {s t : StructInfo}

/-- **Without tags, matching by tags and by names makes the same plans but for ties.**

Between structures without tags the two attempts are the same, with all that they record, unless a
field that no directive decides on is tied.  If such a field is tied, then either it is left alone
or the plans differ.  There are no ties where case is distinguished, or where the names of the
source fields differ in more than case. -/
theorem plan_untagged (sourceStruct : k.catalog.LeadsToStruct source s)
    (targetStruct : k.catalog.LeadsToStruct target t) (sourceTags : s.Untagged)
    (targetTags : t.Untagged) :
    let m : Matching := ⟨k.catalog, i, s, method, anchor⟩
    let byTag := k.plan method (i.ruledBy .tag) source target anchor
    let byName := k.plan method (i.ruledBy .name) source target anchor
    ((∀ f ∈ t.fields, m.Automatic f → ¬ m.Tied f) → byTag = byName)
      ∧ (∀ p, byTag.outcome.value = .ok p → byName.outcome.value = .ok p →
        ∀ f ∈ t.fields, m.Automatic f → m.Tied f → ∃ reason, .skip f.name reason ∈ p.assignments)
      ∧ ((i.caseSensitive = true ∨ ∀ f ∈ s.fields, ∀ g ∈ s.fields,
          sameIgnoringCase f.name g.name = true → f.name = g.name) → byTag = byName) := by
  intro m byTag byName
  have hfree : (∀ f ∈ t.fields, m.Automatic f → ¬ m.Tied f) → byTag = byName := by
    refine fun h => plan_ruledBy_congr fun s' t' hs ht => ?_
    obtain rfl := sourceStruct.unique hs
    obtain rfl := targetStruct.unique ht
    exact fun f hf => Matching.resolve_tag_eq (k := m) sourceTags (targetTags f hf) (h f hf)
  refine ⟨hfree, fun p hbyTag hbyName f hf auto tied => ?_, fun distinct => ?_⟩
  · have hboth := (alone_of_plan sourceStruct targetStruct hbyTag).mp (fun _ _ => And.intro)
      (alone_of_plan sourceStruct targetStruct hbyName)
    obtain ⟨a, ha, hatag, haname⟩ := exists_of_mem_right (List.Forall₂.flip hboth) hf
    obtain ⟨reason, rfl⟩ :=
      Matching.skip_of_tied (k := m) sourceTags (targetTags f hf) auto tied hatag haname
    exact ⟨reason, ha⟩
  · exact hfree fun f _ _ => not_preempted distinct

/-! ### Two names that differ in case -/

/-- A pet with two names that differ in case is made into a card with one. -/
def petNames : Planner where
  catalog := { Catalog.empty with
    types := #[⟨⟨0⟩, "String", .basic⟩, ⟨⟨1⟩, "Pet", .struct ⟨0⟩⟩, ⟨⟨2⟩, "Card", .struct ⟨1⟩⟩]
    structs := #[
      ⟨"Pet", "", [⟨"NAME", ⟨0⟩, none, false, false⟩, ⟨"name", ⟨0⟩, none, false, false⟩], []⟩,
      ⟨"Card", "", [⟨"name", ⟨0⟩, none, false, false⟩], []⟩] }
  siblings := .empty

/-- The ends are structures without tags. -/
lemma petNames_ends : ∃ pet card, petNames.catalog.LeadsToStruct ⟨1⟩ pet
    ∧ petNames.catalog.LeadsToStruct ⟨2⟩ card ∧ pet.Untagged ∧ card.Untagged :=
  ⟨_, _, (Catalog.structOf_eq_some_iff rfl _).1 rfl, (Catalog.structOf_eq_some_iff rfl _).1 rfl,
    by simp [StructInfo.Untagged, petNames], by simp [StructInfo.Untagged, petNames]⟩

/-- Where case is distinguished, both rules take the field of the same name. -/
theorem petNames_alike :
    petNames.plan "card" (Instructions.default.ruledBy .tag) ⟨1⟩ ⟨2⟩ ⟨"pets.rs", 1, 1⟩
        = petNames.plan "card" (Instructions.default.ruledBy .name) ⟨1⟩ ⟨2⟩ ⟨"pets.rs", 1, 1⟩
      ∧ (petNames.plan "card" (Instructions.default.ruledBy .tag) ⟨1⟩ ⟨2⟩
          ⟨"pets.rs", 1, 1⟩).outcome.value = .ok ⟨[.copy "name" "name"], none, none⟩ := by
  obtain ⟨pet, card, hpet, hcard, pets, cards⟩ := petNames_ends
  exact ⟨(plan_untagged hpet hcard pets cards).2.2 (.inl rfl), rfl⟩

/-- **Ignoring case, matching by tags takes another field than matching by names,** although no
field has a tag. -/
theorem petNames_apart :
    let i := { Instructions.default with caseSensitive := false }
    (∃ pet card, petNames.catalog.LeadsToStruct ⟨1⟩ pet
        ∧ petNames.catalog.LeadsToStruct ⟨2⟩ card ∧ pet.Untagged ∧ card.Untagged)
      ∧ (petNames.plan "card" (i.ruledBy .tag) ⟨1⟩ ⟨2⟩ ⟨"pets.rs", 1, 1⟩).outcome.value
        = .ok ⟨[.copy "name" "NAME"], none, none⟩
      ∧ (petNames.plan "card" (i.ruledBy .name) ⟨1⟩ ⟨2⟩ ⟨"pets.rs", 1, 1⟩).outcome.value
        = .ok ⟨[.copy "name" "name"], none, none⟩ :=
  ⟨petNames_ends, rfl, rfl⟩

end Planner

end FieldCopy
