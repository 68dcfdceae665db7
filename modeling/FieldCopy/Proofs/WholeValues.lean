import Mathlib
import FieldCopy.Proofs.AssignedValues
import FieldCopy.Proofs.HookOrder

/-!
# Whole values

A destination that nothing takes apart gets the source as a whole: a copy of it, a cast, or what it
is turned into.  Between structures, the destination is created with default values and its fields
are assigned.

**Two forms.**  `Conversion.CreatesWhole` says that the destination is created from the whole
source, `Conversion.FieldWise` that it is not, and that the whole source is converted nowhere else
in the function.  A path of members may be a call as well, and one that begins with a call of
`clone` or `into` converts the source before it goes on.  The text of a literal is its author's and
is not looked into.

**Main statement.**  `SourceUnit.whole_values`.  A structure without fields is taken for a type that
nothing takes apart, because its plan is empty as well; and a getter or a method can be called as
what converts a value is, or a path begin with such a call.  Otherwise a function between structures
is field-wise, and one between other types creates its destination as a whole unless these are
slices of structures.
`SourceUnit.exists_whole_struct` is a function between structures that is not field-wise.
-/

namespace FieldCopy

open Expression Statement

/-- An expression converts a variable as a whole: it is a copy of it, what the variable or a copy is
turned into, or a cast of the variable or of what it refers to. -/
@[simp]
def Expression.ConvertsWhole (v : String) : Expression → Prop
  | methodCall e name [] =>
      e = verbatim v ∧ (name = "clone" ∨ name = "into")
        ∨ e = (verbatim v).clone ∧ name = "into"
  | cast e _ => e = verbatim v ∨ e = dereference (verbatim v)
  | _ => False

/-- A path of members begins with a call of a conversion. -/
def BeginsConversion (path : String) : Prop :=
  "clone()".toList <+: path.toList ∨ "into()".toList <+: path.toList

/-- An expression accesses a variable by a path that begins with a call of a conversion. -/
@[simp]
def Expression.BeginsWhole (v : String) : Expression → Prop
  | member owner path => owner = v ∧ BeginsConversion path
  | _ => False

/-- An assignment calls a method of the source whose name is that of a conversion, be it as a method
or in front of a path. -/
def Assignment.CallsConversion : Assignment → Prop
  | .copy _ path | .cast _ path _ | .stringer _ path | .converter _ path _ _ _ =>
      BeginsConversion path
  | .getter _ name | .method _ name _ => name = "clone" ∨ name = "into"
  | .literal _ _ | .skip _ _ | .delegateLoop _ _ _ _ _ => False

namespace Conversion

variable (k : Catalog) (siblings : Keyed CallShape) (v : Conversion)

/-- What creates a destination whose fields are assigned. -/
def fieldWiseStart : List Statement :=
  match v.instructions.style with
  | .result => [.declare true v.target (defaultOf v.endpoints.target.written)]
  | .argument => []

/-- The destination is created field by field, and the source is nowhere converted as a whole. -/
structure FieldWise : Prop where
  created : ∃ rest, (v.code k siblings).body = v.receiverStatement ++ v.fieldWiseStart ++ rest
    ∧ ∀ s ∈ rest, ¬ s.Resets v.target
  nowhere : ∀ e ∈ partsAll (v.code k siblings).body, ¬ e.ConvertsWhole v.source
  /-- Nor is it converted by the path of a member that is read. -/
  unread : ∀ place value, .assign place value ∈ (v.code k siblings).body →
    ∀ e ∈ value.parts, ¬ e.BeginsWhole v.source

/-- The destination is created from the source as a whole. -/
def CreatesWhole : Prop :=
  ∃ e, e.ConvertsWhole v.source ∧ ∃ s ∈ (v.code k siblings).body,
    (∃ mutable, s = .declare mutable v.target e) ∨ s = .assign (dereference v.targetValue) e

/-- Both ends are slices of structures, or both are structures. -/
def TakenApart : Prop :=
  ((∃ s, k.LeadsToElements v.endpoints.source.type s)
      ∧ ∃ t, k.LeadsToElements v.endpoints.target.type t)
    ∨ ((∃ s, k.LeadsToStruct v.endpoints.source.type s)
      ∧ ∃ t, k.LeadsToStruct v.endpoints.target.type t)

/-- Both ends are structures, and that of the destination has no fields. -/
def FillsNothing : Prop :=
  ∃ s t, k.LeadsToStruct v.endpoints.source.type s
    ∧ k.LeadsToStruct v.endpoints.target.type t ∧ t.fields = []

/-! ## What converts the source -/

lemma whole_converts : (v.whole k).ConvertsWhole v.source := by
  unfold whole
  simp only
  split
  · split
    · simp [sourceValue, clone, invoke]
    · split
      · split <;> simp [sourceValue]
      · simp [sourceValue, clone, invoke]
  · simp [sourceValue, clone, invoke]

variable {k siblings v}

lemma Fixed.not_convertsWhole {e : Expression} {source : String} (h : v.Fixed e)
    (hloop : v.plan.hasLoop = false) : ¬ e.ConvertsWhole source := by
  cases e with
  | methodCall _ _ _ => exact absurd trivial (h.noMethod hloop)
  | cast _ _ => exact absurd trivial h.noCast
  | _ => exact not_false

/-- The value of a field converts the whole source only through a method of the source, or a path
that begins with one. -/
lemma exists_converts_iff {a : Assignment} {value : Expression}
    (hvalue : v.fieldValue? k a = some value) :
    (∃ e ∈ value.parts, e.ConvertsWhole v.source ∨ e.BeginsWhole v.source)
      ↔ a.CallsConversion := by
  cases a with
  | copy field path =>
      obtain rfl := Option.some.inj hvalue
      split <;> simp [sourceMember, clone, invoke, Expression.parts, argumentsParts,
        Assignment.CallsConversion]
  | cast field path type =>
      obtain rfl := Option.some.inj hvalue
      split <;> simp [sourceMember, clone, invoke, Expression.parts, argumentsParts,
        Assignment.CallsConversion]
  | getter field name =>
      obtain rfl := Option.some.inj hvalue
      simp [sourceValue, clone, invoke, Expression.parts, argumentsParts,
        Assignment.CallsConversion]
  | stringer field path =>
      obtain rfl := Option.some.inj hvalue
      simp [sourceMember, invoke, Expression.parts, argumentsParts, Assignment.CallsConversion]
  | converter field path function byReference fallible =>
      obtain rfl := Option.some.inj hvalue
      cases byReference <;> cases fallible <;>
        simp [checked, sourceMember, clone, invoke, Expression.parts, argumentsParts,
          Assignment.CallsConversion]
  | method field name fallible =>
      obtain rfl := Option.some.inj hvalue
      cases fallible <;>
        simp [checked, sourceValue, clone, invoke, Expression.parts, argumentsParts,
          Assignment.CallsConversion]
  | literal field text =>
      obtain rfl := Option.some.inj hvalue
      simp [Expression.parts, Assignment.CallsConversion]
  | skip _ _ | delegateLoop _ _ _ _ _ => exact absurd hvalue (by simp [fieldValue?])

/-! ## What is assigned -/

variable (k siblings v) in
/-- The value of a field is assigned. -/
lemma exists_assign_mem_body {a : Assignment} (ha : a ∈ v.plan.assignments) {value : Expression}
    (hvalue : v.fieldValue? k a = some value) :
    ∃ place, .assign place value ∈ (v.code k siblings).body := by
  refine ⟨.member v.target a.target, ?_⟩
  rw [body_eq]
  simp only [List.mem_append, List.mem_flatMap]
  refine .inr (.inl (.inl ⟨a, ha, ?_⟩))
  rw [assignment_eq_assign siblings hvalue]
  exact List.mem_singleton_self _

/-- **What is assigned is one of the values of a function.** -/
lemma mem_values_of_assign {place value : Expression}
    (h : .assign place value ∈ (v.code k siblings).body) : value ∈ v.values k := by
  have hhook : ∀ hook, .assign place value ∉ v.hook hook := by
    rintro (_ | hook) h
    · exact absurd h List.not_mem_nil
    · cases List.mem_singleton.1 h
  rw [body_eq, prologue] at h
  simp only [List.mem_append, List.mem_flatMap] at h
  rcases h with ((h | h) | h) | ((⟨a, ha, h⟩ | h) | h)
  · obtain ⟨r, -, h⟩ := List.mem_map.1 h
    cases h
  · -- Only an argument that gets the whole of the source is assigned before the fields are.
    unfold opening at h
    simp only at h
    split at h
    · cases List.mem_singleton.1 h
    · rename_i hempty _
      cases List.mem_singleton.1 h
      exact mem_values_iff.2 (.inl ⟨List.isEmpty_iff.1 hempty, rfl⟩)
    · cases List.mem_singleton.1 h
    · exact absurd h List.not_mem_nil
  · exact absurd h (hhook _)
  · refine mem_values_iff.2 (.inr ⟨a, ha, ?_⟩)
    cases a with
    | skip _ _ => cases List.mem_singleton.1 h
    | delegateLoop _ _ _ _ _ =>
        rw [assignment] at h
        cases hstyle : v.instructions.style <;> simp [hstyle] at h
    | copy _ _ | cast _ _ _ | getter _ _ | stringer _ _ | converter _ _ _ _ _ | method _ _ _
    | literal _ _ =>
        cases List.mem_singleton.1 h
        rfl
  · exact absurd h (hhook _)
  · rw [ending] at h
    cases hstyle : v.instructions.style <;> cases hfails : v.fallible <;>
      simp [hstyle, hfails] at h

/-! ## Field by field -/

lemma opening_eq_fieldWiseStart (hne : v.plan.assignments ≠ []) (hloop : v.plan.hasLoop = false) :
    v.opening k = v.fieldWiseStart := by
  have hempty : v.plan.assignments.isEmpty = false := by simpa using hne
  rw [opening, fieldWiseStart, hempty, start, hloop]
  cases v.instructions.style <;> rfl

variable (k v) in
lemma exists_fieldValue_of_callsConversion {a : Assignment} (h : a.CallsConversion) :
    ∃ value, v.fieldValue? k a = some value := by
  cases a with
  | skip _ _ | delegateLoop _ _ _ _ _ => exact absurd h not_false
  | _ => exact ⟨_, rfl⟩

/-- **A function without a loop is field-wise** if there are fields, and none of them gets what a
method with the name of a conversion gives. -/
lemma fieldWise_iff (hloop : v.plan.hasLoop = false) :
    v.FieldWise k siblings ↔ v.plan.assignments ≠ []
      ∧ ∀ a ∈ v.plan.assignments, ¬ a.CallsConversion := by
  constructor
  · refine fun h => ⟨fun hnil => ?_, fun a ha hcalls => ?_⟩
    · have hmem := v.parts_subset_body k siblings (mem_values_iff.2 (.inl ⟨hnil, rfl⟩)) _
        (self_mem_parts _)
      exact h.nowhere _ hmem (v.whole_converts k)
    · obtain ⟨value, hvalue⟩ := v.exists_fieldValue_of_callsConversion k hcalls
      have hmem := mem_values_iff.2 (.inr ⟨a, ha, hvalue⟩)
      obtain ⟨place, hassign⟩ := v.exists_assign_mem_body k siblings ha hvalue
      obtain ⟨e, he, hconverts | hbegins⟩ := (exists_converts_iff hvalue).2 hcalls
      · exact h.nowhere e (v.parts_subset_body k siblings hmem e he) hconverts
      · exact h.unread place value hassign e he hbegins
  · rintro ⟨hne, hcalls⟩
    have hfields : ∀ value ∈ v.values k, ∀ e ∈ value.parts,
        ¬ (e.ConvertsWhole v.source ∨ e.BeginsWhole v.source) := by
      intro value hvalue e he hconverts
      rcases mem_values_iff.1 hvalue with ⟨hnil, -⟩ | ⟨a, ha, hvalue⟩
      · exact hne hnil
      · exact hcalls a ha ((exists_converts_iff hvalue).1 ⟨e, he, hconverts⟩)
    refine ⟨?_, fun e he hconverts => ?_, fun place value h e he hbegins =>
      hfields value (mem_values_of_assign h) e he (.inr hbegins)⟩
    · have hclear : ∀ a ∈ v.plan.assignments, v.clearing a = [] := fun a ha =>
        if_neg fun h => by simp [List.any_eq_false.1 hloop a ha] at h
      have hproduces := v.produces_flatMap k siblings _ hclear
      refine ⟨v.hook v.plan.before ++ (v.plan.assignments.flatMap (v.assignment k siblings)
        ++ v.hook v.plan.after ++ v.ending), ?_, fun s hs => ?_⟩
      · rw [body_eq, prologue, opening_eq_fieldWiseStart hne hloop, List.append_assoc]
      · rcases List.mem_append.1 hs with hs | hs
        · exact v.not_resets_hook _ s hs
        · exact v.not_resets_behind hproduces s hs
    · rcases v.mem_partsAll_body k siblings he with ⟨value, hvalue, hparts⟩ | hfixed
      · exact hfields value hvalue e hparts (.inl hconverts)
      · exact hfixed.not_convertsWhole hloop hconverts

/-! ## As a whole -/

lemma start_not_converts (source : String) : ¬ v.start.ConvertsWhole source := by
  unfold start
  simp only
  split <;> exact not_false

/-- **The destination is created as a whole if the plan is empty.** -/
lemma createsWhole_iff : v.CreatesWhole k siblings ↔ v.plan.assignments = [] := by
  constructor
  · rintro ⟨e, hconverts, s, hs, hform⟩
    by_contra hne
    have hempty : v.plan.assignments.isEmpty = false := by simpa using hne
    have hresets : s.Resets v.target := by
      rcases hform with ⟨mutable, rfl⟩ | rfl
      · exact .inl ⟨mutable, e, rfl⟩
      · exact .inr (.through e)
    rw [body_eq, prologue] at hs
    simp only [List.mem_append, List.mem_flatMap] at hs
    rcases hs with ((hs | hs) | hs) | ((⟨a, ha, hs⟩ | hs) | hs)
    · obtain ⟨r, -, rfl⟩ := List.mem_map.1 hs
      rcases hform with ⟨mutable, h⟩ | h
      · obtain ⟨-, -, rfl⟩ := Statement.declare.inj h
        exact hconverts
      · cases h
    · rw [opening, hempty] at hs
      cases hstyle : v.instructions.style <;> rw [hstyle] at hs
      · obtain rfl := List.mem_singleton.1 hs
        rcases hform with ⟨mutable, h⟩ | h
        · obtain ⟨-, -, rfl⟩ := Statement.declare.inj h
          exact start_not_converts _ hconverts
        · cases h
      · exact absurd hs List.not_mem_nil
    · exact v.not_resets_hook _ s hs hresets
    · obtain ⟨s', hs', hproduces⟩ := v.exists_produced k siblings a
      rw [hs', List.mem_append, List.mem_singleton] at hs
      rcases hs with hs | rfl
      · rw [clearing] at hs
        split at hs
        · obtain rfl := List.mem_singleton.1 hs
          rcases hform with ⟨mutable, h⟩ | h <;> cases h
        · exact absurd hs List.not_mem_nil
      · exact hproduces.not_resets hresets
    · exact v.not_resets_hook _ s hs hresets
    · exact v.not_resets_ending s hs hresets
  · intro hnil
    refine ⟨v.whole k, v.whole_converts k, ?_⟩
    have hopening : ∀ s ∈ v.opening k, s ∈ (v.code k siblings).body := fun s hs => by
      rw [body_eq, prologue]
      simp [hs]
    rw [opening, hnil] at hopening
    cases hstyle : v.instructions.style <;> rw [hstyle] at hopening
    · exact ⟨_, hopening _ (List.mem_singleton_self _), .inl ⟨_, rfl⟩⟩
    · exact ⟨_, hopening _ (List.mem_singleton_self _), .inr rfl⟩

end Conversion

namespace SourceUnit

open Generation Conversion

variable {unit : SourceUnit} {v : Conversion}

/-- A plan between structures has no loop, and it is empty if there is no field. -/
lemma plan_of_structs (hv : v ∈ unit.conversions) {s t : StructInfo}
    (hs : unit.catalog.LeadsToStruct v.endpoints.source.type s)
    (ht : unit.catalog.LeadsToStruct v.endpoints.target.type t) :
    v.plan.hasLoop = false ∧ (v.plan.assignments = [] ↔ t.fields = []) := by
  obtain ⟨siblings, hshaped⟩ := exists_shaped hv
  have hapart : ¬ Planner.BetweenElements ⟨unit.catalog, siblings⟩ v.endpoints.source.type
      v.endpoints.target.type := fun h => hs.not_elements h.1.choose_spec
  have hfields := hshaped.fields hapart s t hs ht
  refine ⟨?_, ?_⟩
  · have hsingle := hfields.flip.imp fun a f h => And.intro h.single h
    rw [Plan.hasLoop, List.any_eq_false]
    exact fun a ha => by simp [((List.forall₂_and_left _ _).1 hsingle).1 a ha]
  · rw [← List.length_eq_zero_iff, ← List.length_eq_zero_iff, hfields.length_eq]

/-- A plan is empty if nothing takes the ends apart, or there is nothing to fill. -/
lemma plan_eq_nil_iff (hv : v ∈ unit.conversions) :
    v.plan.assignments = [] ↔ ¬ v.TakenApart unit.catalog ∨ v.FillsNothing unit.catalog := by
  obtain ⟨siblings, hshaped⟩ := exists_shaped hv
  by_cases helements : Planner.BetweenElements ⟨unit.catalog, siblings⟩ v.endpoints.source.type
      v.endpoints.target.type
  · obtain ⟨⟨s, hs⟩, t, ht⟩ := id helements
    obtain ⟨f, a, b, -, -, -, hplan⟩ := hshaped.elements s t hs ht
    refine iff_of_false (by simp [hplan]) ?_
    rintro (h | ⟨s', t', hs', -⟩)
    · exact h (.inl helements)
    · exact hs'.not_elements hs
  · by_cases hstructs : Planner.BetweenStructs ⟨unit.catalog, siblings⟩ v.endpoints.source.type
        v.endpoints.target.type
    · obtain ⟨⟨s, hs⟩, t, ht⟩ := id hstructs
      rw [(plan_of_structs hv hs ht).2]
      refine ⟨fun hnil => .inr ⟨s, t, hs, ht, hnil⟩, ?_⟩
      rintro (h | ⟨s', t', -, ht', hnil⟩)
      · exact absurd (.inr hstructs) h
      · exact ht.unique ht' ▸ hnil
    · exact iff_of_true (hshaped.whole helements hstructs) (.inl fun h => h.elim helements hstructs)

/-- **Between structures a function is field-wise** unless the structure of the destination has no
fields, or a field gets what a method with the name of a conversion gives.  **The destination is
created as a whole** exactly if nothing takes the ends apart, or there is nothing to fill. -/
theorem whole_values (hv : v ∈ unit.conversions) :
    (∀ s t, unit.catalog.LeadsToStruct v.endpoints.source.type s →
      unit.catalog.LeadsToStruct v.endpoints.target.type t →
        (v.FieldWise unit.catalog (callShapes unit.entries)
          ↔ t.fields ≠ [] ∧ ∀ a ∈ v.plan.assignments, ¬ a.CallsConversion))
      ∧ (v.CreatesWhole unit.catalog (callShapes unit.entries)
          ↔ ¬ v.TakenApart unit.catalog ∨ v.FillsNothing unit.catalog) := by
  refine ⟨fun s t hs ht => ?_, createsWhole_iff.trans (plan_eq_nil_iff hv)⟩
  obtain ⟨hloop, hnil⟩ := plan_of_structs hv hs ht
  rw [fieldWise_iff hloop, ne_eq, hnil]

/-- A file with a method between structures of which the second has no fields, and one between
structures with fields. -/
def cardFile : SourceFile :=
  ⟨"card.rs", "",
    "struct Pet\x7bage:u8\x7d
struct Card;
trait Copy\x7bfn card(pet:&Pet)->Card;
fn pet(src:&Pet)->Pet;\x7d"⟩

/-- A structure with a field. -/
def agedPet : StructInfo := ⟨"Pet", "", [⟨"age", ⟨0⟩, none, false, false⟩], []⟩

/-- A structure without fields. -/
def bareCard : StructInfo := ⟨"Card", "", [], []⟩

set_option maxRecDepth 4000 in
/-- What the file is loaded to. -/
lemma load_cardFile :
    ∃ unit, load (some cardFile) [] "Copy" = .ok unit
      ∧ (∃ v ∈ unit.conversions, linesAll (v.code unit.catalog (callShapes unit.entries)).body
            = ["let dst = pet.clone().into();", "dst"]
          ∧ unit.catalog.structOf v.endpoints.source.type = .ok (some agedPet)
          ∧ unit.catalog.structOf v.endpoints.target.type = .ok (some bareCard))
      ∧ ∃ v ∈ unit.conversions, v.plan.assignments = [.copy "age" "age"]
          ∧ unit.catalog.structOf v.endpoints.source.type = .ok (some agedPet)
          ∧ unit.catalog.structOf v.endpoints.target.type = .ok (some agedPet) := by
  have hitems : Source.parseItems? cardFile.text = _ := Source.parseItems?_ofList _
  rw [load_alone, SourceFile.parse, hitems]
  exact exists_ok_of_any (by decide +kernel)

/-- A copy of a pet is created field by field. -/
theorem pet_fieldWise :
    ∃ unit, load (some cardFile) [] "Copy" = .ok unit
      ∧ ∃ v ∈ unit.conversions, v.FieldWise unit.catalog (callShapes unit.entries)
        ∧ ¬ v.CreatesWhole unit.catalog (callShapes unit.entries) := by
  obtain ⟨unit, hload, -, v, hv, hplan, hs, ht⟩ := load_cardFile
  replace hs := (Catalog.structOf_eq_some_iff hs _).1 rfl
  replace ht := (Catalog.structOf_eq_some_iff ht _).1 rfl
  obtain ⟨hfieldWise, hwhole⟩ := whole_values hv
  refine ⟨unit, hload, v, hv, (hfieldWise _ _ hs ht).2 ⟨List.cons_ne_nil _ _, ?_⟩, fun h => ?_⟩
  · rw [hplan]
    have hplain : ¬ BeginsConversion "age" := by rw [BeginsConversion]; decide
    exact fun a ha => List.mem_singleton.1 ha ▸ hplain
  · rcases hwhole.1 h with h | ⟨_, t, -, ht', hnil⟩
    · exact h (.inr ⟨⟨_, hs⟩, _, ht⟩)
    · exact absurd (ht.unique ht' ▸ hnil) (List.cons_ne_nil _ _)

/-- **A structure can be converted as a whole.**  The structure of the destination has no fields. -/
theorem exists_whole_struct :
    ∃ unit, load (some cardFile) [] "Copy" = .ok unit
      ∧ ∃ v ∈ unit.conversions, v.TakenApart unit.catalog
        ∧ unit.catalog.LeadsToStruct v.endpoints.source.type agedPet
        ∧ unit.catalog.LeadsToStruct v.endpoints.target.type bareCard
        ∧ v.CreatesWhole unit.catalog (callShapes unit.entries)
        ∧ ¬ v.FieldWise unit.catalog (callShapes unit.entries)
        ∧ linesAll (v.code unit.catalog (callShapes unit.entries)).body
          = ["let dst = pet.clone().into();", "dst"] := by
  obtain ⟨unit, hload, ⟨v, hv, hlines, hs, ht⟩, -⟩ := load_cardFile
  replace hs := (Catalog.structOf_eq_some_iff hs _).1 rfl
  replace ht := (Catalog.structOf_eq_some_iff ht _).1 rfl
  obtain ⟨hloop, hnil⟩ := plan_of_structs hv hs ht
  refine ⟨unit, hload, v, hv, .inr ⟨⟨_, hs⟩, _, ht⟩, hs, ht, createsWhole_iff.2 (hnil.2 rfl), ?_,
    hlines⟩
  exact fun h => ((fieldWise_iff hloop).1 h).1 (hnil.2 rfl)

end SourceUnit

end FieldCopy
