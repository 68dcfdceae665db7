import Mathlib
import FieldCopy.Proofs.Accounting
import FieldCopy.Proofs.Endpoints
import FieldCopy.Proofs.PlanFailures
import FieldCopy.Proofs.Loading.Traversal
import FieldCopy.Proofs.Siblings

/-!
# Generation without dangling numbers

A catalog that is built holds no dangling numbers, and nothing that is done with it runs into one.

**Asking.**  Where the generator looks up a number it goes on with something else if that number is
dangling.  Here are the same questions with a failure instead (`Endpoints.askElementwise`,
`Conversion.askWhole`, `Conversion.askScalar`, `Conversion.askNumeric`).  That they do not fail, and
answer what the generator goes by, is that nothing dangling is looked up.

**Main statement.**  `Built.never_dangles`: a catalog that is built is sound, its pointers end, and
plans between known types do not fail with a dangling number (`Catalog.Safe`).  The catalog of a
source unit that was loaded is built, and the generator looks up no dangling number
(`SourceUnit.Grounded`).
-/

namespace FieldCopy

open Attempt Catalog

/-! ## Asking -/

namespace Endpoints

/-- Whether a type is a slice of structures. -/
def askElements (c : Catalog) (p : Parameter) : Except Dangling Bool :=
  Option.isSome <$> c.elementStructOf p.type

/-- Whether both ends are slices of structures. -/
def askElementwise (c : Catalog) (e : Endpoints) : Except Dangling Bool := do
  if ← askElements c e.source then askElements c e.target else pure false

lemma askElements_eq {c : Catalog} (hc : c.Sound) {p : Parameter} (h : c.Knows (.type p.type)) :
    askElements c p = .ok (hasElements c p) := by
  obtain ⟨found, hfound⟩ := hc.closed.elementStructOf h
  rw [askElements, hasElements, hfound]
  cases found <;> rfl

lemma askElementwise_eq {c : Catalog} (hc : c.Sound) {e : Endpoints}
    (hsource : c.Knows (.type e.source.type)) (htarget : c.Knows (.type e.target.type)) :
    e.askElementwise c = .ok (e.areElementwise c) := by
  rw [askElementwise, areElementwise, askElements_eq hc hsource, ok_bind,
    askElements_eq hc htarget]
  cases hasElements c e.source <;> rfl

end Endpoints

namespace Conversion

variable (k : Catalog) (v : Conversion)

/-- The expression that converts the source as a whole. -/
def askWhole : Except Dangling Expression := do
  let s ← k.strip v.endpoints.source.type
  let t ← k.strip v.endpoints.target.type
  let source ← k.typeAt s
  let target ← k.typeAt t
  let value := if "&".toList.isPrefixOf v.endpoints.source.written.toList then
    .dereference v.sourceValue else v.sourceValue
  pure (if s = t then v.sourceValue.clone
    else if v.instructions.casts && source.isNumeric && target.isNumeric then
      .cast value target.name
    else v.sourceValue.clone.invoke "into")

/-- Whether a field of the destination is copied by assigning it. -/
def askScalar (field : String) : Except Dangling Bool := do
  match (← k.structOf v.endpoints.target.type).bind fun s => s.field? field true with
  | some f => TypeInfo.isScalar <$> k.typeAt f.type
  | none => pure false

/-- Whether a type is named that is a number type. -/
def askNumeric (name : String) : Except Dangling Bool :=
  match k.typeNamed? name with
  | some id => TypeInfo.isNumeric <$> k.typeAt id
  | none => pure false

/-- The types of both ends are known. -/
structure EndsKnown : Prop where
  source : k.Knows (.type v.endpoints.source.type)
  target : k.Knows (.type v.endpoints.target.type)

variable {k v}

lemma askWhole_eq (hk : k.Sound) (h : v.EndsKnown k) : v.askWhole k = .ok (v.whole k) := by
  obtain ⟨s, -, hs, source, hsource, -⟩ := hk.ends h.source
  obtain ⟨t, -, ht, target, htarget, -⟩ := hk.ends h.target
  have hsourceAt : k.typeAt s = .ok source := by rw [typeAt, hsource]
  have htargetAt : k.typeAt t = .ok target := by rw [typeAt, htarget]
  rw [askWhole, hs, ok_bind, ht, ok_bind, hsourceAt, ok_bind, htargetAt, ok_bind]
  simp only [whole, hs, ht, hsource, htarget, nameOf, Option.any_some, Option.map_some,
    Option.getD_some]
  rfl

lemma askScalar_eq (hk : k.Sound) (h : v.EndsKnown k) (field : String) :
    v.askScalar k field = .ok (v.isScalarField k field) := by
  obtain ⟨found, hfound⟩ := hk.closed.structOf h.target
  rw [askScalar, isScalarField, hfound, ok_bind]
  cases found with
  | none => rfl
  | some s =>
      rw [Option.bind_some]
      cases hf : s.field? field true with
      | none => simp [hf, pure, Except.pure]
      | some f =>
          obtain ⟨id, hid⟩ := exists_struct?_of_structOf hfound
          obtain ⟨t, ht, htype⟩ := (knows_field hk.stored hid (mem_of_findNamed? hf)).typeAt
          simp [hf, ht, htype]

lemma askNumeric_eq (hk : k.Sound) (name : String) :
    askNumeric k name = .ok (isNumericName k name) := by
  rw [askNumeric, isNumericName]
  cases hid : k.typeNamed? name with
  | none => rfl
  | some id =>
      obtain ⟨t, ht, htype⟩ := (hk.stored _ (.typeName hid)).typeAt
      simp [ht, htype]

end Conversion

/-! ## Source units -/

open Generation

/-- What a prepared method says of its ends is what is chosen for it. -/
lemma ensures_prepare (m : Declaration) :
    Ensures (prepare m) fun p => Endpoints.choose m p.instructions = .ok p.endpoints := by
  refine .after fun i => .bind (P := fun e => Endpoints.choose m i = .ok e) ?_ fun e he => .pure he
  intro e he
  have hselect : Endpoints.select m i = .ok e := he
  rw [Endpoints.select] at hselect
  split at hselect
  · rename_i hchoose
    rw [hchoose, Except.ok.inj hselect]
  · exact absurd hselect (by simp)

namespace SourceUnit

/-- A unit that was loaded is made of parsed files. -/
lemma exists_ofParsed {input : Option SourceFile} {includes : List SourceFile}
    {interfaceName : String} {unit : SourceUnit}
    (h : load input includes interfaceName = .ok unit) :
    ∃ file first rest, unit = ofParsed file interfaceName first rest := by
  cases input with
  | none => exact absurd h (by simp [load])
  | some f =>
      rw [load] at h
      cases hfirst : f.parse with
      | error e => simp [hfirst, bind, Except.bind] at h
      | ok first =>
          cases hrest : includes.mapM SourceFile.parse with
          | error e => simp [hfirst, hrest, bind, Except.bind] at h
          | ok rest =>
              simp only [hfirst, hrest, bind, Except.bind, pure, Except.pure, Except.ok.injEq] at h
              exact ⟨f.name, first, rest, h.symm⟩

/-- No number is dangling that is looked up while a unit is generated. -/
structure Grounded (unit : SourceUnit) : Prop where
  /-- Whether a method is element-wise. -/
  elementwise : ∀ e ∈ unit.entries, ∀ p, e.prepared.value = some p →
    p.endpoints.askElementwise unit.catalog = .ok (p.endpoints.areElementwise unit.catalog)
  /-- The plan of a method, whatever the siblings are. -/
  planned : ∀ e ∈ unit.entries, ∀ p, e.prepared.value = some p → ∀ siblings,
    (planning unit.catalog siblings e.declaration p).FailsOnly Fault.IsGrounded
  /-- The function of a method. -/
  whole : ∀ v ∈ unit.conversions, v.askWhole unit.catalog = .ok (v.whole unit.catalog)
  scalar : ∀ v ∈ unit.conversions, ∀ field,
    v.askScalar unit.catalog field = .ok (v.isScalarField unit.catalog field)
  numeric : ∀ name,
    Conversion.askNumeric unit.catalog name = .ok (Conversion.isNumericName unit.catalog name)

/-- An entry is one for a method. -/
lemma declaration_mem {unit : SourceUnit} {e : Entry} (he : e ∈ unit.entries) :
    ∃ i ∈ unit.interfaces, e.declaration ∈ i.methods := by
  have hmethod : (e.interface, e.declaration) ∈ unit.annotated := by
    rw [← unit.entries_declarations]
    exact List.mem_map_of_mem he
  obtain ⟨i, hi, hm⟩ := List.mem_flatMap.1 hmethod
  obtain ⟨m, hm, heq⟩ := List.mem_map.1 hm
  obtain ⟨-, rfl⟩ := Prod.mk.inj heq
  exact ⟨i, List.mem_of_mem_filter hi, hm⟩

/-- The ends of a prepared method are among its parameters and its result. -/
lemma prepared_ends {unit : SourceUnit} {e : Entry} (he : e ∈ unit.entries) {p : Prepared}
    (hp : e.prepared.value = some p) :
    ∃ i ∈ unit.interfaces, ∃ m ∈ i.methods,
      p.endpoints.source ∈ m.parameters ++ m.result.toList
        ∧ p.endpoints.target ∈ m.parameters ++ m.result.toList := by
  obtain ⟨siblings, hsettled⟩ := unit.entry_settled he
  rw [hsettled.prepared] at hp
  have hchoose := ensures_prepare e.declaration p (outcome_of_orOmit hp)
  obtain ⟨i, hi, hm⟩ := declaration_mem he
  exact ⟨i, hi, e.declaration, hm, (Endpoints.chosen_of_choose hchoose).ends_mem⟩

/-- The ends of a conversion are those that are chosen for its declaration. -/
lemma chosen_of_mem {unit : SourceUnit} {c : Conversion} (hc : c ∈ unit.conversions) :
    c.endpoints.Chosen c.declaration c.instructions := by
  obtain ⟨e, he, hconversion⟩ := List.mem_filterMap.1 hc
  rw [Entry.conversion?_eq] at hconversion
  obtain ⟨p, hp, hplanned⟩ := Option.bind_eq_some_iff.1 hconversion
  obtain ⟨plan, -, rfl⟩ := Option.map_eq_some_iff.1 hplanned
  obtain ⟨_, hsettled⟩ := unit.entry_settled he
  rw [hsettled.prepared] at hp
  exact Endpoints.chosen_of_choose (ensures_prepare e.declaration p (outcome_of_orOmit hp))

/-- A conversion is one of a method. -/
lemma method_of_mem {unit : SourceUnit} {c : Conversion} (hc : c ∈ unit.conversions) :
    ∃ i ∈ unit.interfaces, c.declaration ∈ i.methods := by
  obtain ⟨e, he, hconversion⟩ := List.mem_filterMap.1 hc
  obtain ⟨_, -, -, hdeclaration, -⟩ := Entry.conversion?_eq_some hconversion
  exact hdeclaration ▸ declaration_mem he

/-- The types of the ends of a prepared method are those of its parameters and its result. -/
lemma prepared_numbers {unit : SourceUnit} {e : Entry} (he : e ∈ unit.entries) {p : Prepared}
    (hp : e.prepared.value = some p) :
    .type p.endpoints.source.type ∈ unit.interfaces.flatMap Interface.numbers
      ∧ .type p.endpoints.target.type ∈ unit.interfaces.flatMap Interface.numbers := by
  obtain ⟨i, hi, m, hm, hsource, htarget⟩ := prepared_ends he hp
  have hnumbers : ∀ q ∈ m.parameters ++ m.result.toList,
      Number.type q.type ∈ unit.interfaces.flatMap Interface.numbers := fun q hq =>
    List.mem_flatMap.2 ⟨i, hi, List.mem_flatMap.2 ⟨m, hm, List.mem_map_of_mem hq⟩⟩
  exact ⟨hnumbers _ hsource, hnumbers _ htarget⟩

/-- **The generator looks up known numbers only,** if the catalog is sound and the types of the
methods are known. -/
lemma grounded {unit : SourceUnit} (hc : unit.catalog.Sound)
    (hknown : ∀ n ∈ unit.interfaces.flatMap Interface.numbers, unit.catalog.Knows n) :
    unit.Grounded := by
  have hends : ∀ v ∈ unit.conversions, v.EndsKnown unit.catalog := by
    intro v hv
    obtain ⟨e, he, hev⟩ := List.mem_filterMap.1 hv
    obtain ⟨p, hp, -, -, hendpoints⟩ := Entry.conversion?_eq_some hev
    obtain ⟨hsource, htarget⟩ := prepared_numbers he hp
    rw [← hendpoints] at hsource htarget
    exact ⟨hknown _ hsource, hknown _ htarget⟩
  refine ⟨fun e he p hp => ?_, fun e he p hp siblings => ?_, fun v hv => ?_, fun v hv field => ?_,
    Conversion.askNumeric_eq hc⟩
  · obtain ⟨hsource, htarget⟩ := prepared_numbers he hp
    exact Endpoints.askElementwise_eq hc (hknown _ hsource) (hknown _ htarget)
  · obtain ⟨hsource, htarget⟩ := prepared_numbers he hp
    exact Planner.plan_failsOnly hc _ _ (hknown _ hsource) (hknown _ htarget) _
  · exact Conversion.askWhole_eq hc (hends v hv)
  · exact Conversion.askScalar_eq hc (hends v hv) field

end SourceUnit

/-! ## Nothing dangles -/

/-- A catalog that can be used without running into dangling numbers or circles of pointers. -/
structure Catalog.Safe (c : Catalog) : Prop where
  sound : c.Sound
  /-- Looking through pointers ends. -/
  ends : ∀ id, c.Knows (.type id) → ∃ last, c.EndsAt id last
  /-- Planning between known types does not run into a dangling number. -/
  plans : ∀ (siblings : Keyed Bool) (method : String) (i : Instructions) (source target : TypeId)
    (anchor : Position), c.Knows (.type source) → c.Knows (.type target) →
      (Planner.plan ⟨c, siblings⟩ method i source target anchor).FailsOnly Fault.IsGrounded

/-- **Nothing dangles.**  A catalog that was built is safe, the numbers that its operations gave are
known, and no operation fails that is given such numbers.  A source unit that was loaded has a
catalog that was built and types that its operations gave, and generating from it looks up no
dangling number. -/
theorem Built.never_dangles :
    (∀ gave c, Built gave c →
      c.Safe ∧ (∀ n ∈ gave, c.Knows n)
        ∧ ∀ op : Operation, (∀ n ∈ op.given, n ∈ gave) → ∃ r, op.run c = .ok r)
      ∧ ∀ input includes interfaceName unit,
        SourceUnit.load input includes interfaceName = .ok unit →
          (∃ gave, Built gave unit.catalog ∧ unit.interfaces.flatMap Interface.numbers ⊆ gave)
            ∧ unit.Grounded := by
  refine ⟨fun gave c hc => ?_, fun input includes interfaceName unit hunit => ?_⟩
  · obtain ⟨hsound, hknown⟩ := hc.sound
    refine ⟨⟨hsound, fun id hid => hsound.ends hid, ?_⟩, hknown, fun op hop => ?_⟩
    · intro siblings method i source target anchor hsource htarget
      exact Planner.plan_failsOnly hsound method i hsource htarget anchor
    · obtain ⟨answers, c', hrun, -⟩ := hc.goes_on op hop
      exact ⟨_, hrun⟩
  · obtain ⟨file, parsed, rest, rfl⟩ := SourceUnit.exists_ofParsed hunit
    obtain ⟨gave, hgave, hnumbers⟩ := SourceUnit.built_ofParsed file interfaceName parsed rest
    obtain ⟨hsound, hknown⟩ := hgave.sound
    exact ⟨⟨gave, hgave, hnumbers⟩, SourceUnit.grounded hsound fun n hn => hknown n (hnumbers hn)⟩

/-- A file with a structure that holds itself and a method that copies it. -/
def petFile : SourceFile :=
  ⟨"pets.rs", "",
    "struct Pet \x7b next: Box<Pet> \x7d trait StructCopyGen \x7b fn copy(pet: &Pet) -> Pet; \x7d"⟩

/-- No number dangles where a structure refers to itself. -/
theorem pet_never_dangles :
    ∃ unit, SourceUnit.load (some petFile) [] "StructCopyGen" = .ok unit
      ∧ unit.catalog.types.toList.map TypeInfo.name = ["Pet", "Box<Pet>", "&Pet"]
      ∧ unit.entries.length = 1 ∧ unit.catalog.Safe ∧ unit.Grounded := by
  have hitems : Source.parseItems? petFile.text = _ := Source.parseItems?_ofList _
  obtain ⟨unit, hunit, hnames, hlength⟩ :
      ∃ unit, SourceUnit.load (some petFile) [] "StructCopyGen" = .ok unit
        ∧ unit.catalog.types.toList.map TypeInfo.name = ["Pet", "Box<Pet>", "&Pet"]
        ∧ unit.entries.length = 1 := by
    rw [SourceUnit.load_alone, SourceFile.parse, hitems]
    exact exists_ok_of_any (by decide +kernel)
  obtain ⟨⟨gave, hgave, -⟩, hgrounded⟩ := Built.never_dangles.2 _ _ _ unit hunit
  exact ⟨unit, hunit, hnames, hlength, (Built.never_dangles.1 gave _ hgave).1, hgrounded⟩

end FieldCopy
