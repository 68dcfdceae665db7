import Mathlib
import FieldCopy.Proofs.GroundedGeneration
import FieldCopy.Proofs.Loading.Traversal
import FieldCopy.Proofs.PlanShapes

/-!
# Wrappers that are looked through

A type is often taken for what is found behind all pointers: where a path goes on behind a member,
where a member is turned into text, and where a value is copied as a whole.  In the code that is
written then, nothing stands for the pointers.

**Kinds of wrappers.**  That is right for references and for boxes, which are dereferenced where
their content is meant (`IsDereferenced`).  It is not for a value that may be absent (`IsOptional`),
and that is a pointer of the catalog as well.

**What is looked through.**  Pointers of a loaded catalog are named after what they point to, so
each of them is of one of these kinds.  `Conversion.LooksThrough` tells of a conversion that all
that is looked through in it is of a given kind.

**Main statement.**  `SourceUnit.looks_through`: whatever is looked through in the conversions of a
loaded unit is dereferenced or optional.  `SourceUnit.exists_optional`: not all of it is
dereferenced.
-/

namespace FieldCopy

open Source Catalog

/-! ## Kinds of wrappers -/

/-- The last names of wrappers that are dereferenced where their content is meant. -/
def dereferencedNames : List String := ["Box", "Rc", "Arc"]

/-- The name of a pointer that is dereferenced where its content is meant. -/
inductive IsDereferenced (inner : String) : String → Prop where
  | reference (lifetime : Option String) (mutable : Bool) :
      IsDereferenced inner (Lowering.referenceSign lifetime mutable ++ inner)
  | wrapper (front : List String) {word : String} (known : word ∈ dereferencedNames) :
      IsDereferenced inner s!"{ModulePath.join (front ++ [word])}<{inner}>"

/-- The last name of wrappers that hold a value or none. -/
def optionalName : String := "Option"

/-- The name of a value that may be absent. -/
def IsOptional (inner name : String) : Prop :=
  ∃ front : List String, name = s!"{ModulePath.join (front ++ [optionalName])}<{inner}>"

lemma ModulePath.suffix_join (front : List String) (word : String) :
    word.toList <:+ (ModulePath.join (front ++ [word])).toList := by
  cases front with
  | nil => rw [List.nil_append, ModulePath.join, String.intercalate_singleton]
  | cons first rest =>
      rw [ModulePath.join,
        String.intercalate_append_of_ne_nil (List.cons_ne_nil _ _) (List.cons_ne_nil _ _),
        String.intercalate_singleton, String.toList_append]
      exact List.suffix_append _ _

/-- A value that may be absent is not dereferenced. -/
lemma IsOptional.not_isDereferenced {inner name : String} (h : IsOptional inner name)
    (plain : name.toList.head? ≠ some '&') : ¬ IsDereferenced inner name := by
  obtain ⟨front, hoptional⟩ := h
  rintro (⟨lifetime, mutable⟩ | @⟨front', word, known⟩)
  · exact plain (by simp [Lowering.referenceSign, String.toList_append])
  · have hjoin : (ModulePath.join (front' ++ [word])).toList
        = (ModulePath.join (front ++ [optionalName])).toList := by
      simpa [← String.toList_inj, String.toList_append, toString] using hoptional
    have hends := List.suffix_or_suffix_of_suffix (hjoin ▸ ModulePath.suffix_join front' word)
      (ModulePath.suffix_join front optionalName)
    have hnever : ∀ w ∈ dereferencedNames,
        ¬ (w.toList <:+ optionalName.toList ∨ optionalName.toList <:+ w.toList) := by decide
    exact hnever word known hends

lemma PointerName.isDereferenced_or_isOptional {inner name : String} (h : PointerName inner name) :
    IsDereferenced inner name ∨ IsOptional inner name := by
  cases h with
  | reference l m => exact .inl (.reference l m)
  | @wrapper front word known =>
      by_cases hword : word = optionalName
      · exact .inr ⟨front, by rw [hword]⟩
      · rw [optionalName] at hword
        refine .inl (.wrapper front ?_)
        simpa [Lowering.pointerNames, dereferencedNames, hword] using known

namespace Catalog

/-- Looking through pointers leads from a type to another, and the names of each pointer on the way
and of what it points to are as required. -/
structure Uncovers (c : Catalog) (P : String → String → Prop) (id last : TypeId) : Prop where
  ends : c.EndsAt id last
  pointers : ∀ a b, Relation.ReflTransGen c.Points id a → c.Points a b →
    P (c.nameOf b) (c.nameOf a)

/-- Looking through pointers leads from a type to a structure. -/
def UncoversStruct (c : Catalog) (P : String → String → Prop) (id : TypeId) (s : StructInfo) :
    Prop :=
  ∃ last t d, c.Uncovers P id last ∧ c.type? last = some t ∧ t.shape = .struct d
    ∧ c.struct? d = some s

variable {c : Catalog} (named : c.PointersNamed)

include named

lemma PointersNamed.uncovers {id last : TypeId} (h : c.EndsAt id last) :
    c.Uncovers (fun inner name => IsDereferenced inner name ∨ IsOptional inner name) id last where
  ends := h
  pointers a b _ hpoints := by
    obtain ⟨t, ht, hname⟩ := named a b hpoints
    have hnameOf : c.nameOf b = t.name := by rw [nameOf, ht, Option.map_some, Option.getD_some]
    rw [hnameOf]
    exact hname.isDereferenced_or_isOptional

lemma PointersNamed.uncoversStruct {id : TypeId} {s : StructInfo}
    (h : c.structOf id = .ok (some s)) :
    c.UncoversStruct (fun inner name => IsDereferenced inner name ∨ IsOptional inner name) id
      s := by
  obtain ⟨last, t, d, hleads, ht, hshape, hs⟩ := (structOf_eq_some_iff h s).1 rfl
  obtain ⟨d', hd', -⟩ := exists_of_bind_eq_ok h
  obtain ⟨t', ht', -⟩ := exists_of_bind_eq_ok hd'
  obtain ⟨last', hends, -⟩ := endsAt_of_stripped ht'
  obtain rfl := hends.eq_last hleads ht (by simp [hshape])
  exact ⟨last, t, d, named.uncovers hends, ht, hshape, hs⟩

end Catalog

/-! ## Paths -/

/-- A path of members leads from a structure to a type, through what uncovers structures. -/
inductive Followed (c : Catalog) (P : String → String → Prop) (caseSensitive : Bool) :
    StructInfo → List String → TypeId → Prop where
  | last {s : StructInfo} {segment : String} {m : Accessor}
      (found : Matching.member? s caseSensitive segment = some m) :
      Followed c P caseSensitive s [segment] m.type
  | through {s inner : StructInfo} {segment : String} {rest : List String} {m : Accessor}
      {id : TypeId} (found : Matching.member? s caseSensitive segment = some m)
      (uncovers : c.UncoversStruct P m.type inner)
      (onward : Followed c P caseSensitive inner rest id) :
      Followed c P caseSensitive s (segment :: rest) id

/-- **A path is followed through what uncovers structures.** -/
lemma followed_of_follow {c : Catalog} (named : c.PointersNamed) {caseSensitive : Bool}
    {a : Accessor} {path : List String} {s : StructInfo} {done : List String}
    (h : Matching.follow c caseSensitive s done path = .ok (some a)) :
    Followed c (fun inner name => IsDereferenced inner name ∨ IsOptional inner name) caseSensitive s
      path a.type := by
  induction path generalizing s done with
  | nil => exact absurd h (by simp [Matching.follow, pure, Except.pure])
  | cons segment rest ih =>
      obtain ⟨m, hm, ⟨rfl, rfl⟩ | ⟨inner, hinner, h⟩⟩ := Matching.exists_of_follow_cons h
      · exact Followed.last (m := m) hm
      · exact .through hm (named.uncoversStruct hinner) (ih h)

/-! ## Conversions -/

namespace Conversion

/-- What there is to match the fields of a conversion against. -/
def matching (c : Catalog) (v : Conversion) (s : StructInfo) : Matching :=
  ⟨c, v.instructions, s, v.declaration.name, v.declaration.position⟩

end Conversion

/-- A member of the source that produces a field: the one at the path that directives name, or the
one that matches. -/
def Matching.Reads (k : Matching) (field : FieldInfo) (m : Accessor) : Prop :=
  (∃ path, k.sourceOverride? field = some path ∧ k.resolvePath path = .ok (some m))
    ∨ k.accessor? field = some m

/-- The pointers that are looked through in a conversion are as required. -/
structure Conversion.LooksThrough (c : Catalog) (P : String → String → Prop) (v : Conversion) :
    Prop where
  /-- Where a path goes on behind a member. -/
  paths : ∀ s path m, (v.matching c s).resolvePath path = .ok (some m) →
    Followed c P v.instructions.caseSensitive s (Matching.segments path) m.type
  /-- Where a member is turned into text. -/
  texts : ∀ name path, .stringer name path ∈ v.plan.assignments →
    ∃ s field m last, c.LeadsToStruct v.endpoints.source.type s ∧ field.name = name
      ∧ (v.matching c s).Reads field m ∧ m.path = path ∧ c.Uncovers P m.type last
      ∧ last ∈ c.stringers
  /-- Where a value is copied as a whole. -/
  whole : v.whole c = v.sourceValue.clone →
    ∃ last, c.Uncovers P v.endpoints.source.type last ∧ c.Uncovers P v.endpoints.target.type last

namespace Matching

variable {k : Matching} {field : FieldInfo} {name path : String}

/-- What is turned into text is a member that can be. -/
lemma Outcome.exists_turned (h : k.Outcome field (.stringer name path)) :
    ∃ m, k.Reads field m ∧ m.path = path ∧ k.catalog.isStringer m.type = .ok true := by
  have hassigned : ∀ m, k.Assigned field m (.stringer name path) →
      m.path = path ∧ k.catalog.isStringer m.type = .ok true := by
    rintro m ⟨⟩
    rename_i turns
    exact ⟨rfl, turns.2.2⟩
  cases h with
  | matched _ _ _ matched =>
      cases matched with
      | converter given call => cases call
      | followed plain given found assigned =>
          exact ⟨_, .inl ⟨_, given, found⟩, hassigned _ assigned⟩
      | member plain free rule found assigned =>
          exact ⟨_, .inr found, hassigned _ assigned⟩

end Matching

namespace SourceUnit

open Generation

/-- The plan of a conversion was made with some siblings. -/
lemma exists_planned {unit : SourceUnit} {v : Conversion} (hv : v ∈ unit.conversions) :
    ∃ siblings, (Planner.plan ⟨unit.catalog, siblings⟩ v.declaration.name v.instructions
      v.endpoints.source.type v.endpoints.target.type v.declaration.position).outcome.value
        = .ok v.plan := by
  obtain ⟨e, he, hev⟩ := List.mem_filterMap.1 hv
  obtain ⟨siblings, hsettled⟩ := unit.entry_settled he
  rw [Entry.conversion?_eq] at hev
  obtain ⟨p, hp, hev⟩ := Option.bind_eq_some_iff.1 hev
  obtain ⟨plan, hplan, rfl⟩ := Option.map_eq_some_iff.1 hev
  exact ⟨siblings, hsettled.planning_eq hp hplan⟩

/-- The plan of a conversion has the shape that its ends ask for, with some siblings. -/
lemma exists_shaped {unit : SourceUnit} {v : Conversion} (hv : v ∈ unit.conversions) :
    ∃ siblings, Planner.Shaped ⟨unit.catalog, siblings⟩ v.declaration.name v.instructions
      v.endpoints.source.type v.endpoints.target.type v.declaration.position
      v.plan.assignments := by
  obtain ⟨siblings, hplan⟩ := exists_planned hv
  exact ⟨siblings, Planner.ensures_plan_shaped _ _ _ _ _ _ _ hplan⟩

end SourceUnit

namespace Planner

variable {k : Planner} {method : String} {i : Instructions} {source target : TypeId}
  {anchor : Position} {name path : String}

/-- What a plan turns into text comes of matching a field of the destination. -/
lemma Shaped.exists_outcome {as : List Assignment} (h : k.Shaped method i source target anchor as)
    (hmem : .stringer name path ∈ as) :
    ∃ s field, k.catalog.LeadsToStruct source s ∧ field.name = name
      ∧ Matching.Outcome ⟨k.catalog, i, s, method, anchor⟩ field (.stringer name path) := by
  obtain ⟨s, t, field, hs, -, -, hshaped⟩ := h.exists_field hmem rfl
  exact ⟨s, field, hs, hshaped.target.symm, Matching.ensures_resolve_outcome _ hshaped.alone⟩

end Planner

namespace Conversion

variable {c : Catalog} {v : Conversion}

/-- A value is copied as a whole only between types that are one type behind all pointers. -/
lemma strip_eq_of_whole (h : v.whole c = v.sourceValue.clone) :
    ∃ last, c.strip v.endpoints.source.type = .ok last
      ∧ c.strip v.endpoints.target.type = .ok last := by
  have hinto : ∀ e : Expression, e.invoke "into" ≠ v.sourceValue.clone := by
    intro e he
    exact absurd (Expression.methodCall.inj he).2.1 (by decide)
  rw [whole] at h
  split at h
  · rename_i s t hs ht
    dsimp only at h
    split at h
    · rename_i hsame
      exact ⟨s, hs, hsame ▸ ht⟩
    · split at h
      · exact Expression.noConfusion h
      · exact absurd h (hinto _)
  · exact absurd h (hinto _)

end Conversion

namespace SourceUnit

/-- **What is looked through in a loaded unit is dereferenced or optional:** where a path goes on
behind a member, where a member is turned into text, and where a value is copied as a whole. -/
theorem looks_through {input : Option SourceFile} {includes : List SourceFile}
    {interfaceName : String} {unit : SourceUnit}
    (h : load input includes interfaceName = .ok unit) :
    ∀ v ∈ unit.conversions, v.LooksThrough unit.catalog
      fun inner name => IsDereferenced inner name ∨ IsOptional inner name := by
  obtain ⟨file, first, rest, rfl⟩ := exists_ofParsed h
  have named := pointersNamed_ofParsed file interfaceName first rest
  intro v hv
  refine ⟨fun s path m hm => followed_of_follow named hm, fun name path hmem => ?_,
    fun hwhole => ?_⟩
  · obtain ⟨siblings, hshaped⟩ := exists_shaped hv
    obtain ⟨s, field, hs, hname, houtcome⟩ := hshaped.exists_outcome hmem
    obtain ⟨m, hreads, hpath, hstringer⟩ := houtcome.exists_turned
    obtain ⟨last, hstrip, hlast⟩ := exists_of_bind_eq_ok hstringer
    refine ⟨s, field, m, last, hs, hname, hreads, hpath,
      named.uncovers (endsAt_of_strip hstrip), ?_⟩
    exact List.contains_iff_mem.1 (Except.ok.inj hlast)
  · obtain ⟨last, hsource, htarget⟩ := v.strip_eq_of_whole hwhole
    exact ⟨last, named.uncovers (endsAt_of_strip hsource), named.uncovers (endsAt_of_strip htarget)⟩

/-! ### A kind that may be absent -/

/-- A file with a method that turns a kind that may be absent into a text. -/
def kindFile : SourceFile :=
  ⟨"pets.rs", "",
    "impl Display for Kind\x7b\x7d
struct Pet\x7bkind:Option<Kind>\x7d
struct Card\x7bkind:String\x7d
trait Copy\x7b///:stringer
fn card(pet:&Pet)->Card;\x7d"⟩

/-- The kind that may be absent. -/
def kindField : FieldInfo := ⟨"kind", ⟨1⟩, none, true, false⟩

/-- The structure with the kind. -/
def kindPet : StructInfo := ⟨"Pet", "", [kindField], []⟩

set_option maxRecDepth 4000 in
/-- What the file is loaded to. -/
lemma load_kindFile :
    ∃ unit, load (some kindFile) [] "Copy" = .ok unit
      ∧ unit.catalog.type? ⟨1⟩ = some ⟨⟨1⟩, "Option<Kind>", .pointer ⟨0⟩⟩
      ∧ unit.catalog.type? ⟨0⟩ = some ⟨⟨0⟩, "Kind", .basic⟩
      ∧ ∃ v ∈ unit.conversions, v.plan.assignments = [.stringer "kind" "kind"]
          ∧ v.instructions.matching = .name ∧ v.instructions.caseSensitive = true
          ∧ v.instructions.fieldOverrides = .empty
          ∧ (unit.catalog.structOf v.endpoints.source.type).toOption.any (· = some kindPet) := by
  have hitems : Source.parseItems? kindFile.text = _ := Source.parseItems?_ofList _
  rw [load_alone, SourceFile.parse, hitems]
  exact exists_ok_of_any (by decide +kernel)

/-- Without directives, the kind is what produces a field of its name. -/
lemma type_of_reads {k : Matching} (hrule : k.instructions.matching = .name)
    (hcase : k.instructions.caseSensitive = true) (hplain : k.instructions.fieldOverrides = .empty)
    (hsource : k.source = kindPet) {field : FieldInfo} (hname : field.name = "kind") {m : Accessor}
    (h : k.Reads field m) : m.type = ⟨1⟩ := by
  have hfree : k.sourceOverride? field = none := by
    rw [Matching.sourceOverride?, Instructions.override?, hplain, hcase]
    rfl
  have hfound : k.accessor? field = some (Matching.ofField kindField) := by
    rw [Matching.accessor?, Matching.matchingField?, hrule, hcase, hsource, hname]
    rfl
  rcases h with ⟨path, hpath, -⟩ | hm
  · rw [hfree] at hpath
    exact absurd hpath (by simp)
  · rw [hfound] at hm
    exact Option.some.inj hm ▸ rfl

/-- The kind is turned into text through its wrapper. -/
theorem kind_looked_through :
    ∃ unit, load (some kindFile) [] "Copy" = .ok unit
      ∧ ∃ v ∈ unit.conversions, .stringer "kind" "kind" ∈ v.plan.assignments
        ∧ v.LooksThrough unit.catalog
            fun inner name => IsDereferenced inner name ∨ IsOptional inner name := by
  obtain ⟨unit, hload, -, -, v, hv, hplan, -⟩ := load_kindFile
  exact ⟨unit, hload, v, hv, hplan ▸ List.mem_singleton_self _, looks_through hload v hv⟩

/-- **Not all that is looked through is dereferenced.**  What may be absent is turned into text. -/
theorem exists_optional :
    ¬ ∀ (input : Option SourceFile) (includes : List SourceFile) (interfaceName : String)
        (unit : SourceUnit), load input includes interfaceName = .ok unit →
          ∀ v ∈ unit.conversions, v.LooksThrough unit.catalog IsDereferenced := by
  intro h
  obtain ⟨unit, hload, hoptional, hkind, v, hv, hplan, hrule, hcase, hplain, hsource⟩ :=
    load_kindFile
  obtain ⟨s, field, m, last, hs, hname, hreads, -, huncovers, -⟩ :=
    (h _ _ _ unit hload v hv).texts "kind" "kind" (hplan ▸ List.mem_singleton_self _)
  obtain ⟨found, hstruct, hpet⟩ := exists_ok_of_any hsource
  obtain rfl : kindPet = s := Option.some.inj (hpet ▸ (structOf_eq_some_iff hstruct s).2 hs)
  have hm := type_of_reads hrule hcase hplain rfl hname hreads
  have hpoints : unit.catalog.Points ⟨1⟩ ⟨0⟩ := ⟨_, hoptional, rfl⟩
  have hdereferenced := huncovers.pointers ⟨1⟩ ⟨0⟩ (hm ▸ .refl) hpoints
  rw [nameOf, nameOf, hoptional, hkind] at hdereferenced
  exact IsOptional.not_isDereferenced ⟨[], by decide⟩ (by decide) hdereferenced

end SourceUnit

end FieldCopy
