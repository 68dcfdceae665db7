import Mathlib
import FieldCopy.Proofs.AssignedValues
import FieldCopy.Proofs.HookOrder
import FieldCopy.Proofs.Matching.Casting
import FieldCopy.Proofs.Wrappers

/-!
# What is cast

A function casts a value with `as` in two places: where a field is cast to its type, and where the
source is cast as a whole.  Only scalar values can be cast so, to number types.

**Types of what is cast.**  `Conversion.CastOf` tells what the catalog knows of a value that is
cast: of a member of the source, or of the source itself, through the reference that is
dereferenced.  A text from a directive is not looked into.

**Main statement.**  `SourceUnit.casts_scalars_iff`.  Every cast goes to a number type, and what is
cast is known.  It is a scalar, and every other field that is cast is converted by `from`, unless
something is miscast (`Conversion.Miscasts`): a field is cast to a number from a text or from
another type without parts, or a number is still behind pointers when it is cast.
`SourceUnit.exists_miscast` casts a text.
-/

namespace FieldCopy

open Expression Statement

/-- The name of a pointer is not that of a scalar. -/
lemma PointerName.isScalar_eq_false {inner : String} {t : TypeInfo} (h : PointerName inner t.name) :
    t.isScalar = false := by
  have hscalar : ∀ name ∈ TypeInfo.numericNames ++ ["bool", "char"],
      name.toList.head? ≠ some '&' ∧ name.toList.getLast? ≠ some '>' := by decide
  have hname : t.name.toList.head? = some '&' ∨ t.name.toList.getLast? = some '>' := by
    generalize t.name = name at h
    cases h with
    | reference lifetime mutable =>
        exact .inl (by simp [Lowering.referenceSign, String.toList_append])
    | wrapper front known =>
        exact .inr (by
          simp [String.toList_append, toString, List.getLast?_cons, List.getLast?_append])
  by_contra hnot
  have hmem : t.name ∈ TypeInfo.numericNames ++ ["bool", "char"] := by
    rw [Bool.not_eq_false] at hnot
    simpa [TypeInfo.isScalar, TypeInfo.isNumeric, or_assoc] using hnot
  obtain ⟨hfront, hback⟩ := hscalar _ hmem
  exact hname.elim hfront hback

namespace Matching

variable (k : Matching) {field : FieldInfo}

/-- The member from which a field is read: the one at the path that directives name, or else the one
that matches. -/
def readMember? (field : FieldInfo) : Option Accessor :=
  match k.sourceOverride? field with
  | some path => (k.resolvePath path).toOption.join
  | none => k.accessor? field

variable {k}

/-- A field that is cast is read from a member, and both are without parts. -/
lemma Outcome.exists_cast {name path type : String} (h : k.Outcome field (.cast name path type)) :
    ∃ m s t, k.readMember? field = some m ∧ m.path = path ∧ k.catalog.type? m.type = some s
      ∧ k.catalog.type? field.type = some t ∧ t.name = type ∧ k.Casts s t := by
  have hassigned : ∀ m, k.readMember? field = some m → k.Assigned field m (.cast name path type) →
      ∃ m s t, k.readMember? field = some m ∧ m.path = path ∧ k.catalog.type? m.type = some s
        ∧ k.catalog.type? field.type = some t ∧ t.name = type ∧ k.Casts s t := by
    rintro m hm ⟨⟩
    rename_i s t differs memberType fieldType stays casts
    exact ⟨m, s, t, hm, rfl, Catalog.type?_of_typeAt memberType, Catalog.type?_of_typeAt fieldType,
      rfl, casts⟩
  cases h with
  | matched _ _ _ matched =>
      cases matched with
      | converter given call => cases call
      | followed plain given found assigned =>
          exact hassigned _ (by simp [readMember?, given, found, Except.toOption]) assigned
      | member plain free rule found assigned =>
          exact hassigned _ (by rw [readMember?, free, found]) assigned

end Matching

namespace Conversion

variable (c : Catalog) (siblings : Keyed CallShape) (v : Conversion)

/-- A field of the destination is cast from a member of the source. -/
def CastsField (field : FieldInfo) (m : Accessor) (type : String) : Prop :=
  ∃ s t, c.LeadsToStruct v.endpoints.source.type s
    ∧ c.LeadsToStruct v.endpoints.target.type t ∧ field ∈ t.fields
    ∧ ((v.matching c s).resolve field).outcome.value = .ok (.cast field.name m.path type)
    ∧ (v.matching c s).readMember? field = some m

/-- The type of the source where it is cast as a whole, through a written reference. -/
def wholeType? : Option TypeId :=
  if "&".toList.isPrefixOf v.endpoints.source.written.toList then
    match (c.type? v.endpoints.source.type).map TypeInfo.shape with
    | some (.pointer inner) => some inner
    | _ => none
  else some v.endpoints.source.type

/-- What the catalog knows of a value that is cast to a type. -/
inductive CastOf : Expression → String → Option TypeInfo → Prop
  | member {field : FieldInfo} {m : Accessor} {type : String}
      (casts : v.CastsField c field m type) :
      CastOf (v.sourceMember m.path) type (c.type? m.type)
  | whole {e : Expression} {type : String} (alone : v.plan.assignments = [])
      (casts : v.whole c = .cast e type) : CastOf e type ((v.wholeType? c).bind c.type?)

/-- Only scalars are cast, to number types, and every other field that is cast is converted by
`from`. -/
structure CastsScalars : Prop where
  casts : ∀ e type, .cast e type ∈ partsAll (v.code c siblings).body →
    type ∈ TypeInfo.numericNames ∧ (∃ t?, v.CastOf c e type t?)
      ∧ ∀ t?, v.CastOf c e type t? → t?.any TypeInfo.isScalar = true
  others : ∀ field m type, v.CastsField c field m type →
    ¬ (type ∈ TypeInfo.numericNames ∧ (c.type? m.type).any TypeInfo.isScalar = true) →
      .assign (.member v.target field.name)
          (.call (typeInPath type ++ "::from") [(v.sourceMember m.path).clone])
        ∈ (v.code c siblings).body

/-- A field is cast to a number from what is no scalar, or a number is cast that is still behind
pointers. -/
inductive Miscasts : Prop
  | member {field : FieldInfo} {m : Accessor} {type : String} {t : TypeInfo}
      (casts : v.CastsField c field m type) (numeric : type ∈ TypeInfo.numericNames)
      (known : c.type? m.type = some t) (other : t.isScalar = false)
  | whole {e : Expression} {type : String} {last : TypeId} (alone : v.plan.assignments = [])
      (casts : v.whole c = .cast e type) (ends : c.strip v.endpoints.source.type = .ok last)
      (behind : v.wholeType? c ≠ some last)

/-! ## Fields -/

variable {c siblings v}

lemma CastsField.exists_types {field : FieldInfo} {m : Accessor} {type : String}
    (h : v.CastsField c field m type) :
    ∃ s t, c.type? m.type = some s ∧ c.type? field.type = some t ∧ t.name = type := by
  obtain ⟨s, -, -, -, -, hresolve, hread⟩ := h
  obtain ⟨m', s', t', hm', -, hs', ht', hname, -⟩ :=
    (Matching.ensures_resolve_outcome _ hresolve).exists_cast
  obtain rfl := Option.some.inj (hread.symm.trans hm')
  exact ⟨s', t', hs', ht', hname⟩

/-- A field that is cast to a number type is cast with `as`, and any other one is converted by
`from`. -/
lemma CastsField.fieldValue?_eq (names : c.NamesMatch) {field : FieldInfo} {m : Accessor}
    {type : String} (h : v.CastsField c field m type) :
    v.fieldValue? c (.cast field.name m.path type)
      = some (if type ∈ TypeInfo.numericNames then .cast (v.sourceMember m.path) type
        else .call (typeInPath type ++ "::from") [(v.sourceMember m.path).clone]) := by
  obtain ⟨s, t, -, ht, rfl⟩ := h.exists_types
  have hnumeric : isNumericName c t.name = true ↔ t.name ∈ TypeInfo.numericNames := by
    rw [isNumericName, names.named _ _ ht, Option.bind_some, ht, Option.any_some,
      TypeInfo.isNumeric, List.contains_iff_mem]
  rw [fieldValue?]
  simp only [hnumeric]

/-- The whole source is cast at most once. -/
lemma whole_eq_of_cast_mem {e : Expression} {type : String}
    (h : .cast e type ∈ (v.whole c).parts) : v.whole c = .cast e type := by
  revert h
  unfold whole
  simp only
  split
  · split
    · simp [sourceValue, clone, invoke, Expression.parts, argumentsParts]
    · split
      · split <;> simp [sourceValue, Expression.parts, eq_comm]
      · simp [sourceValue, clone, invoke, Expression.parts, argumentsParts]
  · simp [sourceValue, clone, invoke, Expression.parts, argumentsParts]

/-- What is cast for a field is the member from which it is cast. -/
lemma eq_of_cast_mem {a : Assignment} {value e : Expression} {type : String}
    (hvalue : v.fieldValue? c a = some value) (h : .cast e type ∈ value.parts) :
    ∃ field path, a = .cast field path type ∧ e = v.sourceMember path
      ∧ value = .cast (v.sourceMember path) type := by
  cases a with
  | cast field path target =>
      obtain rfl := Option.some.inj hvalue
      split at h
      · obtain ⟨rfl, rfl⟩ : e = v.sourceMember path ∧ type = target := by
          simpa [sourceMember, Expression.parts] using h
        rename_i hnumeric
        exact ⟨field, path, rfl, rfl, if_pos hnumeric⟩
      · exact absurd h (by simp [sourceMember, clone, invoke, Expression.parts, argumentsParts])
  | copy field path =>
      obtain rfl := Option.some.inj hvalue
      revert h
      split <;> simp [sourceMember, clone, invoke, Expression.parts, argumentsParts]
  | converter field path function byReference fallible =>
      obtain rfl := Option.some.inj hvalue
      revert h
      cases byReference <;> cases fallible <;>
        simp [checked, sourceMember, clone, invoke, Expression.parts, argumentsParts]
  | method field name fallible =>
      obtain rfl := Option.some.inj hvalue
      revert h
      cases fallible <;> simp [checked, sourceValue, invoke, Expression.parts, argumentsParts]
  | getter _ _ | stringer _ _ | literal _ _ =>
      obtain rfl := Option.some.inj hvalue
      exact absurd h (by simp [sourceValue, sourceMember, invoke, Expression.parts, argumentsParts])
  | skip _ _ | delegateLoop _ _ _ _ _ => exact absurd hvalue (by simp [fieldValue?])

/-! ## The whole source -/

/-- A number that is cast as a whole is a number behind all pointers, and it is cast to one. -/
lemma exists_numeric_of_whole {e : Expression} {type : String} (h : v.whole c = .cast e type) :
    ∃ last t, c.strip v.endpoints.source.type = .ok last ∧ c.type? last = some t
      ∧ t.isNumeric = true ∧ type ∈ TypeInfo.numericNames := by
  rw [whole] at h
  split at h
  · rename_i last target hs ht
    dsimp only at h
    split at h
    · exact Expression.noConfusion h
    · split at h
      · rename_i hnumeric
        simp only [Bool.and_eq_true, Option.any_eq_true] at hnumeric
        obtain ⟨⟨-, t, ht, hnumericSource⟩, t', ht', hnumericTarget⟩ := hnumeric
        obtain ⟨-, rfl⟩ := Expression.cast.inj h
        refine ⟨last, t, hs, ht, hnumericSource, ?_⟩
        rw [Catalog.nameOf, ht', Option.map_some, Option.getD_some]
        exact List.contains_iff_mem.1 hnumericTarget
      · exact Expression.noConfusion h
  · exact Expression.noConfusion h

end Conversion

namespace SourceUnit

open Generation Conversion Catalog

variable {unit : SourceUnit} {v : Conversion}

/-- The fields that a plan casts are those that are cast from a member. -/
lemma cast_mem_iff (hv : v ∈ unit.conversions) {name path type : String} :
    .cast name path type ∈ v.plan.assignments
      ↔ ∃ field m, v.CastsField unit.catalog field m type ∧ field.name = name ∧ m.path = path := by
  obtain ⟨siblings, hshaped⟩ := exists_shaped hv
  constructor
  · intro hmem
    obtain ⟨s, t, field, hs, ht, hfield, hfieldShaped⟩ := hshaped.exists_field hmem rfl
    obtain rfl : name = field.name := hfieldShaped.target
    obtain ⟨m, -, -, hread, rfl, -⟩ :=
      (Matching.ensures_resolve_outcome _ hfieldShaped.alone).exists_cast
    exact ⟨field, m, ⟨s, t, hs, ht, hfield, hfieldShaped.alone, hread⟩, rfl, rfl⟩
  · rintro ⟨field, m, ⟨s, t, hs, ht, hfield, hresolve, -⟩, rfl, rfl⟩
    exact hshaped.mem_of_field hs ht hfield hresolve

/-- **Where a function casts:** for a field that is cast to a number type, and for the whole of the
source. -/
lemma cast_mem_body_iff (hv : v ∈ unit.conversions) (names : unit.catalog.NamesMatch)
    (siblings : Keyed CallShape) {e : Expression} {type : String} :
    .cast e type ∈ partsAll (v.code unit.catalog siblings).body
      ↔ (∃ field m, v.CastsField unit.catalog field m type ∧ type ∈ TypeInfo.numericNames
          ∧ e = v.sourceMember m.path)
        ∨ v.plan.assignments = [] ∧ v.whole unit.catalog = .cast e type := by
  constructor
  · intro h
    rcases v.mem_partsAll_body unit.catalog siblings h with ⟨value, hvalue, hparts⟩ | hfixed
    · rcases mem_values_iff.1 hvalue with ⟨hnil, rfl⟩ | ⟨a, ha, hvalue⟩
      · exact .inr ⟨hnil, whole_eq_of_cast_mem hparts⟩
      · obtain ⟨name, path, rfl, rfl, rfl⟩ := eq_of_cast_mem hvalue hparts
        obtain ⟨field, m, hcasts, rfl, rfl⟩ := (cast_mem_iff hv).1 ha
        refine .inl ⟨field, m, hcasts, ?_, rfl⟩
        by_contra hnot
        rw [hcasts.fieldValue?_eq names, if_neg hnot] at hvalue
        cases hvalue
    · exact absurd trivial hfixed.noCast
  · rintro (⟨field, m, hcasts, hnumeric, rfl⟩ | ⟨hnil, hwhole⟩)
    · refine v.parts_subset_body _ _ (mem_values_iff.2 (.inr ⟨_, (cast_mem_iff hv).2
        ⟨field, m, hcasts, rfl, rfl⟩, ?_⟩)) _ (self_mem_parts _)
      rw [hcasts.fieldValue?_eq names, if_pos hnumeric]
    · exact v.parts_subset_body _ _ (mem_values_iff.2 (.inl ⟨hnil, rfl⟩)) _
        (hwhole ▸ self_mem_parts _)

/-- What is cast as a whole is on the way of pointers from the source. -/
lemma leads_of_wholeType {id last : TypeId}
    (hends : unit.catalog.EndsAt v.endpoints.source.type last)
    (h : v.wholeType? unit.catalog = some id) :
    Relation.ReflTransGen unit.catalog.Points id last := by
  rw [wholeType?] at h
  split at h
  · split at h
    · rename_i inner hshape
      obtain rfl := Option.some.inj h
      obtain ⟨t, ht, hpointer⟩ := Option.map_eq_some_iff.1 hshape
      rcases hends.leads.cases_head with rfl | ⟨next, hnext, hleads⟩
      · obtain ⟨s, hs, hlast⟩ := hends.last
        obtain rfl := Option.some.inj (hs.symm.trans ht)
        exact absurd hpointer (hlast _)
      · obtain rfl := unit.catalog.points_rightUnique hnext ⟨t, ht, hpointer⟩
        exact hleads
    · exact absurd h (by simp)
  · exact Option.some.inj h ▸ hends.leads

/-- Where a number is cast as a whole, what is cast is a scalar just if it is not behind
pointers. -/
lemma isScalar_of_wholeType_iff (named : unit.catalog.PointersNamed) {last : TypeId} {t : TypeInfo}
    (hends : unit.catalog.EndsAt v.endpoints.source.type last)
    (ht : unit.catalog.type? last = some t) (hnumeric : t.isNumeric = true) :
    ((v.wholeType? unit.catalog).bind unit.catalog.type?).any TypeInfo.isScalar = true
      ↔ v.wholeType? unit.catalog = some last := by
  constructor
  · intro h
    obtain ⟨s, hs, hscalar⟩ := (Option.any_eq_true _ _).1 h
    obtain ⟨id, hid, hs⟩ := Option.bind_eq_some_iff.1 hs
    rcases (leads_of_wholeType hends hid).cases_head with rfl | ⟨next, hnext, -⟩
    · exact hid
    · obtain ⟨inner, -, hname⟩ := named id next hnext
      rw [Catalog.nameOf, hs, Option.map_some, Option.getD_some] at hname
      exact absurd hscalar (by simp [hname.isScalar_eq_false])
  · intro h
    rw [h, Option.bind_some, ht, Option.any_some, TypeInfo.isScalar, hnumeric]
    rfl

section

variable (hv : v ∈ unit.conversions) (names : unit.catalog.NamesMatch)
  (named : unit.catalog.PointersNamed)

include hv names

/-- Every cast goes to a number type, and what is cast is known. -/
lemma exists_castOf (siblings : Keyed CallShape) {e : Expression} {type : String}
    (h : .cast e type ∈ partsAll (v.code unit.catalog siblings).body) :
    type ∈ TypeInfo.numericNames ∧ ∃ t?, v.CastOf unit.catalog e type t? := by
  rcases (cast_mem_body_iff hv names siblings).1 h with
    ⟨field, m, hcasts, hnumeric, rfl⟩ | ⟨hnil, hwhole⟩
  · exact ⟨hnumeric, _, .member hcasts⟩
  · obtain ⟨_, _, -, -, -, hnumeric⟩ := exists_numeric_of_whole hwhole
    exact ⟨hnumeric, _, .whole hnil hwhole⟩

include named

lemma castsScalars_of_not_miscasts (siblings : Keyed CallShape) (h : ¬ v.Miscasts unit.catalog) :
    v.CastsScalars unit.catalog siblings := by
  have hscalar : ∀ {field m type}, v.CastsField unit.catalog field m type →
      type ∈ TypeInfo.numericNames →
        (unit.catalog.type? m.type).any TypeInfo.isScalar = true := by
    intro field m type hcasts hnumeric
    obtain ⟨s, -, hs, -, -⟩ := hcasts.exists_types
    by_contra hnot
    rw [hs, Option.any_some, Bool.not_eq_true] at hnot
    exact h (.member hcasts hnumeric hs hnot)
  refine ⟨fun e type hmem => ?_, fun field m type hcasts hnot => ?_⟩
  · obtain ⟨hnumeric, hknown⟩ := exists_castOf hv names siblings hmem
    refine ⟨hnumeric, hknown, ?_⟩
    rintro _ (⟨hcasts⟩ | ⟨hnil, hwhole⟩)
    · exact hscalar hcasts hnumeric
    · obtain ⟨last, t, hstrip, ht, hnumeric, -⟩ := exists_numeric_of_whole hwhole
      refine (isScalar_of_wholeType_iff named (endsAt_of_strip hstrip) ht hnumeric).2 ?_
      by_contra hbehind
      exact h (.whole hnil hwhole hstrip hbehind)
  · have hother : type ∉ TypeInfo.numericNames := fun hnumeric =>
      hnot ⟨hnumeric, hscalar hcasts hnumeric⟩
    have hvalue := hcasts.fieldValue?_eq names
    rw [if_neg hother] at hvalue
    rw [body_eq]
    simp only [List.mem_append, List.mem_flatMap]
    refine .inr (.inl (.inl ⟨_, (cast_mem_iff hv).2 ⟨field, m, hcasts, rfl, rfl⟩, ?_⟩))
    rw [assignment, hvalue]
    · exact List.mem_singleton_self _
    · exact fun _ _ _ _ _ => Assignment.noConfusion
    · exact fun _ _ => Assignment.noConfusion

lemma CastsScalars.not_miscasts {siblings : Keyed CallShape}
    (h : v.CastsScalars unit.catalog siblings) : ¬ v.Miscasts unit.catalog := by
  rintro (⟨hcasts, hnumeric, hknown, hother⟩ | ⟨hnil, hwhole, hstrip, hbehind⟩)
  · have hmem := (cast_mem_body_iff hv names siblings).2 (.inl ⟨_, _, hcasts, hnumeric, rfl⟩)
    have hscalar := (h.casts _ _ hmem).2.2 _ (.member hcasts)
    rw [hknown, Option.any_some, hother] at hscalar
    exact Bool.false_ne_true hscalar
  · have hmem := (cast_mem_body_iff hv names siblings).2 (.inr ⟨hnil, hwhole⟩)
    obtain ⟨last, t, hstrip', ht, hnumeric, -⟩ := exists_numeric_of_whole hwhole
    obtain rfl := Except.ok.inj (hstrip.symm.trans hstrip')
    exact hbehind ((isScalar_of_wholeType_iff named (endsAt_of_strip hstrip) ht hnumeric).1
      ((h.casts _ _ hmem).2.2 _ (.whole hnil hwhole)))

end

/-- **Only scalars are cast, unless something is miscast.**  Every cast goes to a number type, and
what is cast is known. -/
theorem casts_scalars_iff {input : Option SourceFile} {includes : List SourceFile}
    {interfaceName : String} (h : load input includes interfaceName = .ok unit) :
    ∀ v ∈ unit.conversions,
      (∀ e type, .cast e type ∈ partsAll (v.code unit.catalog (callShapes unit.entries)).body →
        type ∈ TypeInfo.numericNames ∧ ∃ t?, v.CastOf unit.catalog e type t?)
      ∧ (v.CastsScalars unit.catalog (callShapes unit.entries) ↔ ¬ v.Miscasts unit.catalog) := by
  obtain ⟨file, first, rest, rfl⟩ := exists_ofParsed h
  obtain ⟨gave, hbuilt, -⟩ := built_ofParsed file interfaceName first rest
  have names := hbuilt.namesMatch
  have named := pointersNamed_ofParsed file interfaceName first rest
  exact fun v hv => ⟨fun e type hmem => exists_castOf hv names _ hmem,
    fun hscalars => CastsScalars.not_miscasts hv names named hscalars,
    castsScalars_of_not_miscasts hv names named _⟩

/-- A file with a method that casts a text, and one that casts a number. -/
def ageFile : SourceFile :=
  ⟨"age.rs", "",
    "struct Pet\x7bage:String\x7d
struct Card\x7bage:u64\x7d
trait Copy\x7b///:typecast
fn card(pet:&Pet)->Card;
///:typecast
fn wide(age:&u8)->u64;\x7d"⟩

/-- The age of a type. -/
def ageField (type : TypeId) : FieldInfo := ⟨"age", type, none, false, false⟩

/-- A structure with an age. -/
def aged (name : String) (age : TypeId) : StructInfo := ⟨name, "", [ageField age], []⟩

set_option maxRecDepth 4000 in
/-- What the file is loaded to. -/
lemma load_ageFile :
    ∃ unit, load (some ageFile) [] "Copy" = .ok unit
      ∧ (∃ v ∈ unit.conversions, linesAll (v.code unit.catalog (callShapes unit.entries)).body
            = ["let mut dst = Card::default();", "dst.age = pet.age as u64;", "dst"]
          ∧ unit.catalog.structOf v.endpoints.source.type = .ok (some (aged "Pet" ⟨0⟩))
          ∧ unit.catalog.structOf v.endpoints.target.type = .ok (some (aged "Card" ⟨1⟩))
          ∧ ((v.matching unit.catalog (aged "Pet" ⟨0⟩)).resolve (ageField ⟨1⟩)).outcome.value
            = .ok (.cast "age" "age" "u64")
          ∧ (v.matching unit.catalog (aged "Pet" ⟨0⟩)).readMember? (ageField ⟨1⟩)
            = some ⟨"age", ⟨0⟩, false⟩
          ∧ unit.catalog.type? ⟨0⟩ = some ⟨⟨0⟩, "String", .basic⟩)
      ∧ ∃ v ∈ unit.conversions, linesAll (v.code unit.catalog (callShapes unit.entries)).body
            = ["let dst = *age as u64;", "dst"]
          ∧ unit.catalog.structOf v.endpoints.source.type = .ok none
          ∧ unit.catalog.strip v.endpoints.source.type = .ok ⟨5⟩
          ∧ v.wholeType? unit.catalog = some ⟨5⟩ := by
  have hitems : Source.parseItems? ageFile.text = _ := Source.parseItems?_ofList _
  rw [load_alone, SourceFile.parse, hitems]
  exact exists_ok_of_any (by decide +kernel)

/-- What a reference to a number refers to is cast to a wider number type. -/
theorem wide_casts_scalar :
    ∃ unit, load (some ageFile) [] "Copy" = .ok unit
      ∧ ∃ v ∈ unit.conversions, v.CastsScalars unit.catalog (callShapes unit.entries)
        ∧ linesAll (v.code unit.catalog (callShapes unit.entries)).body
          = ["let dst = *age as u64;", "dst"] := by
  obtain ⟨unit, hload, -, v, hv, hlines, hsource, hstrip, hwhole⟩ := load_ageFile
  refine ⟨unit, hload, v, hv, ((casts_scalars_iff hload v hv).2.2 ?_), hlines⟩
  rintro (⟨⟨s, _, hs, -⟩, -⟩ | ⟨-, -, hends, hbehind⟩)
  · exact absurd ((structOf_eq_some_iff hsource s).2 hs) (by simp)
  · obtain rfl := Except.ok.inj (hstrip.symm.trans hends)
    exact hbehind hwhole

/-- **What is no scalar can be cast.**  A text is cast to a number. -/
theorem exists_miscast :
    ∃ unit, load (some ageFile) [] "Copy" = .ok unit
      ∧ ∃ v ∈ unit.conversions,
        v.CastOf unit.catalog (v.sourceMember "age") "u64" (some ⟨⟨0⟩, "String", .basic⟩)
        ∧ ¬ v.CastsScalars unit.catalog (callShapes unit.entries)
        ∧ linesAll (v.code unit.catalog (callShapes unit.entries)).body
          = ["let mut dst = Card::default();", "dst.age = pet.age as u64;", "dst"] := by
  obtain ⟨unit, hload, ⟨v, hv, hlines, hs, ht, hresolve, hread, htext⟩, -⟩ := load_ageFile
  have hcasts : v.CastsField unit.catalog (ageField ⟨1⟩) ⟨"age", ⟨0⟩, false⟩ "u64" :=
    ⟨_, _, (structOf_eq_some_iff hs _).1 rfl, (structOf_eq_some_iff ht _).1 rfl,
      List.mem_singleton_self _, hresolve, hread⟩
  obtain ⟨file, first, rest, rfl⟩ := exists_ofParsed hload
  obtain ⟨gave, hbuilt, -⟩ := built_ofParsed file "Copy" first rest
  have named := pointersNamed_ofParsed file "Copy" first rest
  refine ⟨_, hload, v, hv, htext ▸ .member hcasts, fun h => ?_, hlines⟩
  exact CastsScalars.not_miscasts hv hbuilt.namesMatch named h
    (.member hcasts (by decide) htext rfl)

end SourceUnit

end FieldCopy
