import Mathlib
import FieldCopy.Proofs.Loading.Fields
import FieldCopy.Proofs.Matching.Spelling
import FieldCopy.Proofs.Wrappers

/-!
# How generated code names fields

The fields of the catalog have the names of declared fields without the mark of raw names, and the
code accesses fields by the names in the catalog.  A word that is a keyword stands for an identifier
only behind the mark.

**Words.**  `Source.identifier?` is the identifier that a word stands for.  The name of a declared
field without its mark stands for the same one unless it is a keyword
(`Source.Field.identifier?_bareName_iff`).

**Origins.**  While files are loaded, each field of each structure is one that a declaration of the
structure lists (`Loading.Sourced`).

**Accesses.**  A statement assigns the field of the destination by the name that the field has in
the catalog, and a field of the source that matching finds is read by the name that it has there
(`Matching.FindsField`).

**Main statement.**  `SourceUnit.accesses_read_iff`: fields are accessed by the declared identifiers
exactly if no mark stands in front of a keyword.  `SourceUnit.exists_keyword_access` has one.
-/

namespace FieldCopy

open Source Catalog ModulePath

/-! ## Words and identifiers -/

namespace Source

/-- A name is written with the mark of raw names. -/
def IsRaw (w : String) : Prop := "r#".toList <+: w.toList

instance (w : String) : Decidable (IsRaw w) := inferInstanceAs (Decidable (_ <+: _))

/-- The identifier that a word stands for.  A keyword stands for one only behind the mark of raw
names, which is no part of the identifier. -/
def identifier? (w : String) : Option String :=
  if IsRaw w then some (String.ofList (w.toList.drop 2))
  else if w ∈ Ahead.reserved then none
  else some w

/-- An identifier ends in front of a number sign. -/
lemma identifier?_mark (s : List Char) :
    Scan.identifier? ('r' :: '#' :: s) = some (['r'], '#' :: s) := by
  have hend : isIdentifierPart '#' = false := by decide
  rw [Scan.identifier?, if_pos (by decide), List.span_eq_takeWhile_dropWhile,
    List.takeWhile_cons_of_neg (by simp [hend]), List.dropWhile_cons_of_neg (by simp [hend])]

/-- There is one mark at most. -/
lemma IsWord.not_isRaw_drop {w : String} (hw : IsWord w) (h : IsRaw w) :
    ¬ "r#".toList <+: w.toList.drop 2 := by
  rintro ⟨rest, hrest⟩
  obtain ⟨s, hs⟩ := h
  have hname := hw.name
  have hmarked : w.toList = 'r' :: '#' :: s := hs.symm
  obtain rfl : 'r' :: '#' :: rest = s := by
    rw [hmarked] at hrest
    exact hrest
  rw [hmarked, Scan.name?, identifier?_mark] at hname
  exact absurd hname (by simp [Scan.neverRaw])

namespace Field

variable {f : Field}

lemma bareName_eq (h : ¬ IsRaw f.name) : f.bareName = f.name := by
  rw [bareName, Text.dropRepeated_of_not_prefix h, String.ofList_toList]

lemma toList_bareName (hw : IsWord f.name) (h : IsRaw f.name) :
    f.bareName.toList = f.name.toList.drop 2 := by
  have hmark : "r#".toList ≠ [] := by decide
  have hsingle := hw.not_isRaw_drop h
  obtain ⟨s, hs⟩ := h
  have hdrop : f.name.toList.drop 2 = s := by
    rw [← hs]
    rfl
  rw [hdrop] at hsingle ⊢
  refine String.toList_ofList.trans ?_
  rw [← hs, Text.dropRepeated_append hmark, Text.dropRepeated_of_not_prefix hsingle]

/-- **The bare name of a field is read as the identifier that is declared** unless it is a keyword
that is declared with a mark. -/
lemma identifier?_bareName_iff (hw : IsWord f.name) :
    identifier? f.bareName = identifier? f.name
      ↔ ¬ (IsRaw f.name ∧ f.bareName ∈ Ahead.reserved) := by
  by_cases hraw : IsRaw f.name
  · have htext := toList_bareName hw hraw
    have hplain : ¬ IsRaw f.bareName := fun h => hw.not_isRaw_drop hraw (htext ▸ h)
    rw [identifier?, identifier?, if_neg hplain, if_pos hraw, ← htext, String.ofList_toList]
    by_cases hkeyword : f.bareName ∈ Ahead.reserved
    · rw [if_pos hkeyword]
      exact iff_of_false (by simp) fun h => h ⟨hraw, hkeyword⟩
    · rw [if_neg hkeyword]
      exact iff_of_true rfl fun h => hkeyword h.2
  · rw [bareName_eq hraw]
    exact iff_of_true rfl fun h => hraw h.1

/-- How a field is accessed by its bare name. -/
structure AccessedBy (f : Field) (access : String) : Prop where
  bare : access = f.bareName
  /-- A name without a mark is the declared one. -/
  plain : ¬ IsRaw f.name → access = f.name
  /-- The name is read as the declared identifier unless a keyword has lost its mark. -/
  reads_iff : identifier? access = identifier? f.name
    ↔ ¬ (IsRaw f.name ∧ access ∈ Ahead.reserved)

lemma accessedBy_bareName (hw : IsWord f.name) : f.AccessedBy f.bareName :=
  ⟨rfl, bareName_eq, identifier?_bareName_iff hw⟩

end Field

end Source

/-! ## Where fields come from -/

namespace Catalog

/-- A structure of a catalog in which one was changed is an old one, or the changed one. -/
lemma struct?_of_changeStruct {c c' : Catalog} {id : StructId} {f : StructInfo → StructInfo}
    (h : c.changeStruct id f = .ok c') {other : StructId} {s' : StructInfo}
    (hs' : c'.struct? other = some s') :
    c.struct? other = some s' ∨ ∃ s, other = id ∧ c.struct? id = some s ∧ s' = f s := by
  obtain ⟨s, hs, hc'⟩ := exists_of_bind_eq_ok h
  obtain rfl := Except.ok.inj hc'
  rw [struct?, Array.getElem?_setIfInBounds] at hs'
  split at hs'
  · rename_i hindex
    split at hs'
    · exact .inr ⟨s, congrArg StructId.mk hindex.symm, struct?_of_structAt hs,
        (Option.some.inj hs').symm⟩
    · exact absurd hs' (by simp)
  · exact .inl hs'

end Catalog

namespace Loading

variable {files : List ParsedFile}

/-- A declaration in the files defines a structure: in its module, its name leads there. -/
structure Defines (files : List ParsedFile) (r : RecordDeclaration) (id : StructId) : Prop where
  declared : r ∈ records files
  leads : (Scope.ofFiles files r.package).struct? (Declared.ofFiles files).catalog r.name = some id

/-- A field of a structure is one that a declaration of the structure lists. -/
def IsDeclaredField (files : List ParsedFile) (c : Catalog) (id : StructId) (f : Field)
    (i : FieldInfo) : Prop :=
  ∃ r, Defines files r id ∧ f ∈ r.fields ∧ IsLoadedField files r.package c f i

lemma IsDeclaredField.later {c c' : Catalog} {id : StructId} {f : Field} {i : FieldInfo}
    (h : IsDeclaredField files c id f i) (grows : GrowsTo c c') (types : KeepsTypes c c') :
    IsDeclaredField files c' id f i := by
  obtain ⟨r, hdefines, hf, hloaded⟩ := h
  exact ⟨r, hdefines, hf, hloaded.later grows types⟩

/-- The fields of all structures are declared ones. -/
structure Sourced (files : List ParsedFile) (c : Catalog) : Prop where
  grows : GrowsTo (Declared.ofFiles files).catalog c
  pointers : c.PointersNamed
  fields : ∀ id s, c.struct? id = some s → ∀ i ∈ s.fields, ∃ f, IsDeclaredField files c id f i

variable {c : Catalog}

/-- Structures with no other fields than before have declared fields. -/
lemma Sourced.alike {c' : Catalog} (h : Sourced files c) (same : Alike c c')
    (structs : ∀ id s', c'.struct? id = some s' →
      ∃ s, c.struct? id = some s ∧ s'.fields = s.fields) : Sourced files c' where
  grows := h.grows.trans (.alike same)
  pointers := h.pointers.alike same
  fields id s' hs' i hi := by
    obtain ⟨s, hs, hfields⟩ := structs id s' hs'
    obtain ⟨f, hf⟩ := h.fields id s hs i (hfields ▸ hi)
    exact ⟨f, hf.later (.alike same) fun id _ ht => (same.type? id).trans ht⟩

lemma Sourced.findType (h : Sourced files c) (package : String) (t : Ty) :
    Sourced files (typeIn files package t c).2 := by
  have hadds := Lowering.addsTypes_type (.ofFiles files package) t c
  have hcalls := Lowering.calls_type (wellNamed_ofFiles files) (.ofFiles files package) t
  refine ⟨h.grows.trans (hcalls.adds c), hcalls.pointers c h.grows h.pointers, ?_⟩
  intro id s hs i hi
  have hsame : c.struct? id = some s := by
    rw [← hs, struct?, struct?, typeIn, hadds.structs]
  obtain ⟨f, hf⟩ := h.fields id s hsame i hi
  exact ⟨f, hf.later (hcalls.adds c) hadds.types⟩

/-- Everything but adding fields leaves structures at the fields that they have. -/
lemma tolerant_sourced (files : List ParsedFile) :
    Lowering.Tolerant files (fun _ => True) (Sourced files) where
  outcome _ _ _ _ _ := trivial
  type package t _ c hc := hc.findType package t
  method c c' number m hc added := by
    refine hc.alike (alike_addMethod added) fun id s' hs' => ?_
    obtain hsame | ⟨s, rfl, hs, rfl⟩ := struct?_of_changeStruct added hs'
    · exact ⟨s', hsame, rfl⟩
    · exact ⟨s, hs, rfl⟩
  function c package f hc := hc.alike (alike_addFunction package f) fun _ s hs => ⟨s, hs, rfl⟩
  text c number hc := by
    refine hc.alike (alike_markStringer number) fun id s hs => ⟨s, ?_, rfl⟩
    rw [Catalog.markStringer] at hs
    split at hs <;> exact hs

/-- A declared field can be added to its structure. -/
lemma Sourced.addField {c' : Catalog} (h : Sourced files c) {r : RecordDeclaration} {id : StructId}
    (hdefines : Defines files r id) {f : Field} (hf : f ∈ r.fields) {i : FieldInfo}
    (hi : IsLoadedField files r.package c f i)
    (added : c.addField id i.name i.type i.tag = .ok c') : Sourced files c' := by
  have hsame := alike_addField added
  have hlater : ∀ {id f i}, IsDeclaredField files c id f i → IsDeclaredField files c' id f i :=
    fun hf => hf.later (.alike hsame) fun id _ ht => (hsame.type? id).trans ht
  refine ⟨h.grows.trans (.alike hsame), h.pointers.alike hsame, fun other s' hs' j hj => ?_⟩
  rw [Catalog.addField, hi.shape, ok_bind] at added
  obtain hold | ⟨s, rfl, hs, rfl⟩ := struct?_of_changeStruct added hs'
  · obtain ⟨f, hf⟩ := h.fields other s' hold j hj
    exact ⟨f, hlater hf⟩
  · rcases List.mem_append.1 hj with hj | hj
    · obtain ⟨f, hf⟩ := h.fields _ s hs j hj
      exact ⟨f, hlater hf⟩
    · obtain rfl := List.mem_singleton.1 hj
      exact ⟨f, hlater ⟨r, hdefines, hf, hi⟩⟩

/-- **A field that is come by is a declared one of its structure.** -/
lemma Sourced.field (h : Sourced files c) {r : RecordDeclaration} {id : StructId}
    (hdefines : Defines files r id) {f : Field} (hf : f ∈ r.fields) :
    Sourced files (Lowering.field (.ofFiles files r.package) id f c).2 := by
  have hfound := h.findType r.package f.type
  obtain ⟨i, hloaded, htype⟩ := exists_isLoadedField h.grows h.pointers r.package f
  rw [field_eq hloaded htype]
  cases hadded : (typeIn files r.package f.type c).2.addField id i.name i.type i.tag with
  | error d => exact hfound
  | ok c' => exact hfound.addField hdefines hf hloaded hadded

/-- The fields of a declaration become fields of the structure that its name leads to. -/
lemma sourced_record {package name : String} {fields : List Field}
    (declared : ⟨name, package, fields⟩ ∈ records files) :
    Lowering.Keeps (Sourced files)
      (Lowering.item (.ofFiles files package) (.record name fields)) := by
  intro c hc
  have hlook : (Scope.ofFiles files package).struct? c name
      = (Scope.ofFiles files package).struct? (Declared.ofFiles files).catalog name := by
    have hids : c.structIdAtPath? = (Declared.ofFiles files).catalog.structIdAtPath? := by
      funext written
      rw [structIdAtPath?, structIdAtPath?, hc.grows.structPaths]
    rw [Scope.struct?, Scope.struct?, hids]
  rw [Lowering.item, Lowering.get_bind, hlook]
  cases hid : (Scope.ofFiles files package).struct? (Declared.ofFiles files).catalog name with
  | none => exact hc
  | some id =>
      have hdefines : Defines files ⟨name, package, fields⟩ id := ⟨declared, hid⟩
      have hfields : Lowering.Keeps (Sourced files)
          (fields.forM (Lowering.field (.ofFiles files package) id)) :=
        .forM fun f hf c hc => hc.field hdefines hf
      exact hfields c hc

mutual

lemma sourced_item (package : String) : ∀ i : Item, recordsOf package i ⊆ records files →
    Lowering.Keeps (Sourced files) (Lowering.item (.ofFiles files package) i)
  | .record name fields, h => sourced_record (h (List.mem_singleton_self _))
  | .module name inner, h => by
      rw [Lowering.item]
      exact sourced_items (inside package name) inner h
  | .implementation i, _ => by
      rw [Lowering.item]
      exact (tolerant_sourced files).keeps_implementation package trivial
        fun _ _ => ⟨fun _ _ => trivial, fun _ _ => trivial⟩
  | .function s, _ => by
      rw [Lowering.item]
      exact (tolerant_sourced files).keeps_function package
        ⟨fun _ _ => trivial, fun _ _ => trivial⟩
  | .enumeration _, _ => by rw [Lowering.item]; exact .pure _
  | .trait _, _ => by rw [Lowering.item]; exact .pure _
  | .use _, _ => by rw [Lowering.item]; exact .pure _
  | .other, _ => by rw [Lowering.item]; exact .pure _

/-- **Items add declared fields only,** however deep in modules they stand. -/
lemma sourced_items (package : String) : ∀ is : List Item, recordsOfAll package is ⊆ records files →
    Lowering.Keeps (Sourced files) (Lowering.items (.ofFiles files package) is)
  | [], _ => by rw [Lowering.items]; exact .pure _
  | i :: rest, h => by
      rw [Lowering.items]
      rw [recordsOfAll, List.append_subset] at h
      exact .bind (sourced_item package i h.1) fun _ => sourced_items package rest h.2

end

/-- When everything is declared, there are no fields yet. -/
lemma sourced_declared (files : List ParsedFile) :
    Sourced files (Declared.ofFiles files).catalog where
  grows := .refl _
  pointers := pointersNamed_ofFiles files
  fields id s hs i hi := by
    have hmem : s ∈ (Declared.ofFiles files).catalog.structs.toList :=
      List.mem_of_getElem? (Array.getElem?_toList.trans hs)
    obtain ⟨r, hr, hloaded⟩ := exists_of_mem_right (holds_declared files).records hmem
    obtain ⟨d, -, rfl⟩ := List.mem_map.1 hr
    have hnone : s.fields = [] := List.forall₂_nil_left_iff.1 hloaded.fields
    exact absurd (hnone ▸ hi) List.not_mem_nil

/-- Files add declared fields only. -/
lemma sourced_files (files : List ParsedFile) : ∀ fs ⊆ files,
    Lowering.Keeps (Sourced files)
      (fs.forM fun f => Lowering.items (.ofFiles files f.package) f.items) := by
  intro fs hfs
  refine .forM fun f hf => sourced_items f.package f.items fun r hr => ?_
  exact List.mem_flatMap.2 ⟨f, hfs hf, hr⟩

end Loading

/-- **The fields of the structures of a source unit are declared ones.** -/
lemma SourceUnit.sourced_ofParsed (file interfaceName : String) (input : ParsedFile)
    (includes : List ParsedFile) :
    Loading.Sourced (input :: includes) (ofParsed file interfaceName input includes).catalog := by
  have hfiles := Loading.sourced_files (input :: includes) _ (List.Subset.refl _) _
    (Loading.sourced_declared (input :: includes))
  rw [catalog_ofParsed]
  exact (Loading.tolerant_sourced (input :: includes)).keeps_ofItems file interfaceName input.items
    (all_of_forall_items (fun _ => trivial) input.items) _ hfiles

/-! ## Fields that are matched -/

namespace Matching

variable {k : Matching} {field g : FieldInfo} {a : Assignment}

/-- A field of the source is found for a field by matching alone: the directives name no method and
no path. -/
structure FindsField (k : Matching) (field g : FieldInfo) : Prop where
  free : k.methodOverride? field = none
  pathless : k.instructions.explicitPath? field.name = none
  found : k.matchingField? field = some g

/-- What matches is a field of the source. -/
lemma FindsField.mem (h : k.FindsField field g) : g ∈ k.source.fields := by
  have hfound := h.found
  rw [matchingField?] at hfound
  split at hfound
  · exact List.mem_of_find?_eq_some hfound
  · exact mem_of_findNamed? hfound

/-- **A field that matches is read by its name in the catalog.** -/
lemma FindsField.access?_eq (h : k.FindsField field g)
    (result : (k.resolve field).outcome.value = .ok a) {access : String}
    (reads : a.access? = some access) : access = g.name := by
  have hmember : k.memberFor field = .ok (some (ofField g)) := by
    rw [memberFor, h.pathless, accessor?, h.found]
    rfl
  obtain ⟨-, hspelled | ⟨hgetter, -⟩⟩ := (spelled_of_resolve result reads).found h.free _ hmember
  · exact hspelled
  · exact absurd hgetter (by simp [ofField])

end Matching

/-! ## Statements -/

namespace Conversion

variable (c : Conversion) (k : Catalog) (siblings : Keyed CallShape)

/-- The statement of an assignment gives the field of the destination a value, unless it leaves the
field alone. -/
lemma exists_assign {a : Assignment} (single : a.isLoop = false) (kept : a.isSkip = false) :
    ∃ e, c.assignment k siblings a = [.assign (.member c.target a.target) e] := by
  cases a with
  | copy _ _ | cast _ _ _ | getter _ _ | stringer _ _ | converter _ _ _ _ _ | method _ _ _
  | literal _ _ => exact ⟨_, rfl⟩
  | skip _ _ => exact absurd kept (by simp [Assignment.isSkip])
  | delegateLoop _ _ _ _ _ => exact absurd single (by simp [Assignment.isLoop])

end Conversion

namespace SourceUnit

open Generation

/-- How the code of a conversion accesses the fields of an assignment. -/
structure Accesses (files : List ParsedFile) (unit : SourceUnit) (v : Conversion)
    (s t : StructInfo) (field : FieldInfo) (a : Assignment) : Prop where
  /-- The field of the destination is a declared one, and a statement accesses it so. -/
  destination : ∃ d f, unit.catalog.struct? d = some t
    ∧ Loading.IsDeclaredField files unit.catalog d f field ∧ f.AccessedBy a.target
    ∧ (a.isSkip = false → ∀ siblings, ∃ e,
      v.assignment unit.catalog siblings a = [.assign (.member v.target a.target) e])
  /-- So is a field of the source that matching alone finds. -/
  source : ∀ g access, Matching.FindsField
      ⟨unit.catalog, v.instructions, s, v.declaration.name, v.declaration.position⟩ field g →
    a.access? = some access →
      ∃ d f, unit.catalog.struct? d = some s
        ∧ Loading.IsDeclaredField files unit.catalog d f g ∧ f.AccessedBy access
        ∧ ∀ siblings, ∃ e,
          v.assignment unit.catalog siblings a = [.assign (.member v.target a.target) e]
            ∧ v.Reads access e

/-- A field of a structure of the catalog is a declared one, and its name accesses it. -/
lemma exists_accessedBy {files : List ParsedFile} (worded : ∀ r ∈ records files, r.Worded)
    {c : Catalog} (sourced : Loading.Sourced files c) {id : TypeId} {s : StructInfo}
    (hs : c.LeadsToStruct id s) {i : FieldInfo} (hi : i ∈ s.fields) :
    ∃ d f, c.struct? d = some s ∧ Loading.IsDeclaredField files c d f i ∧ f.AccessedBy i.name := by
  obtain ⟨d, hd⟩ := hs.exists_struct?
  obtain ⟨f, hf⟩ := sourced.fields d s hd i hi
  refine ⟨d, f, hd, hf, ?_⟩
  obtain ⟨r, hdefines, hmem, hloaded⟩ := hf
  rw [hloaded.name]
  exact Field.accessedBy_bareName ((worded r hdefines.declared).fields f hmem)

/-- The code accesses fields by the names that they have in the catalog. -/
lemma accesses_of_shaped {files : List ParsedFile} (worded : ∀ r ∈ records files, r.Worded)
    {unit : SourceUnit} (sourced : Loading.Sourced files unit.catalog) {v : Conversion}
    {siblings : Keyed Bool} {s t : StructInfo}
    (hs : unit.catalog.LeadsToStruct v.endpoints.source.type s)
    (ht : unit.catalog.LeadsToStruct v.endpoints.target.type t) {field : FieldInfo}
    (hfield : field ∈ t.fields) {a : Assignment}
    (shaped : Planner.FieldShaped ⟨unit.catalog, siblings⟩ v.declaration.name v.instructions
      v.declaration.position s field a) : Accesses files unit v s t field a := by
  refine ⟨?_, fun g access hfinds reads => ?_⟩
  · obtain ⟨d, f, hd, hf, haccessed⟩ := exists_accessedBy worded sourced ht hfield
    rw [shaped.target]
    exact ⟨d, f, hd, hf, haccessed, fun kept siblings => shaped.target ▸
      v.exists_assign unit.catalog siblings shaped.single kept⟩
  · obtain ⟨d, f, hd, hf, haccessed⟩ := exists_accessedBy worded sourced hs hfinds.mem
    obtain rfl := hfinds.access?_eq shaped.alone reads
    exact ⟨d, f, hd, hf, haccessed, fun siblings =>
      v.assignment_reads unit.catalog siblings reads⟩

/-- **When fields are accessed by the identifiers that are declared.**  Each assignment between
structures comes of a field of the destination, which a declaration of the structure lists, and its
statement accesses this field by the declared name without its mark; so is a field of the source
accessed that matching finds.  A name without a mark is the declared one, and a name that was
declared with a mark is read as the declared identifier exactly if it is no keyword. -/
theorem accesses_read_iff {input : SourceFile} {includes : List SourceFile}
    {files : List ParsedFile} (parsed : (input :: includes).mapM SourceFile.parse = .ok files)
    (interfaceName : String) :
    ∃ unit, load (some input) includes interfaceName = .ok unit
      ∧ ∀ v ∈ unit.conversions, ∀ a ∈ v.plan.assignments, a.isLoop = false →
        ∃ s t field, unit.catalog.LeadsToStruct v.endpoints.source.type s
          ∧ unit.catalog.LeadsToStruct v.endpoints.target.type t ∧ field ∈ t.fields
          ∧ Accesses files unit v s t field a := by
  have hworded := worded_of_parsed parsed
  obtain ⟨first, rest, rfl, hload⟩ := exists_load_of_parsed parsed interfaceName
  have hsourced := sourced_ofParsed input.name interfaceName first rest
  refine ⟨_, hload, fun v hv a ha single => ?_⟩
  obtain ⟨siblings, hshaped⟩ := exists_shaped hv
  obtain ⟨s, t, field, hs, ht, hfield, halone⟩ := hshaped.exists_field ha single
  exact ⟨s, t, field, hs, ht, hfield, accesses_of_shaped hworded hsourced hs ht hfield halone⟩

/-- A file with fields whose names are marked as raw. -/
def markedFile : SourceFile :=
  ⟨"marked.rs", "",
    "struct Pet\x7br#type:u8,r#age:u8\x7d
struct Card\x7br#type:u8,age:u8\x7d
trait Copy\x7bfn card(pet:&Pet)->Card;\x7d"⟩

/-- A conversion in the file has an assignment with these ends, and this statement. -/
def Copies (unit : SourceUnit) (name line : String) : Prop :=
  ∃ v ∈ unit.conversions, .copy name name ∈ v.plan.assignments
    ∧ Statement.linesAll (v.assignment unit.catalog (callShapes unit.entries) (.copy name name))
      = [line]

instance (unit : SourceUnit) (name line : String) : Decidable (Copies unit name line) :=
  inferInstanceAs (Decidable (∃ v ∈ unit.conversions, _ ∧ _))

set_option maxRecDepth 4000 in
/-- What the file is parsed and loaded to. -/
lemma parse_markedFile :
    ∃ first, markedFile.parse = .ok first
      ∧ (∀ r ∈ records [first], ∀ f ∈ r.fields, f.bareName = "type" → f.name = "r#type")
      ∧ Copies (ofParsed markedFile.name "Copy" first []) "age" "dst.age = pet.age;"
      ∧ Copies (ofParsed markedFile.name "Copy" first []) "type" "dst.type = pet.type;" := by
  have hitems : Source.parseItems? markedFile.text = _ := Source.parseItems?_ofList _
  rw [SourceFile.parse, hitems]
  exact exists_ok_of_any (by decide +kernel)

/-- A name that is no keyword is read as the declared one without its mark. -/
theorem age_read_as_declared :
    ∃ first unit, [markedFile].mapM SourceFile.parse = .ok [first]
      ∧ load (some markedFile) [] "Copy" = .ok unit
      ∧ ∃ v ∈ unit.conversions, ∃ s t field, Accesses [first] unit v s t field (.copy "age" "age")
        ∧ ∃ d f, Loading.IsDeclaredField [first] unit.catalog d f field
          ∧ identifier? "age" = identifier? f.name
          ∧ Statement.linesAll
              (v.assignment unit.catalog (callShapes unit.entries) (.copy "age" "age"))
            = ["dst.age = pet.age;"] := by
  obtain ⟨first, hfirst, -, ⟨v, hv, ha, hlines⟩, -⟩ := parse_markedFile
  obtain ⟨hparsed, hload⟩ := load_of_parse hfirst "Copy"
  obtain ⟨unit, hunit, haccesses⟩ := accesses_read_iff hparsed "Copy"
  obtain rfl : ofParsed markedFile.name "Copy" first [] = unit :=
    Except.ok.inj (hload.symm.trans hunit)
  obtain ⟨s, t, field, -, -, -, hfield⟩ := haccesses v hv _ ha rfl
  obtain ⟨d, f, -, hf, haccessed, -⟩ := hfield.destination
  have hfree : "age" ∉ Ahead.reserved := by decide
  exact ⟨first, _, hparsed, hload, v, hv, s, t, field, hfield, d, f, hf,
    haccessed.reads_iff.2 fun h => hfree h.2, hlines⟩

/-- **A keyword that was declared with a mark is accessed without it.** -/
theorem exists_keyword_access :
    ∃ first unit, [markedFile].mapM SourceFile.parse = .ok [first]
      ∧ load (some markedFile) [] "Copy" = .ok unit
      ∧ ∃ v ∈ unit.conversions, .copy "type" "type" ∈ v.plan.assignments
        ∧ Statement.linesAll
            (v.assignment unit.catalog (callShapes unit.entries) (.copy "type" "type"))
          = ["dst.type = pet.type;"]
        ∧ ∃ t field d f, unit.catalog.LeadsToStruct v.endpoints.target.type t ∧ field ∈ t.fields
          ∧ field.name = "type" ∧ Loading.IsDeclaredField [first] unit.catalog d f field
          ∧ f.name = "r#type" ∧ identifier? "type" ≠ identifier? f.name := by
  obtain ⟨first, hfirst, hmarked, -, v, hv, ha, hlines⟩ := parse_markedFile
  obtain ⟨hparsed, hload⟩ := load_of_parse hfirst "Copy"
  obtain ⟨siblings, hshaped⟩ := exists_shaped hv
  obtain ⟨s, t, field, -, ht, hfield, hcopied⟩ := hshaped.exists_field ha rfl
  have hsourced := sourced_ofParsed markedFile.name "Copy" first []
  have hworded := worded_of_parsed hparsed
  obtain ⟨d, f, -, hf, haccessed⟩ := exists_accessedBy hworded hsourced ht hfield
  have hname : field.name = "type" := hcopied.target.symm
  have hraw : f.name = "r#type" := by
    obtain ⟨r, hdefines, hmem, -⟩ := hf
    exact hmarked r hdefines.declared f hmem (haccessed.bare.symm.trans hname)
  refine ⟨first, _, hparsed, hload, v, hv, ha, hlines, t, field, d, f, ht, hfield, hname, hf,
    hraw, ?_⟩
  rw [hraw]
  decide

end SourceUnit

end FieldCopy
