import Mathlib
import FieldCopy.Proofs.Loading.SerializedNames
import FieldCopy.Proofs.Loading.Traversal
import FieldCopy.Proofs.Canonical.Compact
import FieldCopy.Proofs.Parsing.Names

/-!
# Fields of loaded structures

Structures are declared first and get their fields later, when the loader comes by their items again
and looks the structure up by name.  So the fields of an item are those of its structure only if the
name leads back to it.

**Told apart.**  It does if no path is a suffix of another and none begins with a word that leads to
the root, since the names of a parsed file are single words (`Loading.ToldApart.leadBack`).

**The invariant.**  While items are gone over, the structures in front are complete, those behind
have no fields yet, and the one in between has the fields that were come by (`Loading.Holds`).  It
does not matter how deep in modules an item stands: the items of a module stand for a part of the
list of declarations, as those of a file do.

**Main statement.**  `SourceUnit.fields_of_load`: structures have the fields of their declarations,
in order and with nothing else.
-/

namespace FieldCopy

open Source Catalog ModulePath

/-! ## Declarations with fields -/

/-- The name of a field without the mark of a raw name. -/
def Source.Field.bareName (f : Field) : String :=
  String.ofList (Text.dropRepeated "r#".toList f.name.toList)

/-- A structure as an item of a module declares it. -/
structure RecordDeclaration where
  name : String
  package : String
  fields : List Field

namespace RecordDeclaration

def qualified (r : RecordDeclaration) : QualifiedName := ⟨r.name, r.package⟩

/-- The declaration without its fields. -/
def bare (r : RecordDeclaration) : RecordDeclaration := { r with fields := [] }

/-- The declaration with one more field. -/
def add (f : Field) (r : RecordDeclaration) : RecordDeclaration :=
  { r with fields := r.fields ++ [f] }

/-- The names of the fields for serialization. -/
def tags (r : RecordDeclaration) : List (Option String) :=
  r.fields.map fun f => SerializedName.ofAttributes? f.attributes

/-- The structure and its fields have words for names. -/
structure Worded (r : RecordDeclaration) : Prop where
  name : IsWord r.name
  fields : ∀ f ∈ r.fields, IsWord f.name

end RecordDeclaration

mutual

/-- The structures that an item of a module declares. -/
def recordsOf (package : String) : Item → List RecordDeclaration
  | .record name fields => [⟨name, package, fields⟩]
  | .module name items => recordsOfAll (inside package name) items
  | .enumeration _ | .function _ | .implementation _ | .trait _ | .use _ | .other => []

/-- The structures that the items of a module declare. -/
def recordsOfAll (package : String) : List Item → List RecordDeclaration
  | [] => []
  | i :: rest => recordsOf package i ++ recordsOfAll package rest

end

/-- The structures that some files declare, in the order of their numbers. -/
def records (files : List ParsedFile) : List RecordDeclaration :=
  files.flatMap fun f => recordsOfAll f.package f.items

lemma namesOfKind_append (k : TypeKind) (ds ds' : List TypeDeclaration) :
    namesOfKind k (ds ++ ds') = namesOfKind k ds ++ namesOfKind k ds' := by
  rw [namesOfKind, List.filter_append, List.map_append]
  rfl

mutual

lemma structs_typesOf (package : String) : ∀ i : Item,
    namesOfKind .struct (typesOf package i) = (recordsOf package i).map RecordDeclaration.qualified
  | .module name items => structs_typesOfAll (inside package name) items
  | .record _ _ => rfl
  | .enumeration _ => rfl
  | .function _ => rfl
  | .implementation _ => rfl
  | .trait _ => rfl
  | .use _ => rfl
  | .other => rfl

lemma structs_typesOfAll (package : String) : ∀ is : List Item,
    namesOfKind .struct (typesOfAll package is)
      = (recordsOfAll package is).map RecordDeclaration.qualified
  | [] => rfl
  | i :: rest => by
      rw [typesOfAll, recordsOfAll, namesOfKind_append, List.map_append, structs_typesOf package i,
        structs_typesOfAll package rest]

end

/-- Structures are numbered in the order of their declarations. -/
lemma map_records (files : List ParsedFile) :
    (records files).map RecordDeclaration.qualified = structsOf files := by
  rw [structsOf, declarations, records]
  induction files with
  | nil => rfl
  | cons f files ih =>
      rw [List.flatMap_cons, List.flatMap_cons, List.map_append, namesOfKind_append, ih,
        structs_typesOfAll]

/-! ## Names of parsed structures -/

lemma isSimple_of_isWord {n : String} (h : IsWord n) : isSimple n = true := by
  have hcolon : ':' ∉ n.toList := fun hmem => by
    rcases Scan.isSpelling_of_mem_word h ':' hmem with hname | hsign
    · exact absurd hname (by decide)
    · exact absurd hsign (by decide)
  rw [isSimple, Text.cutAt_eq_none hcolon]
  rfl

mutual

lemma worded_recordsOf (package : String) : ∀ {i : Item}, i.Worded →
    ∀ r ∈ recordsOf package i, r.Worded
  | _, .record hn hfields => by
      rw [recordsOf, List.forall_mem_singleton]
      exact ⟨hn, hfields⟩
  | _, .module _ h => by
      rw [recordsOf]
      exact worded_recordsOfAll _ h
  | _, .enumeration _ => List.forall_mem_nil _
  | _, .function _ => List.forall_mem_nil _
  | _, .implementation _ => List.forall_mem_nil _
  | _, .trait _ => List.forall_mem_nil _
  | _, .use _ => List.forall_mem_nil _
  | _, .other => List.forall_mem_nil _

lemma worded_recordsOfAll (package : String) : ∀ {is : List Item}, (∀ i ∈ is, i.Worded) →
    ∀ r ∈ recordsOfAll package is, r.Worded
  | [], _ => List.forall_mem_nil _
  | i :: rest, h => by
      rw [recordsOfAll]
      exact List.forall_mem_append.2 ⟨worded_recordsOf package (h i List.mem_cons_self),
        worded_recordsOfAll package fun i hi => h i (List.mem_cons_of_mem _ hi)⟩

end

/-- Files are read one after the other. -/
lemma exists_of_mapM_parse {source : SourceFile} {sources : List SourceFile}
    {files : List ParsedFile} (h : (source :: sources).mapM SourceFile.parse = .ok files) :
    ∃ first rest, source.parse = .ok first ∧ sources.mapM SourceFile.parse = .ok rest
      ∧ files = first :: rest := by
  rw [List.mapM_cons] at h
  cases hfirst : source.parse with
  | error e => rw [hfirst] at h; exact absurd h (by simp [bind, Except.bind])
  | ok first =>
      cases hrest : sources.mapM SourceFile.parse with
      | error e => rw [hfirst, hrest] at h; exact absurd h (by simp [bind, Except.bind])
      | ok rest =>
          rw [hfirst, hrest] at h
          exact ⟨first, rest, rfl, rfl, (Except.ok.inj h).symm⟩

lemma spoken_of_parse {source : SourceFile} {f : ParsedFile} (h : source.parse = .ok f) :
    ∀ i ∈ f.items, i.Spoken := by
  rw [SourceFile.parse] at h
  split at h
  · rename_i items hitems
    obtain rfl := Except.ok.inj h
    exact spoken_of_parseItems? hitems
  · exact absurd h (by simp)

lemma spoken_of_mapM_parse {sources : List SourceFile} : ∀ {files : List ParsedFile},
    sources.mapM SourceFile.parse = .ok files → ∀ f ∈ files, ∀ i ∈ f.items, i.Spoken := by
  induction sources with
  | nil =>
      intro files h
      obtain rfl := Except.ok.inj h
      exact List.forall_mem_nil _
  | cons source sources ih =>
      intro files h
      obtain ⟨first, rest, hfirst, hrest, rfl⟩ := exists_of_mapM_parse h
      exact List.forall_mem_cons.2 ⟨spoken_of_parse hfirst, ih hrest⟩

/-- The structures of parsed files and their fields have words for names. -/
lemma worded_of_parsed {sources : List SourceFile} {files : List ParsedFile}
    (h : sources.mapM SourceFile.parse = .ok files) : ∀ r ∈ records files, r.Worded := by
  have hspoken := spoken_of_mapM_parse h
  intro r hr
  obtain ⟨f, hf, hr⟩ := List.mem_flatMap.1 hr
  exact worded_recordsOfAll f.package (fun i hi => (hspoken f hf i hi).worded) r hr

/-- The structures of parsed files have single words for names. -/
lemma isSimple_of_parsed {sources : List SourceFile} {files : List ParsedFile}
    (h : sources.mapM SourceFile.parse = .ok files) :
    ∀ s ∈ structsOf files, isSimple s.name = true := by
  intro s hs
  rw [← map_records] at hs
  obtain ⟨r, hr, rfl⟩ := List.mem_map.1 hs
  exact isSimple_of_isWord (worded_of_parsed h r hr).name

/-! ## Names that lead back -/

namespace Loading

/-- Structures that are told apart by their paths: no two paths are the same, none is a suffix of
another, and none begins with a word that leads to the root. -/
structure ToldApart (ss : List QualifiedName) : Prop where
  distinct : (ss.map QualifiedName.path).Nodup
  apart : ∀ s ∈ ss, ∀ t ∈ ss, s.path ∈ suffixes t.path → s.path = t.path
  unrooted : ∀ s ∈ ss, ¬ "crate::".toList <+: s.path.toList ∧ ¬ "self::".toList <+: s.path.toList

instance (ss : List QualifiedName) : Decidable (ToldApart ss) :=
  decidable_of_iff
    ((ss.map QualifiedName.path).Nodup
      ∧ (∀ s ∈ ss, ∀ t ∈ ss, s.path ∈ suffixes t.path → s.path = t.path)
      ∧ ∀ s ∈ ss, ¬ "crate::".toList <+: s.path.toList ∧ ¬ "self::".toList <+: s.path.toList)
    ⟨fun h => ⟨h.1, h.2.1, h.2.2⟩, fun h => ⟨h.distinct, h.apart, h.unrooted⟩⟩

variable {files : List ParsedFile}

/-- The whole path of a structure leads to it. -/
lemma ToldApart.structIdAtPath? {ss : List QualifiedName} (h : ToldApart ss)
    (k : Fin ss.length) : (declareAll ss).structIdAtPath? (ss.get k).path = some ⟨k⟩ := by
  have hmem := List.get_mem ss k
  obtain ⟨hcrate, hself⟩ := h.unrooted _ hmem
  have hroot : withoutRoot (ss.get k).path = (ss.get k).path := by
    rw [withoutRoot, Text.dropRepeated_of_not_prefix hcrate,
      Text.dropRepeated_of_not_prefix hself, String.ofList_toList]
  refine (structIdAtPath?_eq_self_iff ss k).2 fun j hj hclaims => ?_
  rw [hroot] at hclaims
  have hsame := h.apart _ hmem _ (List.get_mem ss j) hclaims
  have hname : ss.get k = ss.get j :=
    List.inj_on_of_nodup_map h.distinct hmem (List.get_mem ss j) hsame
  exact hj.ne (Fin.ext (h.distinct.of_map.getElem_inj_iff.1 hname)).symm

/-- In its module, the name of each structure leads back to it. -/
def LeadBack (files : List ParsedFile) : Prop :=
  ∀ ⦃c : Catalog⦄, GrowsTo (Declared.ofFiles files).catalog c → ∀ ⦃k : Nat⦄ ⦃s : QualifiedName⦄,
    (structsOf files)[k]? = some s → (Scope.ofFiles files s.package).struct? c s.name = some ⟨k⟩

/-- **Names lead back to structures that are told apart.** -/
lemma ToldApart.leadBack (h : ToldApart (structsOf files))
    (simple : ∀ s ∈ structsOf files, isSimple s.name = true) : LeadBack files := by
  intro c hc k s hk
  obtain ⟨hlt, rfl⟩ := List.getElem?_eq_some_iff.1 hk
  have hfound := h.structIdAtPath? ⟨k, hlt⟩
  have hpaths : c.structIdAtPath? = (declareAll (structsOf files)).structIdAtPath? := by
    funext written
    rw [Catalog.structIdAtPath?, Catalog.structIdAtPath?, hc.structPaths, ofFiles_eq]
  rw [Scope.struct?, Scope.resolve, simple _ (List.getElem_mem hlt), Bool.and_true, hpaths,
    Scope.ofFiles]
  dsimp only [List.get_eq_getElem] at hfound ⊢
  by_cases hroot : (structsOf files)[k].package.isEmpty = true
  · rw [QualifiedName.path, inside, if_pos hroot] at hfound
    rw [hroot, hfound]
    rfl
  · rw [QualifiedName.path] at hfound
    rw [Bool.eq_false_iff.2 hroot, Bool.not_false, if_pos rfl, hfound]
    rfl

/-! ## Loaded fields -/

/-- A field of the catalog is a declared one: it has its name and the name that its attributes give
it for serialization, and its type is the one that is found for the type as written, from now on. -/
structure IsLoadedField (files : List ParsedFile) (package : String) (c : Catalog) (f : Field)
    (i : FieldInfo) : Prop where
  name : i.name = f.bareName
  tag : SerializedName.GivesName f.attributes i.tag
  type : ∀ later, GrowsTo c later → (typeIn files package f.type later).1 = i.type
  shape : c.fieldShape i.type = .ok (i.isPointer, i.isSlice)

/-- A structure of the catalog is a declared one: it has its name, stands in its module, and has
its fields and no others. -/
structure IsLoadedRecord (files : List ParsedFile) (c : Catalog) (r : RecordDeclaration)
    (s : StructInfo) : Prop where
  name : s.name = r.name
  package : s.package = r.package
  fields : List.Forall₂ (IsLoadedField files r.package c) r.fields s.fields

/-- The fields of loaded structures have the names for serialization that are read. -/
lemma tags_of_loaded {files : List ParsedFile} {c : Catalog} {rs : List RecordDeclaration}
    {ss : List StructInfo} (h : List.Forall₂ (IsLoadedRecord files c) rs ss) :
    rs.map RecordDeclaration.tags = ss.map (fun s => s.fields.map FieldInfo.tag) := by
  have hfields : ∀ r s, IsLoadedRecord files c r s → r.tags = s.fields.map FieldInfo.tag := by
    intro r s hs
    rw [RecordDeclaration.tags, ← List.forall₂_eq_eq_eq, List.forall₂_map_left_iff,
      List.forall₂_map_right_iff]
    exact hs.fields.imp fun _ _ hi => SerializedName.givesName_iff.1 hi.tag
  rw [← List.forall₂_eq_eq_eq, List.forall₂_map_left_iff, List.forall₂_map_right_iff]
  exact h.imp hfields

end Loading

namespace Catalog

/-- What is known of the shape of a field stays known. -/
lemma fieldShape_of_keepsTypes {c c' : Catalog} (h : KeepsTypes c c') {id : TypeId}
    {shape : Bool × Bool} (hshape : c.fieldShape id = .ok shape) :
    c'.fieldShape id = .ok shape := by
  have htypeAt : ∀ {id : TypeId} {t : TypeInfo}, c.typeAt id = .ok t → c'.typeAt id = .ok t := by
    intro id t ht
    rw [typeAt, h id t (type?_of_typeAt ht)]
  obtain ⟨t, ht, hshape⟩ := exists_of_bind_eq_ok hshape
  rw [fieldShape, htypeAt ht, ok_bind]
  split at hshape
  · obtain ⟨e, he, hshape⟩ := exists_of_bind_eq_ok hshape
    rw [htypeAt he, ok_bind]
    exact hshape
  · exact hshape
  · exact hshape

/-- A field can have any type that is known. -/
lemma exists_fieldShape {c : Catalog} (pointers : c.PointersNamed) {id : TypeId} {t : TypeInfo}
    (ht : c.type? id = some t) : ∃ shape, c.fieldShape id = .ok shape := by
  rw [fieldShape, typeAt, ht, ok_bind]
  split
  · rename_i element hshape
    obtain ⟨e, he, -⟩ := pointers id element ⟨t, ht, hshape⟩
    rw [typeAt, he, ok_bind]
    split <;> exact ⟨_, rfl⟩
  · exact ⟨_, rfl⟩
  · exact ⟨_, rfl⟩

end Catalog

namespace Loading

variable {files : List ParsedFile}

section

variable {c c' : Catalog}

lemma IsLoadedField.later {package : String} {f : Field} {i : FieldInfo}
    (h : IsLoadedField files package c f i) (grows : GrowsTo c c') (types : KeepsTypes c c') :
    IsLoadedField files package c' f i where
  name := h.name
  tag := h.tag
  type later hlater := h.type later (grows.trans hlater)
  shape := fieldShape_of_keepsTypes types h.shape

lemma IsLoadedRecord.later {r : RecordDeclaration} {s : StructInfo}
    (h : IsLoadedRecord files c r s) (grows : GrowsTo c c') (types : KeepsTypes c c') :
    IsLoadedRecord files c' r s where
  name := h.name
  package := h.package
  fields := h.fields.imp fun _ _ hi => hi.later grows types

end

/-! ## The invariant -/

/-- The structures of a catalog are declared ones, and so far they have these fields. -/
structure Holds (files : List ParsedFile) (rs : List RecordDeclaration) (c : Catalog) : Prop where
  grows : GrowsTo (Declared.ofFiles files).catalog c
  pointers : c.PointersNamed
  records : List.Forall₂ (IsLoadedRecord files c) rs c.structs.toList

variable {rs : List RecordDeclaration}

/-- Lists that are related entry by entry stay so if one entry of each is changed. -/
lemma forall₂_modify {α β : Type} {R : α → β → Prop} {f : α → α} {g : β → β} {l : List α}
    {l' : List β} (h : List.Forall₂ R l l') :
    ∀ k : Nat, (∀ a b, l[k]? = some a → R a b → R (f a) (g b)) →
      List.Forall₂ R (l.modify k f) (l'.modify k g) := by
  induction h with
  | nil =>
      intro k _
      rw [List.modify_nil, List.modify_nil]
      exact .nil
  | cons hab hrest ih =>
      rintro (_ | k) hfg
      · exact .cons (hfg _ _ rfl hab) hrest
      · exact .cons hab (ih k hfg)

/-- Structures keep the fields that they have while they are not touched. -/
lemma Holds.alike {c c' : Catalog} (h : Holds files rs c) (same : Alike c c')
    (structs : c'.structs = c.structs) : Holds files rs c' where
  grows := h.grows.trans (.alike same)
  pointers := h.pointers.alike same
  records := by
    rw [structs]
    exact h.records.imp fun _ _ hr =>
      hr.later (.alike same) fun id _ ht => (same.type? id).trans ht

lemma Holds.findType {c : Catalog} (h : Holds files rs c) (package : String) (t : Ty) :
    Holds files rs (typeIn files package t c).2 := by
  have hadds := Lowering.addsTypes_type (.ofFiles files package) t c
  have hcalls := Lowering.calls_type (wellNamed_ofFiles files) (.ofFiles files package) t
  refine ⟨h.grows.trans (hcalls.adds c), hcalls.pointers c h.grows h.pointers, ?_⟩
  rw [typeIn, hadds.structs]
  exact h.records.imp fun _ _ hr => hr.later (hcalls.adds c) hadds.types

/-- Changing a structure changes the one with its number. -/
lemma Holds.changeStruct {c c' : Catalog} (h : Holds files rs c) {id : StructId}
    {f : StructInfo → StructInfo} (hchange : c.changeStruct id f = .ok c') (same : Alike c c')
    {change : RecordDeclaration → RecordDeclaration}
    (hf : ∀ r s, rs[id.index]? = some r → IsLoadedRecord files c r s →
      IsLoadedRecord files c (change r) (f s)) :
    Holds files (rs.modify id.index change) c' := by
  obtain ⟨s, hs, hc'⟩ := exists_of_bind_eq_ok hchange
  have hget : c.structs.toList[id.index]? = some s := by
    rw [Array.getElem?_toList]
    exact struct?_of_structAt hs
  obtain rfl := Except.ok.inj hc'
  refine ⟨h.grows.trans (.alike same), h.pointers.alike same, ?_⟩
  have hmodify : (c.structs.setIfInBounds id.index (f s)).toList
      = c.structs.toList.modify id.index f := by
    rw [Array.toList_setIfInBounds, List.modify_eq_set_getElem?, hget]
    rfl
  rw [hmodify]
  exact (forall₂_modify h.records id.index hf).imp fun _ _ hr =>
    hr.later (.alike same) fun id _ ht => (same.type? id).trans ht

/-- Everything but adding fields leaves it at the fields that structures have. -/
lemma tolerant_holds (files : List ParsedFile) (rs : List RecordDeclaration) :
    Lowering.Tolerant files (fun _ => True) (Holds files rs) where
  outcome _ _ _ _ _ := trivial
  type package t _ c hc := hc.findType package t
  method c c' number m hc added := by
    have hmodify : Holds files (rs.modify number.index id) c' :=
      hc.changeStruct added (alike_addMethod added) fun _ _ _ hr =>
        ⟨hr.name, hr.package, hr.fields⟩
    rwa [List.modify_id] at hmodify
  function c package f hc := hc.alike (alike_addFunction package f) rfl
  text c number hc := by
    refine hc.alike (alike_markStringer number) ?_
    rw [Catalog.markStringer]
    split <;> rfl

/-! ## Adding fields -/

lemma modify_append {α : Type} (f : α → α) (pre : List α) (a : α) (post : List α) :
    (pre ++ a :: post).modify pre.length f = pre ++ f a :: post := by
  induction pre with
  | nil => rfl
  | cons b pre ih => rw [List.cons_append, List.length_cons, List.modify_succ_cons, ih]; rfl

/-- A field whose type is known can be added to its structure. -/
lemma Holds.addField {pre post : List RecordDeclaration} {r : RecordDeclaration} {c : Catalog}
    (h : Holds files (pre ++ r :: post) c) {f : Field} {i : FieldInfo}
    (hi : IsLoadedField files r.package c f i) :
    ∃ c', c.addField ⟨pre.length⟩ i.name i.type i.tag = .ok c'
      ∧ Holds files (pre ++ r.add f :: post) c' := by
  have hadd : c.addField ⟨pre.length⟩ i.name i.type i.tag
      = c.changeStruct ⟨pre.length⟩ fun s => { s with fields := s.fields ++ [i] } := by
    rw [Catalog.addField, hi.shape, ok_bind]
  have hlt : pre.length < c.structs.size := by
    have hlength : (pre ++ r :: post).length = c.structs.size := h.records.length_eq
    rw [List.length_append, List.length_cons] at hlength
    omega
  have hstruct : c.struct? ⟨pre.length⟩ = some c.structs[pre.length] :=
    Array.getElem?_eq_getElem hlt
  have hchange : ∃ c', c.changeStruct ⟨pre.length⟩ (fun s => { s with fields := s.fields ++ [i] })
      = .ok c' := by
    rw [Catalog.changeStruct, structAt, hstruct]
    exact ⟨_, rfl⟩
  obtain ⟨c', hchange⟩ := hchange
  refine ⟨c', hadd.trans hchange, ?_⟩
  rw [← modify_append]
  refine h.changeStruct hchange (alike_addField (hadd.trans hchange)) fun r' s hr' hs => ?_
  rw [List.getElem?_append_right le_rfl, Nat.sub_self, List.getElem?_cons_zero] at hr'
  obtain rfl := Option.some.inj hr'
  exact ⟨hs.name, hs.package, List.rel_append hs.fields (.cons hi .nil)⟩

/-- A field that is come by is a declared one once its type is found. -/
lemma exists_isLoadedField {c : Catalog} (grows : GrowsTo (Declared.ofFiles files).catalog c)
    (pointers : c.PointersNamed) (package : String) (f : Field) :
    ∃ i, IsLoadedField files package (typeIn files package f.type c).2 f i
      ∧ i.type = (typeIn files package f.type c).1 := by
  have hcalls := Lowering.calls_type (wellNamed_ofFiles files) (.ofFiles files package) f.type
  have hfound := grows.trans (hcalls.adds c)
  have hpointers := hcalls.pointers c grows pointers
  have hnumber := hcalls.number c grows
  obtain ⟨_, htype⟩ := (hfound.wellNamed (wellNamed_ofFiles files)) _ _ hnumber
  obtain ⟨⟨isPointer, isSlice⟩, hshape⟩ := exists_fieldShape hpointers htype
  refine ⟨⟨f.bareName, (typeIn files package f.type c).1, SerializedName.ofAttributes? f.attributes,
    isPointer, isSlice⟩,
    ⟨rfl, SerializedName.givesName_iff.2 rfl, fun later hlater => ?_, hshape⟩, rfl⟩
  -- The name has kept the number that it had.
  have hlast := hcalls.number later (hfound.trans hlater)
  have hkept := ((hlater.trans (hcalls.adds later)).known _ _ hnumber)
  exact Option.some.inj (hlast.symm.trans hkept)

/-- Adding a field finds its type and adds what is known of it then. -/
lemma field_eq {c : Catalog} {package : String} {f : Field} {i : FieldInfo}
    (hi : IsLoadedField files package (typeIn files package f.type c).2 f i)
    (htype : i.type = (typeIn files package f.type c).1) (id : StructId) :
    (Lowering.field (.ofFiles files package) id f c).2
      = ((typeIn files package f.type c).2.addField id i.name i.type i.tag).toOption.getD
          (typeIn files package f.type c).2 := by
  rw [hi.name, ← SerializedName.givesName_iff.1 hi.tag, htype]
  rfl

/-- **A field that is come by is added to its structure.** -/
lemma Holds.field {pre post : List RecordDeclaration} {r : RecordDeclaration} {c : Catalog}
    (h : Holds files (pre ++ r :: post) c) (f : Field) :
    Holds files (pre ++ r.add f :: post)
      (Lowering.field (.ofFiles files r.package) ⟨pre.length⟩ f c).2 := by
  obtain ⟨i, hloaded, htype⟩ := exists_isLoadedField h.grows h.pointers r.package f
  obtain ⟨c', hadded, hc'⟩ := (h.findType r.package f.type).addField hloaded
  rw [field_eq hloaded htype, hadded]
  exact hc'

/-- The fields of a declaration are added one after the other. -/
lemma Holds.fields {pre post : List RecordDeclaration} (name package : String) :
    ∀ (fields added : List Field) {c : Catalog},
      Holds files (pre ++ ⟨name, package, added⟩ :: post) c →
        Holds files (pre ++ ⟨name, package, added ++ fields⟩ :: post)
          (fields.forM (Lowering.field (.ofFiles files package) ⟨pre.length⟩) c).2
  | [], added, c, h => by
      rw [List.append_nil]
      exact h
  | f :: fields, added, c, h => by
      have hrest := Holds.fields name package fields (added ++ [f]) (h.field f)
      rw [List.append_assoc] at hrest
      exact hrest

/-! ## Items -/

/-- A computation adds the fields of some declarations: the structures in front of them and behind
them are left alone. -/
def Completes (files : List ParsedFile) (rs : List RecordDeclaration) (m : Lowering Unit) : Prop :=
  ∀ pre post : List RecordDeclaration,
    (pre ++ rs ++ post).map RecordDeclaration.qualified = structsOf files →
      ∀ c, Holds files (pre ++ rs.map RecordDeclaration.bare ++ post) c →
        Holds files (pre ++ rs ++ post) (m c).2

lemma completes_nil {m : Lowering Unit} (h : ∀ rs, Lowering.Keeps (Holds files rs) m) :
    Completes files [] m := fun pre post _ c hc => h (pre ++ [] ++ post) c hc

/-- Declarations one after the other. -/
lemma Completes.append {rs rs' : List RecordDeclaration} {m m' : Lowering Unit}
    (h : Completes files rs m) (h' : Completes files rs' m') :
    Completes files (rs ++ rs') (m >>= fun _ => m') := by
  intro pre post hsplit c hc
  -- What comes later has no fields yet, and what came first has them already.
  have hnames : (pre ++ rs ++ (rs'.map RecordDeclaration.bare ++ post)).map
      RecordDeclaration.qualified = structsOf files := by
    rw [← hsplit]
    simp [List.map_append, List.map_map, Function.comp_def, RecordDeclaration.bare,
      RecordDeclaration.qualified]
  have hfirst := h pre (rs'.map RecordDeclaration.bare ++ post) hnames c (by simpa using hc)
  have hsecond := h' (pre ++ rs) post (by simpa using hsplit) (m c).2 (by simpa using hfirst)
  rw [← List.append_assoc pre rs rs']
  exact hsecond

/-- The fields of a structure are added to the structure that its name leads to. -/
lemma completes_record (leads : LeadBack files) (package name : String) (fields : List Field) :
    Completes files [⟨name, package, fields⟩]
      (Lowering.item (.ofFiles files package) (.record name fields)) := by
  intro pre post hsplit c hc
  have hk : (structsOf files)[pre.length]? = some ⟨name, package⟩ := by
    rw [← hsplit, List.append_assoc, List.map_append,
      List.getElem?_append_right (List.length_map _).le, List.length_map, Nat.sub_self]
    rfl
  have hid := leads hc.grows hk
  have hrun : Lowering.item (.ofFiles files package) (.record name fields) c
      = fields.forM (Lowering.field (.ofFiles files package) ⟨pre.length⟩) c := by
    rw [Lowering.item, Lowering.get_bind, hid]
  rw [hrun, List.append_assoc, List.singleton_append]
  rw [List.append_assoc] at hc
  exact Holds.fields name package fields [] hc

mutual

lemma completes_item (leads : LeadBack files) (package : String) :
    ∀ i : Item, Completes files (recordsOf package i) (Lowering.item (.ofFiles files package) i)
  | .record name fields => completes_record leads package name fields
  | .module name inner => by
      rw [Lowering.item]
      exact completes_items leads (inside package name) inner
  | .implementation i => by
      rw [Lowering.item]
      exact completes_nil fun rs => (tolerant_holds files rs).keeps_implementation package trivial
        fun _ _ => ⟨fun _ _ => trivial, fun _ _ => trivial⟩
  | .function s => by
      rw [Lowering.item]
      exact completes_nil fun rs => (tolerant_holds files rs).keeps_function package
        ⟨fun _ _ => trivial, fun _ _ => trivial⟩
  | .enumeration _ => by rw [Lowering.item]; exact completes_nil fun _ => .pure _
  | .trait _ => by rw [Lowering.item]; exact completes_nil fun _ => .pure _
  | .use _ => by rw [Lowering.item]; exact completes_nil fun _ => .pure _
  | .other => by rw [Lowering.item]; exact completes_nil fun _ => .pure _

/-- **Items add the fields of what they declare,** however deep in modules that stands. -/
lemma completes_items (leads : LeadBack files) (package : String) :
    ∀ is : List Item,
      Completes files (recordsOfAll package is) (Lowering.items (.ofFiles files package) is)
  | [] => by rw [Lowering.items]; exact completes_nil fun _ => .pure _
  | i :: rest => by
      rw [Lowering.items, recordsOfAll]
      exact (completes_item leads package i).append (completes_items leads package rest)

end

/-- Files add the fields of what they declare. -/
lemma completes_files (leads : LeadBack files) :
    ∀ fs : List ParsedFile, Completes files (records fs)
      (fs.forM fun f => Lowering.items (.ofFiles files f.package) f.items)
  | [] => completes_nil fun _ => .pure _
  | f :: fs => by
      rw [records, List.flatMap_cons]
      exact (completes_items leads f.package f.items).append (completes_files leads fs)

/-- When everything is declared, structures have no fields. -/
lemma holds_declared (files : List ParsedFile) :
    Holds files ((records files).map RecordDeclaration.bare) (Declared.ofFiles files).catalog where
  grows := .refl _
  pointers := pointersNamed_ofFiles files
  records := by
    rw [ofFiles_eq, structs_declareAll, List.toList_toArray, ← map_records, List.map_map,
      List.forall₂_map_left_iff, List.forall₂_map_right_iff, List.forall₂_same]
    exact fun r _ => ⟨rfl, rfl, .nil⟩

end Loading

namespace SourceUnit

/-- The structures of a source unit have the fields that their declarations list, in order and with
nothing else. -/
lemma holds_ofParsed (file interfaceName : String) (input : ParsedFile)
    (includes : List ParsedFile) (leads : Loading.LeadBack (input :: includes)) :
    Loading.Holds (input :: includes) (records (input :: includes))
      (ofParsed file interfaceName input includes).catalog := by
  have hfiles := Loading.completes_files leads (input :: includes) [] []
    (by simpa using map_records (input :: includes)) _
    (by simpa using Loading.holds_declared (input :: includes))
  rw [List.nil_append, List.append_nil] at hfiles
  rw [catalog_ofParsed]
  exact (Loading.tolerant_holds (input :: includes) _).keeps_ofItems file interfaceName input.items
    (all_of_forall_items (fun _ => trivial) input.items) _ hfiles

/-- Files that are parsed are loaded. -/
lemma exists_load_of_parsed {input : SourceFile} {includes : List SourceFile}
    {files : List ParsedFile} (parsed : (input :: includes).mapM SourceFile.parse = .ok files)
    (interfaceName : String) :
    ∃ first rest, files = first :: rest
      ∧ load (some input) includes interfaceName
        = .ok (ofParsed input.name interfaceName first rest) := by
  obtain ⟨first, rest, hfirst, hrest, rfl⟩ := exists_of_mapM_parse parsed
  refine ⟨first, rest, rfl, ?_⟩
  rw [load, hfirst, hrest]
  rfl

/-- A file that is parsed is loaded. -/
lemma load_of_parse {f : SourceFile} {first : ParsedFile} (h : f.parse = .ok first)
    (interfaceName : String) :
    [f].mapM SourceFile.parse = .ok [first]
      ∧ load (some f) [] interfaceName = .ok (ofParsed f.name interfaceName first []) := by
  rw [List.mapM_cons, load, h]
  exact ⟨rfl, rfl⟩

/-- **Structures have the fields of their declarations.**  If files can be read and the structures
that they declare are told apart, loading makes a source unit whose structures are the declared ones
in order, each with the fields that its declaration lists, in order and with nothing else, however
deep in modules and in whichever of the files it stands. -/
theorem fields_of_load {input : SourceFile} {includes : List SourceFile} {files : List ParsedFile}
    (parsed : (input :: includes).mapM SourceFile.parse = .ok files)
    (apart : Loading.ToldApart (structsOf files)) (interfaceName : String) :
    ∃ unit, load (some input) includes interfaceName = .ok unit
      ∧ List.Forall₂ (Loading.IsLoadedRecord files unit.catalog) (records files)
          unit.catalog.structs.toList := by
  have hleads := apart.leadBack (isSimple_of_parsed parsed)
  obtain ⟨first, rest, hfirst, hrest, rfl⟩ := exists_of_mapM_parse parsed
  refine ⟨ofParsed input.name interfaceName first rest, ?_,
    (holds_ofParsed input.name interfaceName first rest hleads).records⟩
  rw [load, hfirst, hrest]
  rfl

/-- A file with structures of one name in two modules, one inside the other, and a field that has a
name for serialization. -/
def clinicFile : SourceFile :=
  ⟨"clinic.rs", "clinic",
    "struct Pet \x7b
  #[serde(default, alias = 1, rename = \"species\", skip(if = 2))]
  r#type: Kind
\x7d
mod ward \x7b struct Pet \x7b bed: Box<u8> \x7d \x7d"⟩

/-- A file of a module that is included. -/
def kindsFile : SourceFile := ⟨"kinds.rs", "kinds", "struct Kind \x7b name: String \x7d"⟩

set_option maxRecDepth 4000 in
/-- Both structures of one name are found again, and the marked field has lost its mark and got its
name for serialization. -/
theorem fields_of_clinic :
    ∃ files unit, [clinicFile, kindsFile].mapM SourceFile.parse = .ok files
      ∧ Loading.ToldApart (structsOf files)
      ∧ load (some clinicFile) [kindsFile] "StructCopyGen" = .ok unit
      ∧ List.Forall₂ (Loading.IsLoadedRecord files unit.catalog) (records files)
          unit.catalog.structs.toList
      ∧ (records files).map (fun r => (r.qualified.path, r.fields.map Field.bareName))
        = [("clinic::Pet", ["type"]), ("clinic::ward::Pet", ["bed"]), ("kinds::Kind", ["name"])]
      ∧ unit.catalog.structs.toList.map (fun s => s.fields.map FieldInfo.tag)
        = [[some "species"], [none], [none]] := by
  have hfiles : ∃ files, [clinicFile, kindsFile].mapM SourceFile.parse = .ok files
      ∧ Loading.ToldApart (structsOf files)
      ∧ (records files).map (fun r => (r.qualified.path, r.fields.map Field.bareName))
        = [("clinic::Pet", ["type"]), ("clinic::ward::Pet", ["bed"]), ("kinds::Kind", ["name"])]
      ∧ (records files).map RecordDeclaration.tags = [[some "species"], [none], [none]] := by
    have hclinic : parseItems? clinicFile.text = _ := parseItems?_ofList _
    have hkinds : parseItems? kindsFile.text = _ := parseItems?_ofList _
    rw [List.mapM_cons, List.mapM_cons, SourceFile.parse, SourceFile.parse, hclinic, hkinds]
    exact exists_ok_of_any (by decide +kernel)
  obtain ⟨files, hparsed, hapart, hnames, htags⟩ := hfiles
  obtain ⟨unit, hunit, hfields⟩ := fields_of_load hparsed hapart "StructCopyGen"
  exact ⟨files, unit, hparsed, hapart, hunit, hfields, hnames,
    (Loading.tags_of_loaded hfields).symm.trans htags⟩

end SourceUnit

end FieldCopy
