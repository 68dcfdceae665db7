import Mathlib
import FieldCopy.Proofs.ItemOrder.Reordering

/-!
# The order of items

Types are numbered as they are asked for, so the numbers in a catalog tell the order of the items in
the files.  What is left without the numbers should not.

**What is told.**  A catalog tells what the items of its files say (`Loading.collected_ofParsed`),
and that is the same in another order.

**One kind for a name.**  The first who asks for a name says of what kind its type is.  A reference
to `str<>` is known as one to `str` but is of another kind, so it matters which of them comes first.

**Main statement.**  `Loading.order_free`: if no name is asked for with two kinds, the catalog is
the same in any order, numbers apart.  `Loading.order_told`: there are files for which it is not.
-/

namespace FieldCopy

open Source ModulePath Catalog

/-! ## Free functions -/

mutual

/-- The free functions that an item of a module declares. -/
def functionsIn (package : String) : Item → List QualifiedName
  | .function s => [⟨s.name, package⟩]
  | .module name items => functionsInAll (inside package name) items
  | .record _ _ | .enumeration _ | .implementation _ | .trait _ | .use _ | .other => []

/-- The free functions that the items of a module declare. -/
def functionsInAll (package : String) : List Item → List QualifiedName
  | [] => []
  | i :: rest => functionsIn package i ++ functionsInAll package rest

end

/-- The free functions that some files declare. -/
def functionsOf (files : List ParsedFile) : List QualifiedName :=
  files.flatMap fun f => functionsInAll f.package f.items

/-! ## Catalogs that are the same, numbers apart -/

namespace Catalog

/-- What a catalog tells of structures, texts and functions, the other one tells as well, whatever
the numbers of types are. -/
structure ShownBy (c d : Catalog) : Prop where
  fields : ∀ s ∈ c.structs, ∃ s' ∈ d.structs, s'.path = s.path ∧ ∃ views,
    List.Forall₂ c.IsField s.fields views ∧ List.Forall₂ d.IsField s'.fields views
  methods : ∀ s ∈ c.structs, ∃ s' ∈ d.structs, s'.path = s.path ∧ ∃ views views',
    views.Perm views' ∧ List.Forall₂ c.IsMethod s.methods views
      ∧ List.Forall₂ d.IsMethod s'.methods views'
  texts : ∀ id ∈ c.stringers, ∃ id' ∈ d.stringers, ∃ view, c.IsType id view ∧ d.IsType id' view
  functions : ∀ path f, c.functions.find? path = some f → ∃ f' view,
    d.functions.find? path = some f' ∧ c.IsFunction f view ∧ d.IsFunction f' view

/-- Two catalogs tell the same. -/
def SameView (c d : Catalog) : Prop := c.ShownBy d ∧ d.ShownBy c

/-- Catalogs that tell what alike reports say. -/
lemma shownBy_of_tells {c d : Catalog} {r r' : Report} (hc : c.Tells r) (hd : d.Tells r')
    (structs : ∀ s ∈ c.structs, ∃ s' ∈ d.structs, s'.path = s.path)
    (fields : ∀ path, r.fieldsOf path = r'.fieldsOf path)
    (methods : ∀ path, (r.methodsOf path).Perm (r'.methodsOf path)) (texts : r.texts.Perm r'.texts)
    (functions : functionTable r.functions = functionTable r'.functions) : c.ShownBy d := by
  have hmem : ∀ {c : Catalog} {s : StructInfo}, s ∈ c.structs → ∃ id, c.struct? id = some s := by
    intro c s hs
    obtain ⟨i, hi, hget⟩ := Array.mem_iff_getElem.1 hs
    exact ⟨⟨i⟩, hget ▸ Array.getElem?_eq_getElem hi⟩
  refine ⟨fun s hs => ?_, fun s hs => ?_, fun id hid => ?_, fun path f hf => ?_⟩
  · obtain ⟨s', hs', hpath⟩ := structs s hs
    obtain ⟨id, hid⟩ := hmem hs
    obtain ⟨id', hid'⟩ := hmem hs'
    refine ⟨s', hs', hpath, r.fieldsOf s.path, hc.fields id s hid, ?_⟩
    rw [fields, ← hpath]
    exact hd.fields id' s' hid'
  · obtain ⟨s', hs', hpath⟩ := structs s hs
    obtain ⟨id, hid⟩ := hmem hs
    obtain ⟨id', hid'⟩ := hmem hs'
    refine ⟨s', hs', hpath, r.methodsOf s.path, r'.methodsOf s.path, methods s.path,
      hc.methods id s hid, ?_⟩
    rw [← hpath]
    exact hd.methods id' s' hid'
  · obtain ⟨view, hview, hlooks⟩ := hc.stringers id hid
    obtain ⟨id', hid', hlooks'⟩ := hd.texts view (texts.mem_iff.1 hview)
    exact ⟨id', hid', view, hlooks, hlooks'⟩
  · obtain ⟨view, hview, hlooks⟩ := exists_of_relOption (hc.functions path) hf
    rw [functions] at hview
    have hrelated := hd.functions path
    rw [hview] at hrelated
    cases hf' : d.functions.find? path with
    | none => rw [hf'] at hrelated; cases hrelated
    | some f' =>
        rw [hf'] at hrelated
        cases hrelated with
        | some hlooks' => exact ⟨f', view, rfl, hlooks, hlooks'⟩

end Catalog

namespace Loading

/-! ## What the files say -/

/-- What names mean in the modules of some files. -/
def namesIn (files : List ParsedFile) (package : String) : Names :=
  Scope.names (.ofFiles files package) (Declared.ofFiles files).catalog

/-- What the items of some files say. -/
def reportOf (files : List ParsedFile) : Report := filesReport (namesIn files) files

/-- Implementations list neither fields nor free functions. -/
lemma implementationReport_beside (n : Names) (i : Implementation) :
    (Lowering.implementationReport n i).records = []
      ∧ (Lowering.implementationReport n i).functions = [] := by
  have hmethods : ∀ (path : String) (fs : List Signature),
      (Report.all (fs.map (Lowering.methodReport n path))).records = []
        ∧ (Report.all (fs.map (Lowering.methodReport n path))).functions = [] := by
    intro path fs
    induction fs with
    | nil => exact ⟨rfl, rfl⟩
    | cons f fs ih =>
        rw [List.map_cons, Report.all, Report.append_def, ih.1, ih.2, List.append_nil,
          List.append_nil, Lowering.methodReport]
        split <;> exact ⟨rfl, rfl⟩
  rw [Lowering.implementationReport]
  split
  · split <;> exact ⟨rfl, rfl⟩
  · split
    case h_1 | h_2 =>
      split
      · exact hmethods _ _
      · exact ⟨rfl, rfl⟩
    · exact ⟨rfl, rfl⟩

mutual

/-- The fields that an item lists are those of the structures that it declares. -/
lemma records_itemReport {names : String → Names} : ∀ (i : Item) (package : String),
    (∀ d ∈ typesOf package i, d.kind = .struct →
      (names d.name.package).structPath? d.name.name = some d.path) →
    (Lowering.itemReport names package i).records.map Prod.fst
      = (namesOfKind .struct (typesOf package i)).map QualifiedName.path
  | .record name fields, package, own => by
      have hpath := own ⟨.struct, name, package⟩ (List.mem_singleton_self _) rfl
      rw [Lowering.itemReport, Lowering.recordReport, hpath]
      rfl
  | .module name items, package, own => by
      rw [Lowering.itemReport, typesOf]
      exact records_itemsReport items _ own
  | .implementation i, package, _ => by
      rw [Lowering.itemReport, (implementationReport_beside (names package) i).1]
      rfl
  | .function _, _, _ | .enumeration _, _, _ | .trait _, _, _ | .use _, _, _ | .other, _, _ => rfl

lemma records_itemsReport {names : String → Names} : ∀ (is : List Item) (package : String),
    (∀ d ∈ typesOfAll package is, d.kind = .struct →
      (names d.name.package).structPath? d.name.name = some d.path) →
    (Lowering.itemsReport names package is).records.map Prod.fst
      = (namesOfKind .struct (typesOfAll package is)).map QualifiedName.path
  | [], _, _ => rfl
  | i :: rest, package, own => by
      rw [typesOfAll] at own ⊢
      rw [Lowering.itemsReport, Report.append_def, List.map_append,
        records_itemReport i package fun d hd => own d (List.mem_append_left _ hd),
        records_itemsReport rest package fun d hd => own d (List.mem_append_right _ hd)]
      simp [namesOfKind]

end

mutual

/-- The functions that an item lists are those that it declares. -/
lemma functions_itemReport (names : String → Names) : ∀ (i : Item) (package : String),
    (Lowering.itemReport names package i).functions.map functionName = functionsIn package i
  | .module name items, package => by
      rw [Lowering.itemReport, functionsIn]
      exact functions_itemsReport names items _
  | .record name fields, package => by
      rw [Lowering.itemReport, Lowering.recordReport]
      split <;> rfl
  | .implementation i, package => by
      rw [Lowering.itemReport, (implementationReport_beside (names package) i).2]
      rfl
  | .function _, _ | .enumeration _, _ | .trait _, _ | .use _, _ | .other, _ => rfl

lemma functions_itemsReport (names : String → Names) : ∀ (is : List Item) (package : String),
    (Lowering.itemsReport names package is).functions.map functionName
      = functionsInAll package is
  | [], _ => rfl
  | i :: rest, package => by
      rw [Lowering.itemsReport, functionsInAll, Report.append_def, List.map_append,
        functions_itemReport names i package, functions_itemsReport names rest package]

end

section

variable {files : List ParsedFile} (proper : ∀ f ∈ files, f.IsProper)
  (names : ((declarations files).map fun d => d.name.name).Nodup)

include proper names

lemma namesDistinct_ofKind (k : TypeKind) : NamesDistinct (namesOfKind k (declarations files)) := by
  refine ⟨fun n hn => declarations_proper proper _ (mem_namesOfKind.1 hn), ?_⟩
  rw [namesOfKind, List.map_map]
  exact names.sublist (List.filter_sublist.map _)

lemma pathsDistinct_ofFiles : PathsDistinct (Declared.ofFiles files).catalog := by
  have hnodup := (namesDistinct_ofKind proper names .struct).path_nodup
  have hpath : ∀ id : StructId,
      ((Declared.ofFiles files).catalog.struct? id).map StructInfo.path
        = ((structsOf files).map QualifiedName.path)[id.index]? := by
    intro id
    rw [ofFiles_eq, struct?_declareAll, Option.map_map, List.getElem?_map]
    rfl
  intro id id' path hid hid'
  rw [hpath] at hid hid'
  obtain ⟨hlt, hget⟩ := List.getElem?_eq_some_iff.1 hid
  obtain ⟨hlt', hget'⟩ := List.getElem?_eq_some_iff.1 hid'
  have hindex : id.index = id'.index := hnodup.getElem_inj_iff.1 (hget.trans hget'.symm)
  cases id
  cases id'
  exact congrArg StructId.mk hindex

/-- In the module of a structure its name leads to it. -/
lemma structPath?_own {d : TypeDeclaration} (hd : d ∈ declarations files)
    (hkind : d.kind = .struct) :
    (namesIn files d.name.package).structPath? d.name.name = some d.path := by
  have hdistinct := namesDistinct_ofKind proper names .struct
  have hmem : d.name ∈ structsOf files := mem_namesOfKind.2 (by rw [← hkind]; exact hd)
  obtain ⟨k, hk⟩ := List.get_of_mem hmem
  have hfits : Fits (structsOf files) (enumerationsOf files) (Declared.ofFiles files).catalog := by
    rw [ofFiles_eq]
    exact fits_declareAll _ _
  obtain ⟨i, hi, hclaims, -⟩ := struct?_own hfits (hdistinct.proper _ hmem).name hk
  have hself : ((structsOf files).get k).claims
      (withoutRoot (inside d.name.package d.name.name)) = true := by
    rw [hk]
    exact QualifiedName.claims_iff.2 (withoutRoot_mem_suffixes _)
  have hsame := hdistinct.eq_of_claims (List.get_mem _ i) (List.get_mem _ k) hclaims hself
  change Scope.structPath? _ _ _ = _
  rw [Scope.structPath?, hi, Option.bind_some, hfits.names, List.getElem?_eq_getElem i.isLt,
    Option.map_some]
  exact congrArg (some ∘ QualifiedName.path) (hsame.trans hk)

/-- Each structure has its fields listed once. -/
lemma records_reportOf : ((reportOf files).records.map Prod.fst).Nodup := by
  have hpaths : (reportOf files).records.map Prod.fst
      = (structsOf files).map QualifiedName.path := by
    rw [reportOf, part_filesReport _ Report.records rfl (fun _ _ => rfl), List.map_flatMap,
      structsOf, namesOfKind, declarations, List.filter_flatMap, List.map_flatMap, List.map_flatMap]
    refine List.flatMap_congr fun f hf => ?_
    refine (records_itemsReport f.items f.package fun d hd hkind => ?_).trans rfl
    exact structPath?_own proper names (List.mem_flatMap.2 ⟨f, hf, hd⟩) hkind
  rw [hpaths]
  exact (namesDistinct_ofKind proper names .struct).path_nodup

/-- Names mean the same in another order of files. -/
lemma namesIn_of_reordered {files' : List ParsedFile} (h : FilesReordered files files') :
    namesIn files = namesIn files' := by
  have hstructs : (structsOf files).Perm (structsOf files') := (h.declarations.filter _).map _
  have henumerations : (enumerationsOf files).Perm (enumerationsOf files') :=
    (h.declarations.filter _).map _
  funext package
  rw [namesIn, namesIn, scope_ofFiles, scope_ofFiles, ofFiles_eq, ofFiles_eq]
  exact names_of_perm (namesDistinct_ofKind proper names .struct)
    (namesDistinct_ofKind proper names .enumeration) hstructs henumerations package

end

lemma functions_reportOf (files : List ParsedFile) :
    (reportOf files).functions.map functionName = functionsOf files := by
  rw [reportOf, part_filesReport _ Report.functions rfl (fun _ _ => rfl), List.map_flatMap,
    functionsOf]
  exact List.flatMap_congr fun f _ => functions_itemsReport _ f.items f.package

/-! ## Runs -/

/-- A catalog tells what the items of some files say, of the structures that they declare. -/
structure Collected (files : List ParsedFile) (c : Catalog) : Prop where
  tells : c.Tells (reportOf files)
  structs : ∀ id, (c.struct? id).map StructInfo.path
    = ((structsOf files)[id.index]?).map QualifiedName.path

/-- Nothing is told by the catalog in which everything is declared. -/
lemma loads_declared (files : List ParsedFile) (known : List TypeView) :
    Loads (Declared.ofFiles files).catalog known (Declared.ofFiles files).catalog .empty := by
  rw [ofFiles_eq]
  obtain ⟨gave, hbuilt⟩ := built_declareAll (structsOf files)
  have hview : ∀ id, (declareAll (structsOf files)).viewOf id = none := fun id => by
    rw [viewOf, declareAll_eq]
    rfl
  have hbare : ∀ id s, (declareAll (structsOf files)).struct? id = some s →
      s.fields = [] ∧ s.methods = [] := by
    intro id s hs
    rw [struct?_declareAll] at hs
    obtain ⟨n, -, rfl⟩ := Option.map_eq_some_iff.1 hs
    exact ⟨rfl, rfl⟩
  have hstringers : (declareAll (structsOf files)).stringers = [] := by rw [declareAll_eq]; rfl
  have hfunctions : (declareAll (structsOf files)).functions = .empty := by
    rw [declareAll_eq]
    rfl
  refine ⟨⟨rfl, fun _ => rfl, hbuilt.sound.1, hbuilt.namesMatch, fun id v hv => ?_⟩,
    ⟨fun id s hs => ?_, fun id s hs => ?_, List.forall_mem_nil _, ?_, fun key => ?_⟩⟩
  · rw [hview] at hv
    exact absurd hv (by simp)
  · rw [(hbare id s hs).1]
    exact .nil
  · rw [(hbare id s hs).2]
    exact .nil
  · rw [hstringers]
    exact List.forall_mem_nil _
  · rw [hfunctions]
    exact .none

/-- Reading traits adds types only. -/
lemma addsTypes_ofItems (scope : Scope) (file name : String) {is : List Item}
    (proper : itemsAreProper is) (c : Catalog) :
    AddsTypes c (Interface.ofItems scope file name is c).2 :=
  Interface.keeps_ofItems (I := AddsTypes c)
    (fun t _ _ hc => hc.trans (Lowering.addsTypes_type scope t _)) file name is proper c (.refl c)

/-- **The catalog of a source unit tells what the items of its files say.** -/
theorem collected_ofParsed (file interfaceName : String) {input : ParsedFile}
    {includes : List ParsedFile} (proper : ∀ f ∈ input :: includes, f.IsProper)
    (names : ((declarations (input :: includes)).map fun d => d.name.name).Nodup)
    (oneKind : OneKind (reportOf (input :: includes)).asked) :
    Collected (input :: includes)
      (SourceUnit.ofParsed file interfaceName input includes).catalog := by
  have hdistinct := pathsDistinct_ofFiles proper names
  have hitems := Lowering.Adding.forM (l := input :: includes) fun f _ =>
    Lowering.adding_items oneKind hdistinct (.ofFiles (input :: includes) f.package) f.items
  have hloads := hitems (List.Subset.refl _) _ _ (loads_declared (input :: includes) _)
  have hadds := addsTypes_ofItems (.ofFiles (input :: includes) "") file interfaceName
    (proper input List.mem_cons_self).items ((input :: includes).forM (fun f =>
      Lowering.items (.ofFiles (input :: includes) f.package) f.items)
        (Declared.ofFiles (input :: includes)).catalog).2
  rw [SourceUnit.catalog_ofParsed]
  refine ⟨hloads.tells.addsTypes hadds, fun id => ?_⟩
  refine (congrArg (Option.map StructInfo.path) (hadds.struct? id)).trans ?_
  rw [hloads.holds.structs, ofFiles_eq, struct?_declareAll, Option.map_map]
  rfl

/-- The structures of a catalog have the paths of those that the files declare. -/
lemma Collected.path_iff {files : List ParsedFile} {c : Catalog} (h : Collected files c)
    (path : String) :
    (∃ s ∈ c.structs, s.path = path) ↔ path ∈ (structsOf files).map QualifiedName.path := by
  rw [List.mem_iff_getElem?]
  constructor
  · rintro ⟨s, hs, rfl⟩
    obtain ⟨i, hi, rfl⟩ := Array.mem_iff_getElem.1 hs
    refine ⟨i, ?_⟩
    rw [List.getElem?_map, ← h.structs ⟨i⟩, Catalog.struct?, Array.getElem?_eq_getElem hi]
    rfl
  · rintro ⟨i, hi⟩
    rw [List.getElem?_map, ← h.structs ⟨i⟩] at hi
    obtain ⟨s, hs, hpath⟩ := Option.map_eq_some_iff.1 hi
    exact ⟨s, Array.mem_of_getElem? hs, hpath⟩

/-- **The order of items makes no difference, numbers apart,** if names are told apart and no name
is asked for with two kinds. -/
theorem order_free (file interfaceName : String) {input input' : ParsedFile}
    {includes includes' : List ParsedFile} (proper : ∀ f ∈ input :: includes, f.IsProper)
    (names : ((declarations (input :: includes)).map fun d => d.name.name).Nodup)
    (functions : NamesDistinct (functionsOf (input :: includes)))
    (oneKind : OneKind (reportOf (input :: includes)).asked)
    (items : input.Reordered input') (others : FilesReordered includes includes') :
    (SourceUnit.ofParsed file interfaceName input includes).catalog.SameView
      (SourceUnit.ofParsed file interfaceName input' includes').catalog := by
  have hreordered := others.cons items
  have hdeclarations := hreordered.declarations
  have hproper' := hreordered.isProper proper
  have hnames' := (hdeclarations.map fun d => d.name.name).nodup_iff.1 names
  have hreport : (reportOf (input :: includes)).Perm (reportOf (input' :: includes')) := by
    rw [reportOf, reportOf, namesIn_of_reordered proper names hreordered]
    exact hreordered.report _
  have hcollected := collected_ofParsed file interfaceName proper names oneKind
  have hcollected' := collected_ofParsed file interfaceName hproper' hnames'
    (oneKind.perm hreport.asked)
  have hpaths := fun path => (hcollected.path_iff path).trans <|
    (((hdeclarations.filter _).map _).map _).mem_iff.trans (hcollected'.path_iff path).symm
  have hfields := hreport.fieldsOf (records_reportOf proper names)
  have hfunctions : functionTable (reportOf (input :: includes)).functions
      = functionTable (reportOf (input' :: includes')).functions :=
    functionTable_perm (functions_reportOf _ ▸ functions) hreport.functions
  exact ⟨shownBy_of_tells hcollected.tells hcollected'.tells
      (fun s hs => (hpaths s.path).1 ⟨s, hs, rfl⟩) hfields (fun path => hreport.methodsOf path)
      hreport.texts hfunctions,
    shownBy_of_tells hcollected'.tells hcollected.tells
      (fun s hs => (hpaths s.path).2 ⟨s, hs, rfl⟩) (fun path => (hfields path).symm)
      (fun path => (hreport.methodsOf path).symm) hreport.texts.symm hfunctions.symm⟩

/-! ## Files in two orders -/

/-- A reference to a text of the program, with these arguments at the name of its type. -/
def staticText (arguments : Source.Arguments) : Ty :=
  .reference (some "static") false (.path (.mk false [.mk "str" arguments]))

/-- A structure of a pet with a name. -/
def petItem : Item := .record "Pet" [⟨[], "name", staticText .none⟩]

/-- A structure of an owner of a pet, with a name of some type. -/
def ownerItem (name : Ty) : Item := .record "Owner" [⟨[], "pet", .ofName "Pet"⟩, ⟨[], "name", name⟩]

/-- A file of the root module. -/
def rootFile (items : List Item) : ParsedFile := ⟨"", items⟩

/-- The catalog of a file of the root module. -/
def catalogOf (items : List Item) : Catalog :=
  (SourceUnit.ofParsed "setup.rs" "StructCopyGen" (rootFile items) []).catalog

lemma isProper_pet_owner (arguments : Source.Arguments)
    (proper : (staticText arguments).IsProper) :
    ∀ f ∈ [rootFile [petItem, ownerItem (staticText arguments)]], f.IsProper := by
  intro f hf
  have hpet : IsName "Pet" := by decide
  have howner : IsName "Owner" := by decide
  rw [List.mem_singleton.1 hf]
  refine ⟨isModule_root, ⟨hpet, ?_⟩, ⟨howner, ?_⟩, trivial⟩
  · rintro f (_ | ⟨_, ⟨⟩⟩)
    exact ⟨trivial, trivial⟩
  · rintro f (_ | ⟨_, _ | ⟨_, ⟨⟩⟩⟩)
    · exact ⟨trivial, trivial⟩
    · exact proper

lemma reordered_pet_owner (name : Ty) :
    (rootFile [petItem, ownerItem name]).Reordered (rootFile [ownerItem name, petItem]) :=
  ⟨rfl, .swap petItem (ownerItem name) []⟩

/-- An owner may come in front of the pet. -/
theorem owner_before_pet :
    (catalogOf [petItem, ownerItem (staticText .none)]).SameView
      (catalogOf [ownerItem (staticText .none), petItem]) :=
  order_free "setup.rs" "StructCopyGen" (isProper_pet_owner .none ⟨trivial, trivial⟩) (by decide)
    ⟨List.forall_mem_nil _, List.nodup_nil⟩ (by decide) (reordered_pet_owner _) ⟨[], .nil, .refl _⟩

lemma map_viewOf {c : Catalog} {fields : List FieldInfo} {views : List FieldView}
    (h : List.Forall₂ c.IsField fields views) :
    fields.map (fun f => c.viewOf f.type) = views.map fun v => some v.type := by
  induction h with
  | nil => rfl
  | cons hf _ ih => rw [List.map_cons, List.map_cons, ih, hf.type]

/-- The name of an owner whose type has empty brackets. -/
def bracketedText : Ty := staticText (.angled false [] true)

/-- **The order of items can make a difference** if a name is asked for with two kinds: a reference
to a text is a pointer if the first that is seen has empty brackets behind its name. -/
theorem order_told :
    (∀ f ∈ [rootFile [petItem, ownerItem bracketedText]], f.IsProper)
      ∧ ((declarations [rootFile [petItem, ownerItem bracketedText]]).map
        fun d => d.name.name).Nodup
      ∧ functionsOf [rootFile [petItem, ownerItem bracketedText]] = []
      ∧ (rootFile [petItem, ownerItem bracketedText]).Reordered
          (rootFile [ownerItem bracketedText, petItem])
      ∧ ¬ (catalogOf [petItem, ownerItem bracketedText]).SameView
          (catalogOf [ownerItem bracketedText, petItem]) := by
  refine ⟨isProper_pet_owner _ ⟨trivial, trivial⟩, by decide, rfl, reordered_pet_owner _, ?_⟩
  intro hview
  have hfirst : ∃ s ∈ (catalogOf [petItem, ownerItem bracketedText]).structs.toList,
      s.path = "Pet" ∧ s.fields.map (fun f =>
        (catalogOf [petItem, ownerItem bracketedText]).viewOf f.type)
          = [some ⟨"&'static str", "Basic"⟩] := by decide
  have hsecond : ∀ s ∈ (catalogOf [ownerItem bracketedText, petItem]).structs.toList,
      s.path = "Pet" → s.fields.map (fun f =>
        (catalogOf [ownerItem bracketedText, petItem]).viewOf f.type)
          = [some ⟨"&'static str", "Pointer"⟩] := by decide
  obtain ⟨s, hs, hpath, hbasic⟩ := hfirst
  obtain ⟨s', hs', hpath', views, hviews, hviews'⟩ := hview.1.fields s (Array.mem_toList_iff.1 hs)
  have hpointer := hsecond s' (Array.mem_toList_iff.2 hs') (hpath'.trans hpath)
  rw [map_viewOf hviews] at hbasic
  rw [map_viewOf hviews', hbasic] at hpointer
  exact absurd hpointer (by decide)

end Loading

end FieldCopy
