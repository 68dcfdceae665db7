import Mathlib
import FieldCopy.Proofs.ItemOrder.Reports
import FieldCopy.Proofs.Loading.OwnNames

/-!
# Items in another order

Items of a file or of a module may stand in another order, and so may included files.

**What stays.**  The files declare the same types in another order (`FilesReordered.declarations`),
and say the same in another order (`FilesReordered.report`), given what names mean.

**Names.**  If no two declared types have one name, at most one of them claims a key, so it does not
matter who comes first: paths lead to the same structures and enumerations
(`Loading.names_of_perm`).

**Functions.**  If no two functions have one name, their table does not depend on their order
(`functionTable_perm`).
-/

namespace FieldCopy

open Source ModulePath Catalog

/-! ## Other orders -/

/-- The same items in another order, inside modules as well. -/
inductive Source.Reordered : List Item → List Item → Prop where
  | nil : Reordered [] []
  | cons (i : Item) {is is' : List Item} (rest : Reordered is is') : Reordered (i :: is) (i :: is')
  | inside (name : String) {inner inner' is is' : List Item} (items : Reordered inner inner')
      (rest : Reordered is is') : Reordered (.module name inner :: is) (.module name inner' :: is')
  | swap (i j : Item) (is : List Item) : Reordered (i :: j :: is) (j :: i :: is)
  | trans {is is' is'' : List Item} (first : Reordered is is') (second : Reordered is' is'') :
      Reordered is is''

/-- A file with its items in another order. -/
structure ParsedFile.Reordered (f g : ParsedFile) : Prop where
  package : f.package = g.package
  items : Source.Reordered f.items g.items

/-- Files in another order, with their items in another order. -/
def FilesReordered (files files' : List ParsedFile) : Prop :=
  ∃ between, List.Forall₂ ParsedFile.Reordered files between ∧ between.Perm files'

/-- What is listed for each file is the same in another order if it is so for the items of one
file. -/
lemma FilesReordered.flatMap {α : Type} {files files' : List ParsedFile}
    (h : FilesReordered files files') {g : ParsedFile → List α}
    (items : ∀ f f', ParsedFile.Reordered f f' → (g f).Perm (g f')) :
    (files.flatMap g).Perm (files'.flatMap g) := by
  obtain ⟨between, hbetween, hperm⟩ := h
  have hfirst : (files.flatMap g).Perm (between.flatMap g) := by
    clear hperm
    induction hbetween with
    | nil => exact .nil
    | cons hf _ ih =>
        rw [List.flatMap_cons, List.flatMap_cons]
        exact (items _ _ hf).append ih
  exact hfirst.trans (hperm.flatMap_right g)

/-- The first file, and the others in another order. -/
lemma FilesReordered.cons {f f' : ParsedFile} {files files' : List ParsedFile}
    (hf : f.Reordered f') (h : FilesReordered files files') :
    FilesReordered (f :: files) (f' :: files') := by
  obtain ⟨between, hbetween, hperm⟩ := h
  exact ⟨f' :: between, .cons hf hbetween, hperm.cons f'⟩

/-! ## Declarations -/

lemma typesOfAll_perm {is is' : List Item} (h : Source.Reordered is is') :
    ∀ package, (typesOfAll package is).Perm (typesOfAll package is') := by
  induction h with
  | nil => exact fun _ => .nil
  | cons i _ ih =>
      intro package
      rw [typesOfAll, typesOfAll]
      exact (ih package).append_left _
  | inside name _ _ ihInner ih =>
      intro package
      rw [typesOfAll, typesOfAll, typesOf, typesOf]
      exact (ihInner (inside package name)).append (ih package)
  | swap i j is =>
      intro package
      simp only [typesOfAll, ← List.append_assoc]
      exact List.perm_append_comm.append_right _
  | trans _ _ ih ih' => exact fun package => (ih package).trans (ih' package)

lemma FilesReordered.declarations {files files' : List ParsedFile}
    (h : FilesReordered files files') :
    (FieldCopy.declarations files).Perm (FieldCopy.declarations files') :=
  h.flatMap fun f f' hf => by
    rw [← hf.package]
    exact typesOfAll_perm hf.items f.package

/-! ## Proper files -/

lemma itemsAreProper_of_reordered {is is' : List Item} (h : Source.Reordered is is') :
    itemsAreProper is → itemsAreProper is' := by
  induction h with
  | nil => exact id
  | cons i _ ih => exact And.imp_right ih
  | inside name _ _ ihInner ih => exact And.imp (And.imp_right ihInner) ih
  | swap i j is => exact fun h => ⟨h.2.1, h.1, h.2.2⟩
  | trans _ _ ih ih' => exact fun h => ih' (ih h)

lemma FilesReordered.isProper {files files' : List ParsedFile} (h : FilesReordered files files')
    (proper : ∀ f ∈ files, f.IsProper) : ∀ f ∈ files', f.IsProper := by
  obtain ⟨between, hbetween, hperm⟩ := h
  have hproper : ∀ f ∈ between, f.IsProper := by
    clear hperm
    induction hbetween with
    | nil => exact List.forall_mem_nil _
    | cons hf _ ih =>
        obtain ⟨hfirst, hrest⟩ := List.forall_mem_cons.1 proper
        refine List.forall_mem_cons.2 ⟨⟨hf.package ▸ hfirst.package, ?_⟩, ih hrest⟩
        exact itemsAreProper_of_reordered hf.items hfirst.items
  exact fun f hf => hproper f (hperm.mem_iff.2 hf)

/-! ## Reports -/

namespace Report

/-- Two reports say the same in another order. -/
structure Perm (r s : Report) : Prop where
  asked : r.asked.Perm s.asked
  records : r.records.Perm s.records
  methods : r.methods.Perm s.methods
  texts : r.texts.Perm s.texts
  functions : r.functions.Perm s.functions

namespace Perm

variable {r s t : Report}

/-- Fields of structures that have them listed once come in one order. -/
lemma fieldsOf (h : Perm r s) (distinct : (r.records.map Prod.fst).Nodup) (path : String) :
    r.fieldsOf path = s.fieldsOf path := by
  have hfilter := h.records.filter fun e => e.1 = path
  rw [Report.fieldsOf, Report.fieldsOf]
  have hnodup : ((r.records.filter fun e => e.1 = path).map Prod.fst).Nodup :=
    distinct.sublist (List.filter_sublist.map _)
  have hpath : ∀ e ∈ r.records.filter fun e => e.1 = path, e.1 = path := fun e he =>
    of_decide_eq_true (List.mem_filter.1 he).2
  rcases hfirst : r.records.filter fun e => e.1 = path with _ | ⟨e, _ | ⟨e', rest⟩⟩ <;>
    rw [hfirst] at hfilter hnodup hpath
  · rw [hfirst, ← hfilter.nil_eq]
  · rw [hfirst, ← hfilter.singleton_eq]
  · have hsame : e.1 = e'.1 := (hpath e (by simp)).trans (hpath e' (by simp)).symm
    simp [hsame] at hnodup

lemma methodsOf (h : Perm r s) (path : String) : (r.methodsOf path).Perm (s.methodsOf path) :=
  (h.methods.filter _).map _

lemma refl (r : Report) : Perm r r := ⟨.refl _, .refl _, .refl _, .refl _, .refl _⟩

lemma trans (h : Perm r s) (h' : Perm s t) : Perm r t :=
  ⟨h.asked.trans h'.asked, h.records.trans h'.records, h.methods.trans h'.methods,
    h.texts.trans h'.texts, h.functions.trans h'.functions⟩

lemma append {r' s' : Report} (h : Perm r s) (h' : Perm r' s') : Perm (r ++ r') (s ++ s') :=
  ⟨h.asked.append h'.asked, h.records.append h'.records, h.methods.append h'.methods,
    h.texts.append h'.texts, h.functions.append h'.functions⟩

lemma comm (r s : Report) : Perm (r ++ s) (s ++ r) :=
  ⟨List.perm_append_comm, List.perm_append_comm, List.perm_append_comm, List.perm_append_comm,
    List.perm_append_comm⟩

end Perm

end Report

/-- What the items of some files say, given what names mean in each module. -/
def filesReport (names : String → Names) (files : List ParsedFile) : Report :=
  .all (files.map fun f => Lowering.itemsReport names f.package f.items)

section

variable (names : String → Names)

open Lowering

/-- A part of what files say is this part of what the items of each file say. -/
lemma part_filesReport {α : Type} (part : Report → List α) (empty : part .empty = [])
    (append : ∀ r s, part (r ++ s) = part r ++ part s) (files : List ParsedFile) :
    part (filesReport names files)
      = files.flatMap fun f => part (itemsReport names f.package f.items) := by
  induction files with
  | nil => exact empty
  | cons f files ih =>
      rw [filesReport, List.map_cons, Report.all, append, List.flatMap_cons, ← ih]
      rfl

lemma itemsReport_perm {is is' : List Item} (h : Source.Reordered is is') :
    ∀ package, (itemsReport names package is).Perm (itemsReport names package is') := by
  induction h with
  | nil => exact fun _ => .refl _
  | cons i _ ih =>
      intro package
      rw [itemsReport, itemsReport]
      exact .append (.refl _) (ih package)
  | inside name _ _ ihInner ih =>
      intro package
      rw [itemsReport, itemsReport, itemReport, itemReport]
      exact .append (ihInner (ModulePath.inside package name)) (ih package)
  | swap i j is =>
      intro package
      simp only [itemsReport, ← Report.append_assoc]
      exact .append (.comm _ _) (.refl _)
  | trans _ _ ih ih' => exact fun package => (ih package).trans (ih' package)

/-- **Files say the same in another order.** -/
theorem FilesReordered.report {files files' : List ParsedFile} (h : FilesReordered files files') :
    (filesReport names files).Perm (filesReport names files') := by
  have hpart : ∀ {α : Type} (part : Report → List α), part .empty = [] →
      (∀ r s, part (r ++ s) = part r ++ part s) →
      (∀ r s : Report, r.Perm s → (part r).Perm (part s)) →
        (part (filesReport names files)).Perm (part (filesReport names files')) := by
    intro α part hempty happend hperm
    rw [part_filesReport names part hempty happend, part_filesReport names part hempty happend]
    refine h.flatMap fun f f' hf => hperm _ _ ?_
    rw [← hf.package]
    exact itemsReport_perm names hf.items f.package
  exact ⟨hpart Report.asked rfl (fun _ _ => rfl) fun _ _ h => h.asked,
    hpart Report.records rfl (fun _ _ => rfl) fun _ _ h => h.records,
    hpart Report.methods rfl (fun _ _ => rfl) fun _ _ h => h.methods,
    hpart Report.texts rfl (fun _ _ => rfl) fun _ _ h => h.texts,
    hpart Report.functions rfl (fun _ _ => rfl) fun _ _ h => h.functions⟩

end

/-! ## The only claimant -/

/-- Types with one key have one name. -/
lemma QualifiedName.IsProper.name_eq_of_claims {m n : QualifiedName} (hm : m.IsProper)
    (hn : n.IsProper) {key : String} (hmkey : m.claims key = true) (hnkey : n.claims key = true) :
    m.name = n.name := by
  obtain ⟨front, hnames, rfl⟩ := hn.suffix_of_claims hnkey
  exact hm.name_of_claims hnames hmkey

/-- The only item with a property is found in any order. -/
lemma find?_perm {α : Type} {p : α → Bool} {l l' : List α} (h : l.Perm l')
    (unique : ∀ a ∈ l, ∀ b ∈ l, p a = true → p b = true → a = b) : l.find? p = l'.find? p := by
  cases hfind : l'.find? p with
  | none =>
      rw [List.find?_eq_none] at hfind ⊢
      exact fun a ha => hfind a (h.mem_iff.1 ha)
  | some b =>
      have hb := h.mem_iff.2 (List.mem_of_find?_eq_some hfind)
      have hpb := List.find?_some hfind
      cases hfind' : l.find? p with
      | none => exact absurd hpb (List.find?_eq_none.1 hfind' b hb)
      | some a =>
          rw [unique a (List.mem_of_find?_eq_some hfind') b hb (List.find?_some hfind') hpb]

/-- No two of some names that are proper are the same. -/
structure NamesDistinct (ns : List QualifiedName) : Prop where
  proper : ∀ n ∈ ns, n.IsProper
  distinct : (ns.map QualifiedName.name).Nodup

namespace NamesDistinct

variable {ns ns' : List QualifiedName}

/-- At most one claims a key. -/
lemma eq_of_claims (h : NamesDistinct ns) {m n : QualifiedName} (hm : m ∈ ns) (hn : n ∈ ns)
    {key : String} (hmkey : m.claims key = true) (hnkey : n.claims key = true) : m = n :=
  List.inj_on_of_nodup_map h.distinct hm hn
    ((h.proper m hm).name_eq_of_claims (h.proper n hn) hmkey hnkey)

/-- It is found in any order. -/
lemma find?_claims (h : NamesDistinct ns) (hperm : ns.Perm ns') (key : String) :
    ns.find? (fun n => n.claims key) = ns'.find? fun n => n.claims key :=
  find?_perm hperm fun _ hm _ hn hmkey hnkey => h.eq_of_claims hm hn hmkey hnkey

lemma path_nodup (h : NamesDistinct ns) : (ns.map QualifiedName.path).Nodup := by
  refine List.Nodup.map_on (fun m hm n hn hpath => ?_) h.distinct.of_map
  have hself : ∀ n : QualifiedName, n.claims n.path = true := fun n =>
    QualifiedName.claims_iff.2 (self_mem_suffixes n.path)
  exact h.eq_of_claims hm hn (hself m) (hpath ▸ hself n)

end NamesDistinct

/-! ## What paths lead to -/

namespace Catalog

/-- Tables that agree in what their values mean agree in what paths lead to. -/
lemma lookPath_congr {α β γ : Type} {s : Keyed α} {t : Keyed β} {f : α → γ} {g : β → γ}
    (h : ∀ key, (s.find? key).map f = (t.find? key).map g) (written : String) :
    (lookPath s written).map f = (lookPath t written).map g := by
  have hbind : ∀ name : Option String, (name.bind s.find?).map f = (name.bind t.find?).map g := by
    intro name
    cases name with
    | none => rfl
    | some n => exact h n
  simp only [lookPath, Option.orElse_eq_orElse, Option.orElse_eq_or, Option.map_or, h, hbind]
  split
  · rw [h]
  · rfl

end Catalog

lemma Scope.resolve_congr {α β γ : Type} (scope : Scope) {find : String → Option α}
    {find' : String → Option β} {f : α → γ} {g : β → γ}
    (h : ∀ path, (find path).map f = (find' path).map g) (path : String) :
    (scope.resolve find path).map f = (scope.resolve find' path).map g := by
  simp only [Scope.resolve, Option.orElse_eq_orElse, Option.orElse_eq_or, Option.map_or, h]
  split
  · rw [h]
  · rfl

namespace Loading

/-- The path of a declared structure. -/
def pathAt (ss : List QualifiedName) (id : StructId) : String :=
  (ss[id.index]?.map QualifiedName.path).getD ""

/-- A key leads to the path of the structure that claims it. -/
lemma map_pathAt (ss : List QualifiedName) (key : String) :
    ((declareAll ss).structPaths.find? key).map (pathAt ss)
      = (ss.find? fun s => s.claims key).map QualifiedName.path := by
  rw [structPaths_declareAll]
  cases hi : ss.findIdx? fun s => s.claims key with
  | none =>
      rw [List.findIdx?_eq_none_iff] at hi
      rw [List.find?_eq_none.2 fun s hs => by simpa using hi s hs]
      rfl
  | some i =>
      obtain ⟨hlt, hclaims, hfirst⟩ := List.findIdx?_eq_some_iff_getElem.1 hi
      have hfind : ss.find? (fun s => s.claims key) = some ss[i] :=
        List.find?_eq_some_iff_getElem.2 ⟨hclaims, i, hlt, rfl, fun j hj => by
          simpa using hfirst j hj⟩
      simp only [hfind, Option.map_some, pathAt, List.getElem?_eq_getElem hlt, Option.getD_some]

/-- The structure that a path leads to is known by its path. -/
lemma structPath?_declareAll (ss : List QualifiedName) (scope : Scope) (path : String) :
    scope.structPath? (declareAll ss) path
      = (scope.struct? (declareAll ss) path).map (pathAt ss) := by
  rw [Scope.structPath?]
  cases hid : scope.struct? (declareAll ss) path with
  | none => rfl
  | some id =>
      obtain ⟨written, hwritten⟩ := Lowering.exists_find_of_resolve hid
      obtain ⟨key, hkey⟩ := exists_find?_of_lookPath hwritten
      rw [structPaths_declareAll] at hkey
      obtain ⟨i, hi, rfl⟩ := Option.map_eq_some_iff.1 hkey
      obtain ⟨hlt, -, -⟩ := List.findIdx?_eq_some_iff_getElem.1 hi
      simp only [Option.bind_some, struct?_declareAll, List.getElem?_eq_getElem hlt,
        Option.map_some, pathAt, Option.getD_some]
      rfl

/-- **Names mean the same in any order of the declarations.** -/
theorem names_of_perm {ss ss' es es' : List QualifiedName} (hss : NamesDistinct ss)
    (hes : NamesDistinct es) (structs : ss.Perm ss') (enumerations : es.Perm es')
    (package : String) :
    Scope.names ⟨enumerationTable es, package⟩ (declareAll ss)
      = Scope.names ⟨enumerationTable es', package⟩ (declareAll ss') := by
  have hstructs : ∀ key, ((declareAll ss).structPaths.find? key).map (pathAt ss)
      = ((declareAll ss').structPaths.find? key).map (pathAt ss') := fun key => by
    rw [map_pathAt, map_pathAt, hss.find?_claims structs]
  have htable : (enumerationTable es).find? = (enumerationTable es').find? := by
    funext key
    rw [find?_enumerations, find?_enumerations, hes.find?_claims enumerations]
  rw [Scope.names, Scope.names]
  congr 1
  · funext path
    rw [structPath?_declareAll, structPath?_declareAll, Scope.struct?, Scope.struct?]
    exact Scope.resolve_congr _ (lookPath_congr hstructs) path
  · funext path
    rw [Scope.enumeration?, Scope.enumeration?, htable]
    rfl

end Loading

/-! ## Tables of functions -/

lemma find?_addFunction {α : Type} {t : Keyed α} {package name : String} (a : α)
    (free : t.find? name = none) (key : String) :
    (t.addFunction package name a).find? key
      = if key = name ∨ key = inside package name then some a else t.find? key := by
  rw [Keyed.addFunction, inside]
  split
  · rw [Keyed.find?_insertIfNew, free]
    simp
  · rw [Keyed.find?_insertIfNew, Keyed.find?_insert, Keyed.find?_insert, free]
    by_cases hname : key = name
    · rw [if_pos hname, if_pos (Or.inl hname : key = name ∨ _)]
      split <;> rfl
    · rw [if_neg hname]
      exact if_congr (or_iff_right hname).symm rfl rfl

/-- The name of a function in its module. -/
def functionName (f : String × FunctionView) : QualifiedName := ⟨f.2.name, f.1⟩

/-- Whether a key is for a function. -/
def isKeyOf (f : String × FunctionView) (key : String) : Bool :=
  key = f.2.name ∨ key = inside f.1 f.2.name

lemma claims_of_isKeyOf {f : String × FunctionView} (h : (functionName f).IsProper) {key : String}
    (hkey : isKeyOf f key = true) : (functionName f).claims key = true := by
  rcases of_decide_eq_true hkey with rfl | rfl
  · exact h.claims_name
  · exact QualifiedName.claims_iff.2 (self_mem_suffixes _)

/-- **A key is for the only function that has it.** -/
lemma find?_functionTable {fs : List (String × FunctionView)}
    (distinct : NamesDistinct (fs.map functionName)) (key : String) :
    (functionTable fs).find? key = (fs.find? fun f => isKeyOf f key).map Prod.snd := by
  induction fs using List.reverseRecOn generalizing key with
  | nil => rfl
  | append_singleton fs f ih =>
      rw [List.map_append, List.map_singleton] at distinct
      have hfront : NamesDistinct (fs.map functionName) :=
        ⟨fun n hn => distinct.proper n (List.mem_append_left _ hn),
          distinct.distinct.sublist ((List.sublist_append_left _ _).map _)⟩
      have hproper : (functionName f).IsProper :=
        distinct.proper _ (List.mem_append_right _ (List.mem_singleton_self _))
      -- No function in front has a key of the last one.
      have hfree : ∀ key, isKeyOf f key = true → fs.find? (fun g => isKeyOf g key) = none := by
        intro key hkey
        rw [List.find?_eq_none]
        intro g hg hgkey
        have hmem : functionName g ∈ fs.map functionName := List.mem_map_of_mem hg
        have hname := hproper.name_eq_of_claims (hfront.proper _ hmem)
          (claims_of_isKeyOf hproper hkey) (claims_of_isKeyOf (hfront.proper _ hmem) hgkey)
        have hnodup := distinct.distinct
        rw [List.map_append, List.map_singleton, List.nodup_append] at hnodup
        exact hnodup.2.2 _ (List.mem_map_of_mem hmem) _ (List.mem_singleton_self _) hname.symm
      have hname : (functionTable fs).find? f.2.name = none := by
        rw [ih hfront, hfree f.2.name (decide_eq_true (.inl rfl)), Option.map_none]
      rw [show functionTable (fs ++ [f]) = (functionTable fs).addFunction f.1 f.2.name f.2 from
        functionTable_concat fs f.1 f.2, find?_addFunction f.2 hname, List.find?_append,
        List.find?_singleton, ih hfront]
      by_cases hkey : isKeyOf f key = true
      · rw [if_pos (of_decide_eq_true hkey), hfree key hkey, if_pos hkey]
        rfl
      · rw [if_neg fun h => hkey (decide_eq_true h), if_neg hkey, Option.or_none]

/-- **Functions with different names may come in any order.** -/
theorem functionTable_perm {fs fs' : List (String × FunctionView)}
    (distinct : NamesDistinct (fs.map functionName)) (h : fs.Perm fs') :
    functionTable fs = functionTable fs' := by
  have hperm := h.map functionName
  have distinct' : NamesDistinct (fs'.map functionName) :=
    ⟨fun n hn => distinct.proper n (hperm.mem_iff.2 hn),
      (hperm.map QualifiedName.name).nodup_iff.1 distinct.distinct⟩
  refine Keyed.ext_find? fun key => ?_
  rw [find?_functionTable distinct, find?_functionTable distinct']
  refine congrArg _ (find?_perm h fun f hf g hg hfkey hgkey => ?_)
  have hf' : functionName f ∈ fs.map functionName := List.mem_map_of_mem hf
  have hg' : functionName g ∈ fs.map functionName := List.mem_map_of_mem hg
  have hname := (distinct.proper _ hf').name_eq_of_claims (distinct.proper _ hg')
    (claims_of_isKeyOf (distinct.proper _ hf') hfkey)
    (claims_of_isKeyOf (distinct.proper _ hg') hgkey)
  refine List.inj_on_of_nodup_map (f := fun f : String × FunctionView => f.2.name) ?_ hf hg hname
  have hnodup := distinct.distinct
  rwa [List.map_map] at hnodup

end FieldCopy
