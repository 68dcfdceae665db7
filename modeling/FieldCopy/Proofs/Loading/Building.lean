import Mathlib
import FieldCopy.Loading
import FieldCopy.Proofs.Catalog.Naming
import FieldCopy.Proofs.Loading.Running

/-!
# The loader builds

The loader makes the catalog of a set of files by operations, and it gives an operation only numbers
that others gave.  So the catalog is built, whatever the files are.

**What a computation does.**  `Lowering.Builds needs m gives`: from a catalog that was built, by
operations that gave the numbers in `needs`, the computation `m` builds on, and the numbers that its
value refers to were given.  The rules follow the ways in which the loader is put together, and its
lemmas the recursion over types and items.

**Finishing.**  The names of a built catalog match, so it is finished as it is
(`SourceUnit.catalog_ofParsed`).

**Main statement.**  `SourceUnit.built_ofParsed`: the catalog of a source unit is built, and the
types of parameters and results are among the numbers that were given.
-/

namespace FieldCopy

open Source

namespace Lowering

variable {α β : Type} {needs : List Number}

/-- A computation that builds on: it needs that some numbers were given, and those that its value
refers to are given afterwards. -/
def Builds (needs : List Number) (m : Lowering α) (gives : α → List Number) : Prop :=
  ∀ gave c, Built gave c → needs ⊆ gave →
    ∃ after, Built after (m c).2 ∧ gave ⊆ after ∧ gives (m c).1 ⊆ after

/-- A computation whose value refers to no numbers. -/
def nothing : α → List Number := fun _ => []

/-- The number of a type that was found. -/
def typeNumber (id : TypeId) : List Number := [.type id]

namespace Builds

variable {gives : α → List Number}

lemma pure {a : α} (h : gives a ⊆ needs) : Builds needs (Pure.pure a : Lowering α) gives :=
  fun gave _ hc hneeds => ⟨gave, hc, List.Subset.refl _, List.Subset.trans h hneeds⟩

lemma get : Builds needs (MonadState.get : Lowering Catalog) nothing :=
  fun gave _ hc _ => ⟨gave, hc, List.Subset.refl _, List.nil_subset _⟩

lemma bind {m : Lowering α} {f : α → Lowering β} {gives' : β → List Number}
    (hm : Builds needs m gives) (hf : ∀ a, Builds (gives a ++ needs) (f a) gives') :
    Builds needs (m >>= f) gives' := by
  intro gave c hc hneeds
  obtain ⟨between, hbetween, hsub, hgives⟩ := hm gave c hc hneeds
  have hneeds' := List.append_subset.2 ⟨hgives, List.Subset.trans hneeds hsub⟩
  obtain ⟨after, hafter, hsub', hgives'⟩ := hf (m c).1 between (m c).2 hbetween hneeds'
  exact ⟨after, hafter, List.Subset.trans hsub hsub', hgives'⟩

lemma weaken {needs' : List Number} {gives' : α → List Number} {m : Lowering α}
    (hm : Builds needs m gives) (hneeds : needs ⊆ needs') (hgives : ∀ a, gives' a ⊆ gives a) :
    Builds needs' m gives' := by
  intro gave c hc hneeds'
  obtain ⟨after, hafter, hsub, hafter'⟩ := hm gave c hc (List.Subset.trans hneeds hneeds')
  exact ⟨after, hafter, hsub, List.Subset.trans (hgives _) hafter'⟩

/-- Goes on from a value that refers to no numbers. -/
lemma after {m : Lowering α} {f : α → Lowering β} {gives' : β → List Number}
    (hm : Builds needs m nothing) (hf : ∀ a, Builds needs (f a) gives') :
    Builds needs (m >>= f) gives' :=
  hm.bind hf

/-- An operation that is given numbers that were given. -/
lemma operation (op : Operation) {m : Lowering α} (hgiven : op.given ⊆ needs)
    (hrun : ∀ c answers c', op.run c = .ok (answers, c') →
      (m c).2 = c' ∧ gives (m c).1 ⊆ answers) : Builds needs m gives := by
  intro gave c hc hneeds
  obtain ⟨answers, c', hop, hbuilt⟩ := hc.goes_on op (List.Subset.trans hgiven hneeds)
  obtain ⟨rfl, hgives⟩ := hrun c answers c' hop
  exact ⟨answers ++ gave, hbuilt, List.subset_append_right _ _,
    List.Subset.trans hgives (List.subset_append_left _ _)⟩

lemma mapM {f : α → Lowering β} {gives' : β → List Number} :
    ∀ {l : List α}, (∀ a ∈ l, Builds needs (f a) gives') →
      Builds needs (l.mapM f) fun bs => bs.flatMap gives'
  | [], _ => by
      rw [List.mapM_nil]
      exact .pure (List.nil_subset _)
  | a :: l, h => by
      rw [List.mapM_cons]
      refine .bind (h a List.mem_cons_self) fun b => .bind ((mapM fun d hd =>
        h d (List.mem_cons_of_mem a hd)).weaken (List.subset_append_right _ _) fun _ =>
          List.Subset.refl _) fun bs => .pure ?_
      rw [List.flatMap_cons]
      exact List.append_subset.2
        ⟨List.subset_append_of_subset_right _ (List.subset_append_left _ _),
          List.subset_append_left _ _⟩

lemma forM {f : α → Lowering Unit} : ∀ {l : List α}, (∀ a ∈ l, Builds needs (f a) nothing) →
    Builds needs (l.forM f) nothing
  | [], _ => .pure (List.nil_subset _)
  | a :: l, h => by
      change Builds needs (f a >>= fun _ => l.forM f) nothing
      exact (h a List.mem_cons_self).after fun _ => forM fun b hb => h b (List.mem_cons_of_mem a hb)

end Builds

/-! ## Types -/

lemma builds_intern {name : String} {shape : Shape} (h : shape.numbers ⊆ needs) :
    Builds needs (intern name shape) typeNumber := by
  refine .operation (.intern name shape) h fun c answers c' hrun => ?_
  obtain ⟨rfl, rfl⟩ := Prod.mk.inj (Except.ok.inj hrun)
  exact ⟨rfl, List.Subset.refl _⟩

lemma builds_around {find : Lowering TypeId} (h : Builds needs find typeNumber)
    {shape : TypeId → Shape} (hshape : ∀ id, (shape id).numbers = [.type id])
    (name : String → String) : Builds needs (around find shape name) typeNumber := by
  refine h.bind fun id => Builds.get.after fun c => builds_intern ?_
  rw [hshape]
  exact List.subset_append_left _ _

lemma builds_mapBetween (written : String) {key value : Lowering TypeId}
    (hkey : Builds needs key typeNumber) (hvalue : Builds needs value typeNumber) :
    Builds needs (mapBetween written key value) typeNumber := by
  refine hkey.bind fun k => (hvalue.weaken (List.subset_append_right _ _) fun _ =>
    List.Subset.refl _).bind fun v => Builds.get.after fun c => builds_intern ?_
  simp [Shape.numbers, Shape.parts, Shape.struct?, typeNumber]

/-- A generic argument that builds, if it is a type. -/
def Argument.Builds : Argument → Prop
  | .type find => Lowering.Builds [] find typeNumber
  | .text _ => True

lemma Argument.Builds.name : ∀ {a : Argument}, a.Builds → Lowering.Builds needs a.name nothing
  | .type _, h => (h.weaken (List.nil_subset _) fun _ => List.nil_subset _).after fun _ =>
      Lowering.Builds.get.after fun _ => .pure (List.nil_subset _)
  | .text _, _ => .pure (List.nil_subset _)

/-- The structure that a scope finds can be given by looking up a path. -/
lemma built_lookUp {scope : Scope} {gave : List Number} {c : Catalog} (hc : Built gave c)
    {path : String} {id : StructId} (h : scope.struct? c path = some id) :
    Built (.struct id :: gave) c := by
  obtain ⟨key, hkey⟩ := exists_find_of_resolve h
  have hrun : (Operation.structAtPath key).run c = .ok ([.struct id], c) := by
    rw [Operation.run, hkey]
    rfl
  exact hc.step (List.forall_mem_nil _) hrun

/-- Goes on from a structure that a scope finds. -/
lemma Builds.lookUp {scope : Scope} {path : String} {f : StructId → Lowering α} {g : Lowering α}
    {gives : α → List Number} (hf : ∀ id, Builds (.struct id :: needs) (f id) gives)
    (hg : Builds needs g gives) :
    Builds needs (do
      match scope.struct? (← MonadState.get) path with
      | some id => f id
      | none => g) gives := by
  intro gave c hc hneeds
  rw [get_bind]
  cases hid : scope.struct? c path with
  | some id =>
      have hneeds' : .struct id :: needs ⊆ .struct id :: gave := List.cons_subset_cons _ hneeds
      obtain ⟨after, hafter, hsub, hgives⟩ := hf id _ c (built_lookUp hc hid) hneeds'
      exact ⟨after, hafter, List.subset_of_cons_subset hsub, hgives⟩
  | none => exact hg gave c hc hneeds

/-- **The type of a path is built.** -/
lemma builds_named (scope : Scope) (written : String) {arguments : List Argument}
    (h : ∀ a ∈ arguments, a.Builds) : Builds needs (named scope written arguments) typeNumber := by
  have hbasic : ∀ name, Builds needs (intern name .basic) typeNumber :=
    fun name => builds_intern (List.nil_subset _)
  intro gave c hc hneeds
  cases hs : scope.struct? c written with
  | some id =>
      have hlook := built_lookUp hc hs
      obtain ⟨answers, c', hrun, hbuilt⟩ :=
        hlook.goes_on (.structType id) fun n hn => List.mem_singleton.1 hn ▸ List.mem_cons_self
      obtain ⟨r, hr, rfl, rfl⟩ := Operation.exists_of_found hrun
      have hnamed : named scope written arguments c = r := by
        rw [named, get_bind, hs, Option.bind_some, hr]
        rfl
      rw [hnamed]
      refine ⟨_, hbuilt, fun n hn => ?_, List.subset_append_left _ _⟩
      exact List.mem_append_right _ (List.mem_cons_of_mem _ hn)
  | none =>
      rw [named_of_none hs]
      split
      · exact hbasic _ gave c hc hneeds
      · have hnames : Builds needs (arguments.mapM Argument.name) fun ns => ns.flatMap nothing :=
          .mapM fun a ha => (h a ha).name
        exact hnames.bind (fun names => builds_intern (List.nil_subset _)) gave c hc hneeds

lemma builds_atPath (scope : Scope) (written last : String) {arguments : List Argument}
    (h : ∀ a ∈ arguments, a.Builds) :
    Builds needs (atPath scope written last arguments) typeNumber := by
  have hfind : ∀ find, .type find ∈ arguments → Builds needs find typeNumber := fun find hmem =>
    Builds.weaken (h _ hmem) (List.nil_subset _) fun _ => List.Subset.refl _
  obtain ⟨e, he, -, hrun⟩ | ⟨e, he, -, hrun⟩ | ⟨key, value, hkey, hvalue, hrun⟩ | hrun :=
    atPath_cases scope written last arguments
  · rw [hrun]
    exact builds_around (hfind e he) (fun _ => rfl) _
  · rw [hrun]
    exact builds_around (hfind e he) (fun _ => rfl) _
  · rw [hrun]
    exact builds_mapBetween written (hfind key hkey) (hfind value hvalue)
  · rw [hrun]
    exact builds_named scope written h

/-- **Every type as written is built.** -/
theorem builds_type (scope : Scope) (t : Ty) : Builds [] (type scope t) typeNumber := by
  induction t using Ty.form_induction with
  | parenthesized t ih =>
      rw [type]
      exact ih
  | sliceReference l m e ih | slice e ih | array e n ih =>
      rw [type]
      exact builds_around ih (fun _ => rfl) _
  | reference l m t hslice ih =>
      rw [type_reference hslice]
      split
      · exact builds_intern (List.nil_subset _)
      · exact builds_around ih (fun _ => rfl) _
  | path p ih =>
      rw [type]
      cases hlast : p.last? with
      | some s =>
          exact builds_atPath scope _ _
            (forall_pathArguments hlast (fun _ => True.intro) (ih s hlast))
      | none => exact builds_intern (List.nil_subset _)
  | unit | tuple | traitObject | implTrait | qualified | other =>
      rw [type]
      exact builds_intern (List.nil_subset _)

/-! ## Items -/

/-- The types of a function's parameters and its result. -/
def signatureNumbers (s : SignatureTypes) : List Number :=
  s.parameters.map .type ++ (s.result.map .type).toList

/-- A type that is found anywhere. -/
lemma builds_type_needs (scope : Scope) (t : Ty) : Builds needs (type scope t) typeNumber :=
  (builds_type scope t).weaken (List.nil_subset _) fun _ => List.Subset.refl _

lemma builds_signature (scope : Scope) (s : Signature) :
    Builds needs (signature scope s) signatureNumbers := by
  rw [signature]
  refine Builds.bind (Builds.mapM fun p _ => builds_type_needs scope p.type) fun parameters => ?_
  have hparameters : parameters.flatMap typeNumber = parameters.map .type :=
    List.flatMap_pure_eq_map _ _
  rw [hparameters]
  split
  · exact .pure (by simp [signatureNumbers])
  · split
    all_goals
      exact (builds_type_needs scope _).bind fun id =>
        .pure (by simp [signatureNumbers, typeNumber])

lemma builds_change (op : Operation) {f : Catalog → Except Dangling Catalog}
    (hrun : ∀ c, op.run c = Operation.run.changed <$> f c) (hgiven : op.given ⊆ needs) :
    Builds needs (change f) nothing := by
  refine .operation op hgiven fun c answers c' h => ⟨?_, List.nil_subset _⟩
  obtain ⟨hf, -⟩ := Operation.exists_of_changed ((hrun c).symm.trans h)
  change (f c).toOption.getD c = c'
  rw [hf]
  rfl

lemma builds_field (scope : Scope) (id : StructId) (f : Field) :
    Builds (.struct id :: needs) (field scope id f) nothing := by
  refine (builds_type_needs scope f.type).bind fun t =>
    builds_change (.addField id _ t _) (fun c => rfl) ?_
  simp [Operation.given, typeNumber]

lemma builds_method (scope : Scope) (id : StructId) (s : Signature) :
    Builds (.struct id :: needs) (method scope id s) nothing := by
  rw [method]
  split
  · refine (builds_signature scope s).bind fun types =>
      builds_change (.addMethod id _) (fun c => rfl) ?_
    simp [Operation.given, signatureNumbers]
  · exact .pure (List.nil_subset _)

lemma builds_function (scope : Scope) (s : Signature) :
    Builds needs (function scope s) nothing := by
  refine (builds_signature scope s).bind fun types =>
    .operation (.addFunction scope.package ⟨s.name, types.parameters, types.result, types.fallible⟩)
      ?_ ?_
  · exact List.subset_append_left _ _
  · intro c answers c' h
    obtain ⟨rfl, rfl⟩ := Prod.mk.inj (Except.ok.inj h)
    exact ⟨rfl, List.nil_subset _⟩

lemma builds_implementation (scope : Scope) (i : Implementation) :
    Builds needs (implementation scope i) nothing := by
  rw [implementation]
  split
  · split
    · refine (builds_type_needs scope i.subject).bind fun id => .operation (.markStringer id) ?_ ?_
      · exact List.subset_append_left _ _
      · intro c answers c' h
        obtain ⟨rfl, rfl⟩ := Prod.mk.inj (Except.ok.inj h)
        exact ⟨rfl, List.nil_subset _⟩
    · exact .pure (List.nil_subset _)
  · split
    case h_1 | h_2 =>
      exact .lookUp (fun id => .forM fun s _ => builds_method scope id s)
        (.pure (List.nil_subset _))
    · exact .pure (List.nil_subset _)

mutual

lemma builds_item (scope : Scope) : ∀ i : Item, Builds [] (item scope i) nothing
  | .record name fields => by
      rw [item]
      exact .lookUp (fun id => .forM fun f _ => builds_field scope id f) (.pure (List.nil_subset _))
  | .implementation i => by
      rw [item]
      exact builds_implementation scope i
  | .function s => by
      rw [item]
      exact builds_function scope s
  | .module name inner => by
      rw [item]
      exact builds_items _ inner
  | .enumeration _ => by
      rw [item]
      exact .pure (List.nil_subset _)
  | .trait _ => by
      rw [item]
      exact .pure (List.nil_subset _)
  | .use _ => by
      rw [item]
      exact .pure (List.nil_subset _)
  | .other => by
      rw [item]
      exact .pure (List.nil_subset _)

/-- **What items define is built.** -/
theorem builds_items (scope : Scope) : ∀ is : List Item, Builds [] (items scope is) nothing
  | [] => by
      rw [items]
      exact .pure (List.nil_subset _)
  | i :: rest => by
      rw [items]
      exact (builds_item scope i).after fun _ => builds_items scope rest

end

end Lowering

/-! ## Traits -/

/-- The types of parameters and of the result of a method. -/
def Declaration.numbers (m : Declaration) : List Number :=
  (m.parameters ++ m.result.toList).map fun p => .type p.type

/-- The types of parameters and of results of the methods of a trait. -/
def Interface.numbers (i : Interface) : List Number := i.methods.flatMap Declaration.numbers

namespace Interface

open Lowering

variable {needs : List Number}

lemma builds_parameter (scope : Scope) (p : Source.Parameter) (index : Nat) :
    Builds needs (parameter scope p index) fun q => [.type q.type] :=
  (builds_type_needs scope p.type).bind fun _ => .pure (List.subset_append_left _ _)

lemma builds_result (scope : Scope) (t : Ty) :
    Builds needs (result scope t) fun q => [.type q.type] :=
  (builds_type_needs scope t).bind fun _ => .pure (List.subset_append_left _ _)

lemma builds_method (scope : Scope) (file : String) (f : TraitFunction) :
    Builds needs (method scope file f) Declaration.numbers := by
  rw [method]
  refine Builds.bind (Builds.mapM fun p _ => builds_parameter scope p.1 p.2) fun parameters => ?_
  have hparameters : parameters.flatMap (fun q => [Number.type q.type])
      = parameters.map fun q => Number.type q.type := List.flatMap_pure_eq_map _ _
  rw [hparameters]
  split
  · exact .pure (by simp [Declaration.numbers])
  · split
    all_goals
      exact (builds_result scope _).bind fun r => .pure (by simp [Declaration.numbers])

lemma builds_ofTrait? (scope : Scope) (file name : String) (t : Trait) :
    Builds needs (ofTrait? scope file name t) fun i => i.toList.flatMap numbers := by
  rw [ofTrait?]
  split
  · refine Builds.bind (Builds.mapM fun f _ => builds_method scope file f) fun methods => .pure ?_
    simp [numbers]
  · exact .pure (List.nil_subset _)

/-- **The types of the methods of traits are built.** -/
theorem builds_ofItems (scope : Scope) (file name : String) : ∀ is : List Item,
    Builds needs (ofItems scope file name is) fun traits => traits.flatMap numbers
  | [] => .pure (List.nil_subset _)
  | .trait t :: rest => by
      rw [ofItems]
      refine Builds.bind (builds_ofTrait? scope file name t) fun first =>
        ((builds_ofItems scope file name rest).weaken (List.subset_append_right _ _) fun _ =>
          List.Subset.refl _).bind fun traits => .pure fun n hn => ?_
      rw [List.flatMap_append, List.mem_append] at hn
      exact hn.elim (fun h => List.mem_append_right _ (List.mem_append_left _ h))
        (List.mem_append_left _)
  | .record _ _ :: rest | .enumeration _ :: rest | .function _ :: rest
  | .implementation _ :: rest | .module _ _ :: rest | .use _ :: rest | .other :: rest =>
      builds_ofItems scope file name rest

end Interface

/-! ## Source units -/

/-- What is declared is built. -/
lemma built_declareAll (ss : List QualifiedName) : ∃ gave, Built gave (Catalog.declareAll ss) := by
  induction ss using List.reverseRecOn with
  | nil => exact ⟨[], .empty⟩
  | append_singleton ss s ih =>
      obtain ⟨gave, hgave⟩ := ih
      rw [Catalog.declareAll_concat]
      have hrun : (Operation.declareStruct s.name s.package).run (Catalog.declareAll ss)
          = .ok ([.struct ((Catalog.declareAll ss).declareStruct s.name s.package).1],
            ((Catalog.declareAll ss).declareStruct s.name s.package).2) := rfl
      exact ⟨_, hgave.step (List.forall_mem_nil _) hrun⟩

namespace SourceUnit

/-- What is collected from files is built, and so are the types of the methods of traits. -/
lemma built_collect (file interfaceName : String) (input : ParsedFile)
    (includes : List ParsedFile) : ∃ gave,
      Built gave (collect file interfaceName input includes
        (Declared.ofFiles (input :: includes)).catalog).2
      ∧ (collect file interfaceName input includes
          (Declared.ofFiles (input :: includes)).catalog).1.flatMap Interface.numbers ⊆ gave := by
  obtain ⟨gave, hgave⟩ := built_declareAll (structsOf (input :: includes))
  have hdeclared : Built gave (Declared.ofFiles (input :: includes)).catalog := by
    rw [ofFiles_eq]
    exact hgave
  have hitems : Lowering.Builds [] ((input :: includes).forM fun f =>
      Lowering.items (.ofFiles (input :: includes) f.package) f.items) Lowering.nothing :=
    .forM fun f _ => Lowering.builds_items _ f.items
  have hcollect := hitems.after fun _ => Interface.builds_ofItems
    (.ofFiles (input :: includes) "") file interfaceName input.items
  obtain ⟨after, hafter, -, hnumbers⟩ := hcollect gave _ hdeclared (List.nil_subset _)
  exact ⟨after, hafter, hnumbers⟩

/-- **Finishing leaves what was collected as it is.** -/
theorem catalog_ofParsed (file interfaceName : String) (input : ParsedFile)
    (includes : List ParsedFile) :
    (ofParsed file interfaceName input includes).catalog
      = (collect file interfaceName input includes
          (Declared.ofFiles (input :: includes)).catalog).2 := by
  obtain ⟨gave, hgave, -⟩ := built_collect file interfaceName input includes
  exact hgave.namesMatch.finished_eq

/-- **The catalog of a source unit is built, whatever the files are,** and so are the types of the
parameters and results of its methods. -/
theorem built_ofParsed (file interfaceName : String) (input : ParsedFile)
    (includes : List ParsedFile) : ∃ gave,
      Built gave (ofParsed file interfaceName input includes).catalog
      ∧ (ofParsed file interfaceName input includes).interfaces.flatMap Interface.numbers
          ⊆ gave := by
  rw [catalog_ofParsed]
  exact built_collect file interfaceName input includes

end SourceUnit

/-- **The catalog of a source unit is reached.** -/
theorem Loading.reached_ofParsed (file interfaceName : String) {input : ParsedFile}
    {includes : List ParsedFile} (proper : ∀ f ∈ input :: includes, f.IsProper) :
    Reached (input :: includes)
      (SourceUnit.ofParsed file interfaceName input includes).catalog := by
  rw [SourceUnit.catalog_ofParsed]
  exact reached_collect file interfaceName proper

end FieldCopy
