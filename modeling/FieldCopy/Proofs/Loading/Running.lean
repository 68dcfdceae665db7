import Mathlib
import FieldCopy.Proofs.Loading.Finding
import FieldCopy.Proofs.Loading.Proper

/-!
# The catalogs that loading passes

What a run of the loader does to the catalog comes in steps: the type of something is found, or
fields, methods, functions and texts are added (`Loading.Step`).

**A run.**  `Loading.reached_collect`: collecting what proper files say leads in such steps from the
catalog in which everything is declared to another.

**What a run keeps.**  `Loading.Passes.fits`: the catalog fits all the time, and
`Loading.Passes.type?`: a number stands for one type for ever.
-/

namespace FieldCopy

open Source Catalog

/-- What the names in a module mean while these files are loaded. -/
def Scope.ofFiles (files : List ParsedFile) (package : String) : Scope :=
  ⟨(Declared.ofFiles files).enumerations, package⟩

namespace Loading

/-! ## Steps -/

/-- A step of a run that loads these files. -/
inductive Step (files : List ParsedFile) : Catalog → Catalog → Prop where
  | type {c : Catalog} (package : String) (t : Ty) (proper : t.IsProper) :
      Step files c (Lowering.type (.ofFiles files package) t c).2
  | field {c c' : Catalog} (id : StructId) (name : String) (t : TypeId) (tag : Option String)
      (added : c.addField id name t tag = .ok c') : Step files c c'
  | method {c c' : Catalog} (id : StructId) (m : MethodInfo)
      (added : c.addMethod id m = .ok c') : Step files c c'
  | function {c : Catalog} (package : String) (f : FunctionInfo) :
      Step files c (c.addFunction package f)
  | text {c : Catalog} (id : TypeId) : Step files c (c.markStringer id)

/-- A run that loads these files leads from one catalog to the other. -/
def Passes (files : List ParsedFile) : Catalog → Catalog → Prop :=
  Relation.ReflTransGen (Step files)

/-- A run that loads these files leads to the catalog. -/
def Reached (files : List ParsedFile) : Catalog → Prop :=
  Passes files (Declared.ofFiles files).catalog

end Loading

/-! ## What a run is made of -/

namespace Lowering

open Loading

variable {files : List ParsedFile} {c₀ : Catalog}

lemma passes_type (package : String) {t : Ty} (h : t.IsProper) :
    Keeps (Passes files c₀) (type (.ofFiles files package) t) :=
  fun _ hc => hc.tail (.type package t h)

lemma passes_change {f : Catalog → Except Dangling Catalog}
    (h : ∀ c c', f c = .ok c' → Step files c c') : Keeps (Passes files c₀) (change f) := by
  intro c hc
  change Passes files c₀ ((f c).toOption.getD c)
  cases hf : f c with
  | error _ => exact hc
  | ok c' => exact hc.tail (h c c' hf)

lemma passes_signature (package : String) {s : Signature} (h : s.IsProper) :
    Keeps (Passes files c₀) (signature (.ofFiles files package) s) := by
  rw [signature]
  refine .bind (.mapM fun p hp => passes_type package (h.parameters p hp)) fun parameters => ?_
  split
  · exact .pure _
  · rename_i t ht
    have hproper := h.result t ht
    split
    · rename_i value failure ho
      exact .bind (passes_type package (hproper.outcome ho)) fun _ => .pure _
    · exact .bind (passes_type package hproper) fun _ => .pure _

lemma passes_field (package : String) (id : StructId) {f : Field} (h : f.type.IsProper) :
    Keeps (Passes files c₀) (field (.ofFiles files package) id f) :=
  .bind (passes_type package h) fun _ => passes_change fun _ _ hc' => .field _ _ _ _ hc'

lemma passes_method (package : String) (id : StructId) {s : Signature} (h : s.IsProper) :
    Keeps (Passes files c₀) (method (.ofFiles files package) id s) := by
  rw [method]
  split
  · exact .bind (passes_signature package h) fun _ =>
      passes_change fun _ _ hc' => .method _ _ hc'
  · exact .pure _

lemma passes_function (package : String) {s : Signature} (h : s.IsProper) :
    Keeps (Passes files c₀) (function (.ofFiles files package) s) :=
  .bind (passes_signature package h) fun _ _ hc => hc.tail (.function _ _)

lemma passes_implementation (package : String) {i : Implementation} (hsubject : i.subject.IsProper)
    (hfunctions : ∀ s ∈ i.functions, s.IsProper) :
    Keeps (Passes files c₀) (implementation (.ofFiles files package) i) := by
  have hmethods : ∀ id, Keeps (Passes files c₀)
      (i.functions.forM (method (.ofFiles files package) id)) :=
    fun id => .forM fun s hs => passes_method package id (hfunctions s hs)
  rw [implementation]
  split
  · split
    · exact .bind (passes_type package hsubject) fun _ _ hc => hc.tail (.text _)
    · exact .pure _
  · split
    case h_1 | h_2 =>
      refine .bind .get fun c => ?_
      split
      · exact hmethods _
      · exact .pure _
    · exact .pure _

mutual

lemma passes_item (package : String) :
    ∀ i : Item, i.IsProper → Keeps (Passes files c₀) (item (.ofFiles files package) i)
  | .record name fields, h => by
      rw [item]
      refine .bind .get fun c => ?_
      split
      · exact .forM fun f hf => passes_field package _ (h.2 f hf)
      · exact .pure _
  | .implementation i, h => by
      rw [item]
      exact passes_implementation package h.1 h.2
  | .function s, h => by
      rw [item]
      exact passes_function package h
  | .module name inner, h => by
      rw [item]
      exact passes_items (ModulePath.inside package name) inner h.2
  | .enumeration _, _ => by rw [item]; exact .pure _
  | .trait _, _ => by rw [item]; exact .pure _
  | .use _, _ => by rw [item]; exact .pure _
  | .other, _ => by rw [item]; exact .pure _

lemma passes_items (package : String) :
    ∀ is : List Item, itemsAreProper is →
      Keeps (Passes files c₀) (items (.ofFiles files package) is)
  | [], _ => by rw [items]; exact .pure _
  | i :: rest, h => by
      rw [items]
      exact .bind (passes_item package i h.1) fun _ => passes_items package rest h.2

end

end Lowering

namespace Interface

open Loading Lowering

/-! ### Traits -/

section

variable {I : Catalog → Prop} {scope : Scope}
  (types : ∀ t : Ty, t.IsProper → Keeps I (Lowering.type scope t))

include types

lemma keeps_parameter {p : Source.Parameter} (h : p.type.IsProper) (index : Nat) :
    Keeps I (parameter scope p index) :=
  .bind (types p.type h) fun _ => .pure _

lemma keeps_result {t : Ty} (h : t.IsProper) : Keeps I (result scope t) :=
  .bind (types t h) fun _ => .pure _

lemma keeps_method (file : String) {f : TraitFunction} (h : f.signature.IsProper) :
    Keeps I (method scope file f) := by
  rw [method]
  refine .bind (.mapM ?_) fun parameters => ?_
  · rintro ⟨p, index⟩ hp
    exact keeps_parameter types (h.parameters p (List.fst_mem_of_mem_zipIdx hp)) index
  · split
    · exact .pure _
    · rename_i t ht
      have hproper := h.result t ht
      split
      · rename_i value failure ho
        exact .bind (keeps_result types (hproper.outcome ho)) fun _ => .pure _
      · exact .bind (keeps_result types hproper) fun _ => .pure _

lemma keeps_ofTrait? (file name : String) {t : Trait}
    (h : ∀ f ∈ t.functions, f.signature.IsProper) : Keeps I (ofTrait? scope file name t) := by
  rw [ofTrait?]
  split
  · exact .bind (.mapM fun f hf => keeps_method types file (h f hf)) fun _ => .pure _
  · exact .pure _

/-- **What finding types keeps, reading traits keeps.** -/
lemma keeps_ofItems (file name : String) : ∀ is : List Item, itemsAreProper is →
    Keeps I (ofItems scope file name is)
  | [], _ => .pure _
  | .trait t :: rest, h => by
      rw [ofItems]
      exact .bind (keeps_ofTrait? types file name h.1) fun _ =>
        .bind (keeps_ofItems file name rest h.2) fun _ => .pure _
  | .record _ _ :: rest, h | .enumeration _ :: rest, h | .function _ :: rest, h
  | .implementation _ :: rest, h | .module _ _ :: rest, h | .use _ :: rest, h
  | .other :: rest, h =>
      keeps_ofItems file name rest h.2

end

end Interface

namespace Loading

variable {files : List ParsedFile}

/-- **A run of the loader goes in steps.** -/
theorem reached_collect (file interfaceName : String) {input : ParsedFile}
    {includes : List ParsedFile} (proper : ∀ f ∈ input :: includes, f.IsProper) :
    Reached (input :: includes) (SourceUnit.collect file interfaceName input includes
      (Declared.ofFiles (input :: includes)).catalog).2 := by
  have hitems : ∀ f ∈ input :: includes, Lowering.Keeps (Reached (input :: includes))
      (Lowering.items (.ofFiles (input :: includes) f.package) f.items) :=
    fun f hf => Lowering.passes_items f.package f.items (proper f hf).items
  have htraits : Lowering.Keeps (Reached (input :: includes))
      (Interface.ofItems (.ofFiles (input :: includes) "") file interfaceName input.items) :=
    Interface.keeps_ofItems (fun _ ht => Lowering.passes_type "" ht) file interfaceName input.items
      (proper input List.mem_cons_self).items
  exact Lowering.Keeps.bind (.forM hitems) (fun _ => htraits) _ .refl

/-! ## What a run keeps -/

lemma scope_ofFiles (files : List ParsedFile) (package : String) :
    Scope.ofFiles files package = Lowering.scopeOf (enumerationsOf files) package := by
  rw [Scope.ofFiles, Lowering.scopeOf, ofFiles_eq]

section

variable (proper : ∀ f ∈ files, f.IsProper)
  (distinct : ((declarations files).map TypeDeclaration.path).Nodup)

include proper distinct

/-- What finding types keeps, all steps keep if it is a property of types and names. -/
lemma Step.keeps {I : Catalog → Prop} (closed : Closed (structsOf files) (enumerationsOf files) I)
    (alike : ∀ c c', I c → Alike c c' → I c') {c c' : Catalog} (h : Step files c c')
    (hc : I c) : I c' := by
  cases h with
  | type package t ht =>
      rw [scope_ofFiles]
      exact Lowering.keeps_type closed (distinct_of_proper proper distinct) package t ht c hc
  | field id name t tag added => exact alike c c' hc (alike_addField added)
  | method id m added => exact alike c c' hc (alike_addMethod added)
  | function package f => exact alike c _ hc (alike_addFunction package f)
  | text id => exact alike c _ hc (alike_markStringer id)

/-- **The catalog fits all the time.** -/
theorem Reached.fits {c : Catalog} (h : Reached files c) :
    Fits (structsOf files) (enumerationsOf files) c := by
  induction h with
  | refl =>
      rw [ofFiles_eq]
      exact fits_declareAll _ _
  | tail _ step ih =>
      exact step.keeps proper distinct closed_fits (fun _ _ hc halike => hc.alike halike) ih

/-- **A number stands for one type for ever.** -/
theorem Passes.type? {c c' : Catalog} (h : Passes files c c')
    (hc : Fits (structsOf files) (enumerationsOf files) c) {id : TypeId} {t : TypeInfo}
    (ht : c.type? id = some t) : c'.type? id = some t := by
  have hkeeps : Fits (structsOf files) (enumerationsOf files) c' ∧ c'.type? id = some t := by
    induction h with
    | refl => exact ⟨hc, ht⟩
    | tail _ step ih =>
        refine step.keeps proper distinct (closed_type? id t) ?_ ih
        exact fun c c' hc halike => ⟨hc.1.alike halike, (halike.type? id).trans hc.2⟩
  exact hkeeps.2

end

end Loading

end FieldCopy
