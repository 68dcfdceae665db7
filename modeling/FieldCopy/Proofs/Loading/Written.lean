import Mathlib
import FieldCopy.Proofs.Composition
import FieldCopy.Proofs.Loading.Traversal
import FieldCopy.Proofs.Parsing.Names

/-!
# Parameters and the types that are written for them

A parameter keeps the name of its type as it is written and the number of the type.  Both come of
one type in the head of a function of a trait (`Source.Item.ends`): the text is its name, and the
number is what is found for it in the root module (`Parameter.IsOf`).

**What lasts.**  A catalog only grows after that, so what a computation gives is told by what holds
of it in all later catalogs (`Lowering.Lasts`).

**Main statement.**  `SourceUnit.isOf_ofParsed`: each parameter and result of a loaded method is
that of a type in the input file.
-/

namespace FieldCopy

open Source Catalog

/-- The types of the parameters of a function and of what it gives, failures apart. -/
def Source.Signature.ends (s : Signature) : List Ty :=
  s.parameters.map Source.Parameter.type
    ++ s.result.toList.map fun t => (t.outcome?.map Prod.fst).getD t

/-- The types in the heads of the functions of a trait. -/
def Source.Item.ends : Item → List Ty
  | .trait t => t.functions.flatMap fun f => f.signature.ends
  | _ => []

/-- The parameter is one of a type: it is written with the name of the type, and has the number that
is found for the type in the root module. -/
structure Parameter.IsOf (files : List ParsedFile) (c : Catalog) (p : Parameter) (t : Ty) :
    Prop where
  written : p.written = t.displayName
  number : (Loading.typeIn files "" t c).1 = p.type

/-- The parameters and results of methods are those of some types. -/
def Interface.AreOf (files : List ParsedFile) (c : Catalog) (ts : List Ty) (is : List Interface) :
    Prop :=
  ∀ i ∈ is, ∀ m ∈ i.methods, ∀ p ∈ m.parameters ++ m.result.toList, ∃ t ∈ ts, p.IsOf files c t

lemma Interface.AreOf.mono {files : List ParsedFile} {c : Catalog} {ts ts' : List Ty}
    {is : List Interface} (h : AreOf files c ts is) (hts : ts ⊆ ts') : AreOf files c ts' is :=
  fun i hi m hm p hp => (h i hi m hm p hp).imp fun _ ht => ⟨hts ht.1, ht.2⟩

namespace Lowering

variable {α β : Type}

/-- A computation adds to the catalog, and what it gives is as required in all later catalogs. -/
structure Lasts (c₀ : Catalog) (m : Lowering α) (P : Catalog → α → Prop) : Prop where
  adds : Adds m
  gives : ∀ c, GrowsTo c₀ c → ∀ later, GrowsTo (m c).2 later → P later (m c).1

namespace Lasts

variable {c₀ : Catalog} {P : Catalog → α → Prop} {Q : Catalog → β → Prop}

lemma pure {a : α} (h : ∀ c, P c a) : Lasts c₀ (Pure.pure a) P :=
  ⟨.pure a, fun _ _ later _ => h later⟩

/-- What was given before still holds of what is given then. -/
lemma bind {m : Lowering α} {f : α → Lowering β} (hm : Lasts c₀ m P)
    (hf : ∀ a, Lasts c₀ (f a) fun c b => P c a → Q c b) : Lasts c₀ (m >>= f) Q where
  adds := .bind hm.adds fun a => (hf a).adds
  gives c hc later hlater := by
    have hfirst := hc.trans (hm.adds c)
    exact (hf (m c).1).gives (m c).2 hfirst later hlater
      (hm.gives c hc later (((hf (m c).1).adds (m c).2).trans hlater))

lemma mono {m : Lowering α} {P' : Catalog → α → Prop} (h : Lasts c₀ m P)
    (hP : ∀ c a, P c a → P' c a) : Lasts c₀ m P' :=
  ⟨h.adds, fun c hc later hlater => hP _ _ (h.gives c hc later hlater)⟩

lemma mapM {f : α → Lowering β} : ∀ {l : List α}, (∀ a ∈ l, Lasts c₀ (f a) Q) →
    Lasts c₀ (l.mapM f) fun c bs => ∀ b ∈ bs, Q c b
  | [], _ => by
      rw [List.mapM_nil]
      exact .pure fun _ => List.forall_mem_nil _
  | a :: l, h => by
      rw [List.mapM_cons]
      refine .bind (h a List.mem_cons_self) fun b =>
        .bind (mapM fun d hd => h d (List.mem_cons_of_mem a hd)) fun bs => .pure ?_
      exact fun _ hbs hb => List.forall_mem_cons.2 ⟨hb, hbs⟩

end Lasts

end Lowering

namespace Interface

open Lowering

variable {files : List ParsedFile}

/-- What is found for a type is found for it later on. -/
lemma lasts_type (t : Ty) :
    Lasts (Declared.ofFiles files).catalog (type (.ofFiles files "") t)
      fun c id => (Loading.typeIn files "" t c).1 = id where
  adds := (Loading.calls_typeIn files "" t).adds
  gives c hc later hlater := by
    have hcalls := Loading.calls_typeIn files "" t
    have hknown := (hcalls.adds later).known _ _ (hlater.known _ _ (hcalls.number c hc))
    have hlater' := (hc.trans (hcalls.adds c)).trans hlater
    exact Option.some.inj ((hcalls.number later hlater').symm.trans hknown)

lemma lasts_parameter (p : Source.Parameter) (index : Nat) :
    Lasts (Declared.ofFiles files).catalog (parameter (.ofFiles files "") p index)
      fun c q => q.IsOf files c p.type :=
  .bind (lasts_type p.type) fun _ => .pure fun _ hid => ⟨rfl, hid⟩

lemma lasts_result (t : Ty) :
    Lasts (Declared.ofFiles files).catalog (result (.ofFiles files "") t)
      fun c q => q.IsOf files c t :=
  .bind (lasts_type t) fun _ => .pure fun _ hid => ⟨rfl, hid⟩

/-- **The parameters and the result of a method** are those of the types in its head. -/
lemma lasts_method (file : String) (f : TraitFunction) :
    Lasts (Declared.ofFiles files).catalog (method (.ofFiles files "") file f)
      fun c m => ∀ p ∈ m.parameters ++ m.result.toList,
        ∃ t ∈ f.signature.ends, p.IsOf files c t := by
  have hresult : ∀ t ∈ f.signature.result, (t.outcome?.map Prod.fst).getD t ∈ f.signature.ends :=
    fun t ht => List.mem_append_right _ (List.mem_map_of_mem (Option.mem_toList.2 ht))
  rw [method]
  refine .bind (P := fun c ps => ∀ p ∈ ps, ∃ t ∈ f.signature.ends, p.IsOf files c t) (.mapM ?_)
    fun parameters => ?_
  · rintro ⟨p, index⟩ hp
    have hmem : p.type ∈ f.signature.ends :=
      List.mem_append_left _ (List.mem_map_of_mem (List.fst_mem_of_mem_zipIdx hp))
    exact (lasts_parameter p index).mono fun _ _ hq => ⟨_, hmem, hq⟩
  · split
    · exact .pure fun _ hps => by simpa using hps
    · rename_i t ht
      have hmem := hresult t ht
      split
      · rename_i value failure ho
        rw [ho] at hmem
        refine .bind (lasts_result value) fun r => .pure fun _ hr hps => ?_
        exact List.forall_mem_append.2 ⟨hps, List.forall_mem_singleton.2 ⟨_, hmem, hr⟩⟩
      · rename_i ho
        rw [ho] at hmem
        refine .bind (lasts_result t) fun r => .pure fun _ hr hps => ?_
        exact List.forall_mem_append.2 ⟨hps, List.forall_mem_singleton.2 ⟨_, hmem, hr⟩⟩

lemma lasts_ofTrait? (file name : String) (t : Trait) :
    Lasts (Declared.ofFiles files).catalog (ofTrait? (.ofFiles files "") file name t)
      fun c found => AreOf files c (Item.ends (.trait t)) found.toList := by
  rw [ofTrait?]
  split
  · have hmethods : Lasts (Declared.ofFiles files).catalog
        (t.functions.mapM (method (.ofFiles files "") file)) fun c methods =>
          ∀ m ∈ methods, ∀ p ∈ m.parameters ++ m.result.toList,
            ∃ e ∈ Item.ends (.trait t), p.IsOf files c e :=
      .mapM fun f hf => (lasts_method file f).mono fun c m hm p hp =>
        (hm p hp).imp fun e he => ⟨List.mem_flatMap.2 ⟨f, hf, he.1⟩, he.2⟩
    exact .bind hmethods fun _ => .pure fun _ hm => List.forall_mem_singleton.2 hm
  · exact .pure fun _ => List.forall_mem_nil _

/-- **Reading traits** gives methods with parameters and results of the types in them. -/
lemma lasts_ofItems (file name : String) : ∀ is : List Item,
    Lasts (Declared.ofFiles files).catalog (ofItems (.ofFiles files "") file name is)
      fun c traits => AreOf files c (is.flatMap Item.ends) traits
  | [] => .pure fun _ => List.forall_mem_nil _
  | .trait t :: rest => by
      rw [ofItems]
      refine .bind (lasts_ofTrait? file name t) fun first =>
        .bind (lasts_ofItems file name rest) fun traits => .pure fun _ htraits hfirst => ?_
      exact List.forall_mem_append.2
        ⟨hfirst.mono (List.subset_append_left _ _), htraits.mono (List.subset_append_right _ _)⟩
  | .record _ _ :: rest | .enumeration _ :: rest | .function _ :: rest
  | .implementation _ :: rest | .module _ _ :: rest | .use _ :: rest
  | .other :: rest => lasts_ofItems file name rest

end Interface

namespace SourceUnit

/-- **The parameters and results of loaded methods** are those of types in the input file. -/
theorem isOf_ofParsed (file interfaceName : String) (input : ParsedFile)
    (includes : List ParsedFile) :
    Interface.AreOf (input :: includes) (ofParsed file interfaceName input includes).catalog
      (input.items.flatMap Item.ends) (ofParsed file interfaceName input includes).interfaces := by
  have hadds : Lowering.Keeps (GrowsTo (Declared.ofFiles (input :: includes)).catalog)
      ((input :: includes).forM fun f =>
        Lowering.items (.ofFiles (input :: includes) f.package) f.items) :=
    (Lowering.tolerant_growsTo _).keeps_files (fun _ _ hc same => hc.trans (.alike same))
      fun f _ => all_of_forall_items (fun _ => trivial) f.items
  rw [catalog_ofParsed]
  exact (Interface.lasts_ofItems file interfaceName input.items).gives _
    (hadds _ (.refl _)) _ (.refl _)

end SourceUnit

end FieldCopy
