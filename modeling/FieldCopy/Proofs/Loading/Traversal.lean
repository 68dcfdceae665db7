import Mathlib
import FieldCopy.Loading
import FieldCopy.Proofs.Conflation
import FieldCopy.Proofs.Loading.Building
import FieldCopy.Proofs.Loading.CanonicalNames
import FieldCopy.Proofs.Parsing.Names

/-!
# What loading keeps

Loading goes over items and does five things to the catalog: it finds types, and it adds fields,
methods, functions and texts.  What the other four keep is kept by everything but the fields of
structures (`Lowering.Tolerant`), and what is kept by fields as well is kept by a whole run.

**The types in files** may be known to be as required (`Source.Item.All`).  Then only finding such
types has to keep the property.

**Main statement.**  `SourceUnit.keeps_ofTypes`: a property that finding types keeps, and that does
not depend on what else is known of structures and functions, holds of the catalog of a source unit
if it holds of the catalog in which everything is declared.
-/

namespace FieldCopy

open Source Catalog

/-- A computation has a result with a property if a test of the result says so. -/
lemma exists_ok_of_any {ε α : Type} {x : Except ε α} {p : α → Prop} [DecidablePred p]
    (h : x.toOption.any (fun a => p a) = true) : ∃ a, x = .ok a ∧ p a := by
  cases x with
  | error e => exact absurd h (by simp [Except.toOption])
  | ok a => exact ⟨a, rfl, of_decide_eq_true h⟩

/-- The items of a text are those that its characters spell.  A literal is a text of characters by
definition; taking it apart again by evaluation would take longer than parsing it. -/
lemma Source.parseItems?_ofList (text : List Char) :
    parseItems? (String.ofList text) = (do
      let ts ← Token.scan? (withoutShellLine text)
      let g := Grammar.forTokens ts
      Parser.all (do let _ ← Grammar.innerAttributes g; Parser.untilEnd g.item) ts) := by
  rw [parseItems?, String.toList_ofList]

/-- Without other files, what is parsed is all that is loaded. -/
lemma SourceUnit.load_alone (f : SourceFile) (interfaceName : String) :
    load (some f) [] interfaceName
      = (ofParsed f.name interfaceName · []) <$> f.parse := by
  rw [load]
  cases f.parse <;> rfl

namespace Source

mutual

/-- What is required of types and known of all is known of the types in an item. -/
lemma Item.all_of_forall {Q : Ty → Prop} (h : ∀ t, Q t) : ∀ i : Item, i.All Q
  | .record n _ => .record n fun f _ => h f.type
  | .enumeration n => .enumeration n
  | .module n items => .module n (all_of_forall_items h items)
  | .function _ => .function ⟨fun p _ => h p.type, fun t _ => h t⟩
  | .implementation _ => .implementation (h _) fun _ _ => ⟨fun p _ => h p.type, fun t _ => h t⟩
  | .trait _ => .trait fun _ _ => ⟨fun p _ => h p.type, fun t _ => h t⟩
  | .use u => .use u
  | .other => .other

lemma all_of_forall_items {Q : Ty → Prop} (h : ∀ t, Q t) :
    ∀ is : List Item, ∀ i ∈ is, i.All Q
  | [] => List.forall_mem_nil _
  | i :: rest => List.forall_mem_cons.2 ⟨Item.all_of_forall h i, all_of_forall_items h rest⟩

end

end Source

namespace Lowering

/-- A property of catalogs that finding types as required in the modules of some files keeps, and so
does adding methods, functions and texts.  If a value or a failure is as required, so is the
value. -/
structure Tolerant (files : List ParsedFile) (Q : Ty → Prop) (I : Catalog → Prop) : Prop where
  outcome : ∀ t value failure, Q t → t.outcome? = some (value, failure) → Q value
  type : ∀ package t, Q t → Keeps I (type (.ofFiles files package) t)
  method : ∀ c c' id m, I c → c.addMethod id m = .ok c' → I c'
  function : ∀ c package f, I c → I (c.addFunction package f)
  text : ∀ c id, I c → I (c.markStringer id)

/-- A property that finding types keeps and that is one of types and names. -/
lemma tolerant_of_alike {files : List ParsedFile} {Q : Ty → Prop} {I : Catalog → Prop}
    (outcome : ∀ t value failure, Q t → t.outcome? = some (value, failure) → Q value)
    (type : ∀ package t, Q t → Keeps I (Lowering.type (.ofFiles files package) t))
    (alike : ∀ c c', I c → Alike c c' → I c') : Tolerant files Q I where
  outcome := outcome
  type := type
  method c c' _ _ hc added := alike c c' hc (alike_addMethod added)
  function c package f hc := alike c _ hc (alike_addFunction package f)
  text c id hc := alike c _ hc (alike_markStringer id)

lemma keeps_change {I : Catalog → Prop} {f : Catalog → Except Dangling Catalog}
    (h : ∀ c c', I c → f c = .ok c' → I c') : Keeps I (change f) := by
  intro c hc
  change I ((f c).toOption.getD c)
  cases hf : f c with
  | error _ => exact hc
  | ok c' => exact h c c' hc hf

namespace Tolerant

variable {files : List ParsedFile} {Q : Ty → Prop} {I : Catalog → Prop} (h : Tolerant files Q I)

include h

/-! ## Functions -/

lemma keeps_signature (package : String) {s : Signature} (hs : s.All Q) :
    Keeps I (signature (.ofFiles files package) s) := by
  rw [signature]
  refine .bind (.mapM fun p hp => h.type package p.type (hs.parameters p hp)) fun parameters => ?_
  split
  · exact .pure _
  · rename_i t ht
    have hresult := hs.result t ht
    split
    · rename_i value failure ho
      exact .bind (h.type package _ (h.outcome t value failure hresult ho)) fun _ => .pure _
    · exact .bind (h.type package _ hresult) fun _ => .pure _

lemma keeps_method (package : String) (id : StructId) {s : Signature} (hs : s.All Q) :
    Keeps I (Lowering.method (.ofFiles files package) id s) := by
  rw [Lowering.method]
  split
  · exact .bind (h.keeps_signature package hs) fun _ =>
      keeps_change fun c c' hc added => h.method c c' _ _ hc added
  · exact .pure _

lemma keeps_function (package : String) {s : Signature} (hs : s.All Q) :
    Keeps I (Lowering.function (.ofFiles files package) s) :=
  .bind (h.keeps_signature package hs) fun _ c hc => h.function c _ _ hc

/-- **Adding what is implemented keeps a tolerant property.** -/
lemma keeps_implementation (package : String) {i : Implementation} (subject : Q i.subject)
    (functions : ∀ s ∈ i.functions, s.All Q) :
    Keeps I (implementation (.ofFiles files package) i) := by
  rw [implementation]
  split
  · split
    · exact .bind (h.type package _ subject) fun _ c hc => h.text c _ hc
    · exact .pure _
  · split
    case h_1 | h_2 =>
      refine .bind .get fun c => ?_
      split
      · exact .forM fun s hs => h.keeps_method package _ (functions s hs)
      · exact .pure _
    · exact .pure _

/-! ## Traits -/

lemma keeps_trait (file : String) {f : TraitFunction} (hf : f.signature.All Q) :
    Keeps I (Interface.method (.ofFiles files "") file f) := by
  rw [Interface.method]
  refine .bind (.mapM ?_) fun parameters => ?_
  · rintro ⟨p, index⟩ hp
    exact .bind (h.type "" _ (hf.parameters p (List.fst_mem_of_mem_zipIdx hp))) fun _ => .pure _
  · split
    · exact .pure _
    · rename_i t ht
      have hresult := hf.result t ht
      split
      · rename_i value failure ho
        exact .bind (.bind (h.type "" _ (h.outcome t value failure hresult ho)) fun _ => .pure _)
          fun _ => .pure _
      · exact .bind (.bind (h.type "" _ hresult) fun _ => .pure _) fun _ => .pure _

/-- **Reading traits keeps a tolerant property.** -/
lemma keeps_ofItems (file name : String) : ∀ is : List Item, (∀ i ∈ is, i.All Q) →
    Keeps I (Interface.ofItems (.ofFiles files "") file name is)
  | [], _ => .pure _
  | .trait t :: rest, his => by
      obtain ⟨htrait, hrest⟩ := List.forall_mem_cons.1 his
      obtain ⟨⟩ | ⟨⟩ | ⟨⟩ | ⟨⟩ | ⟨⟩ | hfunctions := htrait
      rw [Interface.ofItems]
      refine .bind ?_ fun _ => .bind (keeps_ofItems file name rest hrest) fun _ => .pure _
      rw [Interface.ofTrait?]
      split
      · exact .bind (.mapM fun f hf => h.keeps_trait file (hfunctions f hf)) fun _ => .pure _
      · exact .pure _
  | .record _ _ :: rest, his | .enumeration _ :: rest, his | .function _ :: rest, his
  | .implementation _ :: rest, his | .module _ _ :: rest, his | .use _ :: rest, his
  | .other :: rest, his =>
      keeps_ofItems file name rest (List.forall_mem_cons.1 his).2

end Tolerant

/-! ## Items -/

section

variable {files : List ParsedFile} {Q : Ty → Prop} {I : Catalog → Prop}

mutual

lemma keeps_item (h : Tolerant files Q I)
    (field : ∀ c c' id name t tag, I c → c.addField id name t tag = .ok c' → I c')
    (package : String) : ∀ {i : Item}, i.All Q → Keeps I (item (.ofFiles files package) i)
  | _, .record name hfields => by
      rw [item]
      refine .bind .get fun c => ?_
      split
      · exact .forM fun f hf => .bind (h.type package f.type (hfields f hf)) fun _ =>
          keeps_change fun c c' hc added => field c c' _ _ _ _ hc added
      · exact .pure _
  | _, .implementation subject functions => by
      rw [item]
      exact h.keeps_implementation package subject functions
  | _, .function hs => by
      rw [item]
      exact h.keeps_function package hs
  | _, .module name hitems => by
      rw [item]
      exact keeps_items h field (ModulePath.inside package name) hitems
  | _, .enumeration _ => by rw [item]; exact .pure _
  | _, .trait _ => by rw [item]; exact .pure _
  | _, .use _ => by rw [item]; exact .pure _
  | _, .other => by rw [item]; exact .pure _

/-- **Adding what items define keeps a tolerant property that fields do not disturb.** -/
lemma keeps_items (h : Tolerant files Q I)
    (field : ∀ c c' id name t tag, I c → c.addField id name t tag = .ok c' → I c')
    (package : String) : ∀ {is : List Item}, (∀ i ∈ is, i.All Q) →
      Keeps I (items (.ofFiles files package) is)
  | [], _ => by rw [items]; exact .pure _
  | i :: rest, his => by
      rw [items]
      exact .bind (keeps_item h field package (his i List.mem_cons_self)) fun _ =>
        keeps_items h field package fun i hi => his i (List.mem_cons_of_mem _ hi)

end

/-- Adding what files define keeps a tolerant property of types and names. -/
lemma Tolerant.keeps_files (h : Tolerant files Q I) (alike : ∀ c c', I c → Alike c c' → I c')
    {fs : List ParsedFile} (types : ∀ f ∈ fs, ∀ i ∈ f.items, i.All Q) :
    Keeps I (fs.forM fun f => items (.ofFiles files f.package) f.items) :=
  .forM fun f hf => keeps_items h
    (fun c c' _ _ _ _ hc added => alike c c' hc (alike_addField added)) f.package (types f hf)

end

/-- That a catalog grew out of the declared one is a tolerant property. -/
lemma tolerant_growsTo (files : List ParsedFile) :
    Tolerant files (fun _ => True) (GrowsTo (Declared.ofFiles files).catalog) :=
  tolerant_of_alike (fun _ _ _ _ _ => trivial) (fun _ t _ c hc => hc.trans (adds_type _ t c))
    fun _ _ hc same => hc.trans (.alike same)

end Lowering

/-- When everything is declared, there are no pointers yet. -/
lemma Loading.pointersNamed_ofFiles (files : List ParsedFile) :
    (Declared.ofFiles files).catalog.PointersNamed := by
  rintro a b ⟨t, ht, -⟩
  rw [ofFiles_eq, type?, declareAll_eq] at ht
  exact absurd ht (by simp [Catalog.empty])

namespace SourceUnit

/-- **What finding types keeps, loading keeps,** if it is a property of types and names.  Only types
as required need to be found if there are no others in the files. -/
theorem keeps_ofTypes {Q : Ty → Prop} {I : Catalog → Prop} (file interfaceName : String)
    (input : ParsedFile) (includes : List ParsedFile)
    (outcome : ∀ t value failure, Q t → t.outcome? = some (value, failure) → Q value)
    (types : ∀ f ∈ input :: includes, ∀ i ∈ f.items, i.All Q)
    (type : ∀ package t, Q t →
      Lowering.Keeps I (Lowering.type (.ofFiles (input :: includes) package) t))
    (alike : ∀ c c', I c → Alike c c' → I c')
    (declared : I (Declared.ofFiles (input :: includes)).catalog) :
    I (ofParsed file interfaceName input includes).catalog := by
  have htolerant := Lowering.tolerant_of_alike outcome type alike
  rw [catalog_ofParsed]
  refine Lowering.Keeps.bind (htolerant.keeps_files alike types) (fun _ => ?_) _ declared
  exact htolerant.keeps_ofItems file interfaceName input.items (types input List.mem_cons_self)

/-- What finding any type keeps, loading keeps. -/
lemma keeps_ofParsed {I : Catalog → Prop} (file interfaceName : String) (input : ParsedFile)
    (includes : List ParsedFile)
    (type : ∀ package t, Lowering.Keeps I (Lowering.type (.ofFiles (input :: includes) package) t))
    (alike : ∀ c c', I c → Alike c c' → I c')
    (declared : I (Declared.ofFiles (input :: includes)).catalog) :
    I (ofParsed file interfaceName input includes).catalog :=
  keeps_ofTypes (Q := fun _ => True) file interfaceName input includes (fun _ _ _ _ _ => trivial)
    (fun f _ => all_of_forall_items (fun _ => trivial) f.items) (fun package t _ => type package t)
    alike declared

/-- The pointers in the catalog of a source unit are named after what they point to. -/
lemma pointersNamed_ofParsed (file interfaceName : String) (input : ParsedFile)
    (includes : List ParsedFile) :
    (ofParsed file interfaceName input includes).catalog.PointersNamed := by
  -- The names of types are told apart only in what grows out of the declared names.
  have hkept : GrowsTo (Declared.ofFiles (input :: includes)).catalog
        (ofParsed file interfaceName input includes).catalog
      ∧ (ofParsed file interfaceName input includes).catalog.PointersNamed := by
    refine keeps_ofParsed (I := fun c =>
      GrowsTo (Declared.ofFiles (input :: includes)).catalog c ∧ c.PointersNamed) file
      interfaceName input includes (fun package t c hc => ?_) (fun c c' hc same => ?_)
      ⟨.refl _, Loading.pointersNamed_ofFiles _⟩
    · have hcalls := Lowering.calls_type (Loading.wellNamed_ofFiles (input :: includes))
        (.ofFiles (input :: includes) package) t
      exact ⟨hc.1.trans (hcalls.adds c), hcalls.pointers c hc.1 hc.2⟩
    · exact ⟨hc.1.trans (.alike same), hc.2.alike same⟩
  exact hkept.2

end SourceUnit

end FieldCopy
