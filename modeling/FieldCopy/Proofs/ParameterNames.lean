import Mathlib
import FieldCopy.Proofs.GroundedGeneration
import FieldCopy.Proofs.Loading.Fields

/-!
# The names of parameters

A parameter has the name of its pattern, if that is a name, and is named after its index otherwise.
Receivers are looked up and left out by name.

**Names of methods.**  The names of a method's parameters depend on the head of the function alone
(`Source.Signature.names`), not on the catalog in which its types are looked up.

**Clashes.**  Two invented names are never the same, so names of patterns that are distinct stay
distinct unless one of them is the name that is invented for another parameter
(`Source.Signature.nodup_names_iff`).

**Main statement.**  `SourceUnit.names_apart_iff`: each method has these names, which are distinct
exactly if there is no clash, and exactly then the parameters of its function are those of the
method but for a receiver.  `SourceUnit.exists_clash` is a receiver with the name that is invented
for the source.
-/

namespace FieldCopy

open Source

/-! ## Names in the heads of functions -/

namespace Source.Signature

/-- The name that is invented for a parameter. -/
def inventedName (index : ℕ) : String := s!"arg{index}"

lemma inventedName_injective {i j : ℕ} (h : inventedName i = inventedName j) : i = j := by
  simp only [inventedName, toString] at h
  exact Nat.repr_injective ((String.append_right_inj "arg").1 h)

variable (s : Signature)

/-- The names of the patterns that are names. -/
def ownNames : List String := s.parameters.filterMap Source.Parameter.name

/-- The names of the parameters, where patterns that are none have one invented. -/
def names : List String :=
  s.parameters.zipIdx.map fun p => p.1.name.getD (inventedName p.2)

/-- A pattern has the name that is invented for another parameter. -/
def Clashes : Prop :=
  ∃ i j : ℕ, (∃ p ∈ s.parameters[i]?, p.name = none)
    ∧ ∃ q ∈ s.parameters[j]?, q.name = some (inventedName i)

variable {s}

lemma getElem?_names (i : ℕ) :
    s.names[i]? = s.parameters[i]?.map fun p => p.name.getD (inventedName i) := by
  rw [names, List.getElem?_map, List.getElem?_zipIdx, Option.map_map, Nat.zero_add]
  rfl

/-- A pattern that is a name gives the parameter this name. -/
lemma getElem?_names_own {i : ℕ} {n : String}
    (h : s.parameters[i]?.bind Source.Parameter.name = some n) : s.names[i]? = some n := by
  obtain ⟨p, hp, hn⟩ := Option.bind_eq_some_iff.1 h
  rw [getElem?_names, hp, Option.map_some, hn, Option.getD_some]

/-- Patterns with the same name are the same. -/
lemma eq_of_own (distinct : s.ownNames.Nodup) {i j : ℕ} {p q : Source.Parameter} {n : String}
    (hp : s.parameters[i]? = some p) (hq : s.parameters[j]? = some q) (hpn : p.name = some n)
    (hqn : q.name = some n) : i = j := by
  have hpairwise := List.pairwise_iff_getElem.1 (List.pairwise_filterMap.1 distinct)
  obtain ⟨hi, rfl⟩ := List.getElem?_eq_some_iff.1 hp
  obtain ⟨hj, rfl⟩ := List.getElem?_eq_some_iff.1 hq
  rcases lt_trichotomy i j with hlt | heq | hlt
  · exact absurd rfl (hpairwise i j hi hj hlt n hpn n hqn)
  · exact heq
  · exact absurd rfl (hpairwise j i hj hi hlt n hqn n hpn)

/-- **Distinct names of patterns stay distinct exactly if there is no clash.** -/
lemma nodup_names_iff (distinct : s.ownNames.Nodup) : s.names.Nodup ↔ ¬ s.Clashes := by
  constructor
  · rintro hnodup ⟨i, j, ⟨p, hp, hpn⟩, q, hq, hqn⟩
    have hi : s.names[i]? = some (inventedName i) := by
      rw [getElem?_names, hp, Option.map_some, hpn, Option.getD_none]
    have hj : s.names[j]? = some (inventedName i) := by
      rw [getElem?_names, hq, Option.map_some, hqn, Option.getD_some]
    obtain rfl : i = j := (List.getElem?_inj (List.getElem?_eq_some_iff.1 hi).1 hnodup).1
      (hi.trans hj.symm)
    obtain rfl := Option.some.inj (hp.symm.trans hq)
    exact absurd (hpn.symm.trans hqn) (by simp)
  · intro hfree
    have hclash : ∀ {i j : ℕ} {p q : Source.Parameter}, s.parameters[i]? = some p →
        s.parameters[j]? = some q → p.name = none → q.name ≠ some (inventedName i) :=
      fun hp hq hpn hqn => hfree ⟨_, _, ⟨_, hp, hpn⟩, _, hq, hqn⟩
    refine List.nodup_iff_getElem?_ne_getElem?.2 fun i j hij hj heq => ?_
    have hlength : j < s.parameters.length := by simpa [names] using hj
    have hp := List.getElem?_eq_getElem (hij.trans hlength)
    have hq := List.getElem?_eq_getElem hlength
    rw [getElem?_names, getElem?_names, hp, hq, Option.map_some, Option.map_some,
      Option.some.injEq] at heq
    cases hpn : s.parameters[i].name with
    | none =>
        cases hqn : s.parameters[j].name with
        | none =>
            rw [hpn, hqn] at heq
            exact absurd (inventedName_injective heq) hij.ne
        | some n =>
            rw [hpn, hqn] at heq
            exact hclash hp hq hpn (hqn.trans (congrArg some heq.symm))
    | some n =>
        cases hqn : s.parameters[j].name with
        | none =>
            rw [hpn, hqn] at heq
            exact hclash hq hp hqn (hpn.trans (congrArg some heq))
        | some n' =>
            rw [hpn, hqn] at heq
            exact absurd (eq_of_own distinct hp hq hpn (hqn.trans (congrArg some heq.symm))) hij.ne

end Source.Signature

/-! ## Parameters that are left out -/

namespace Conversion

/-- The parameters of a function have different names, and they are those of the method but for the
receiver. -/
structure TellsApart (v : Conversion) : Prop where
  distinct : (v.parameters.map Prod.fst).Nodup
  receiver : ∀ r, v.endpoints.receiver = some r → ∃ front back,
    v.declaration.parameters = front ++ r :: back
      ∧ v.parameters = (front ++ back).map fun p => (p.name, p.written)

variable {v : Conversion}

lemma parameters_eq_of_none (h : v.endpoints.receiver = none) :
    v.parameters = v.declaration.parameters.map fun p => (p.name, p.written) := by
  simp [parameters, h]

lemma parameters_eq_of_some {r : Parameter} (h : v.endpoints.receiver = some r) :
    v.parameters = (v.declaration.parameters.filter fun p => r.name != p.name).map
      fun p => (p.name, p.written) := by
  simp [parameters, h, bne]

lemma names_map (ps : List Parameter) :
    (ps.map fun p => (p.name, p.written)).map Prod.fst = ps.map Parameter.name := by
  rw [List.map_map]
  rfl

lemma nodup_split_iff {front back : List Parameter} {r : Parameter} :
    ((front ++ r :: back).map Parameter.name).Nodup
      ↔ r.name ∉ (front ++ back).map Parameter.name
        ∧ ((front ++ back).map Parameter.name).Nodup :=
  (List.perm_middle.map Parameter.name).nodup_iff.trans List.nodup_cons

/-- Where names are different, the receiver alone is left out. -/
lemma tellsApart_of_nodup (chosen : v.endpoints.Chosen v.declaration v.instructions)
    (distinct : (v.declaration.parameters.map Parameter.name).Nodup) : v.TellsApart := by
  cases hr : v.endpoints.receiver with
  | none =>
      refine ⟨?_, fun r hsome => absurd (hr.symm.trans hsome) (by simp)⟩
      rwa [parameters_eq_of_none hr, names_map]
  | some r =>
      obtain ⟨front, back, hsplit⟩ := List.append_of_mem (chosen.receiver r hr)
      rw [hsplit, nodup_split_iff] at distinct
      obtain ⟨hapart, hrest⟩ := distinct
      have hkept : ∀ p ∈ front ++ back, (r.name != p.name) = true := fun p hp =>
        bne_iff_ne.2 fun heq => hapart (heq ▸ List.mem_map_of_mem hp)
      have hparameters : v.parameters = (front ++ back).map fun p => (p.name, p.written) := by
        rw [parameters_eq_of_some hr, hsplit, List.filter_append,
          List.filter_cons_of_neg (by simp), ← List.filter_append, List.filter_eq_self.2 hkept]
      refine ⟨by rwa [hparameters, names_map], fun r' hr' => ?_⟩
      obtain rfl : r = r' := Option.some.inj (hr.symm.trans hr')
      exact ⟨front, back, hsplit, hparameters⟩

/-- What is left out has another name than what is not. -/
lemma TellsApart.nodup (h : v.TellsApart) :
    (v.declaration.parameters.map Parameter.name).Nodup := by
  have hdistinct := h.distinct
  cases hr : v.endpoints.receiver with
  | none => rwa [parameters_eq_of_none hr, names_map] at hdistinct
  | some r =>
      obtain ⟨front, back, hsplit, hparameters⟩ := h.receiver r hr
      have hapart : r.name ∉ (front ++ back).map Parameter.name := by
        rw [← names_map, ← hparameters, parameters_eq_of_some hr, names_map, List.mem_map]
        rintro ⟨p, hp, hname⟩
        exact absurd (List.mem_filter.1 hp).2 (by simp [hname])
      rw [hparameters, names_map] at hdistinct
      rw [hsplit, nodup_split_iff]
      exact ⟨hapart, hdistinct⟩

end Conversion

/-! ## Names of loaded methods -/

namespace Lowering

variable {α β : Type}

/-- What a computation gives is as required, whatever the catalog. -/
def Yields (m : Lowering α) (P : α → Prop) : Prop := ∀ c, P (m c).1

namespace Yields

variable {m : Lowering α} {P : α → Prop} {Q : β → Prop}

lemma pure {a : α} (h : P a) : Yields (Pure.pure a) P := fun _ => h

lemma bind {f : α → Lowering β} (hm : Yields m P) (hf : ∀ a, P a → Yields (f a) Q) :
    Yields (m >>= f) Q := fun c => hf _ (hm c) _

lemma after {f : α → Lowering β} (hf : ∀ a, Yields (f a) Q) : Yields (m >>= f) Q := fun _ =>
  hf _ _

lemma mapM {R : α → β → Prop} {f : α → Lowering β} (hf : ∀ a, Yields (f a) (R a)) (l : List α) :
    Yields (l.mapM f) (List.Forall₂ R l) := by
  induction l with
  | nil =>
      rw [List.mapM_nil]
      exact .pure .nil
  | cons a l ih =>
      rw [List.mapM_cons]
      exact .bind (hf a) fun _ hb => .bind ih fun _ hbs => .pure (.cons hb hbs)

end Yields

end Lowering

namespace Interface

open Lowering

variable (scope : Scope)

/-- A method has the name of its function, and its parameters have the names in the head. -/
structure NamedAs (f : TraitFunction) (m : Declaration) : Prop where
  name : m.name = f.signature.name
  parameters : m.parameters.map Parameter.name = f.signature.names

lemma yields_method (file : String) (f : TraitFunction) :
    Yields (method scope file f) (NamedAs f) := by
  have hparameter : ∀ p : Source.Parameter × ℕ, Yields (parameter scope p.1 p.2)
      fun q => p.1.name.getD (Signature.inventedName p.2) = q.name := fun _ =>
    .after fun _ => .pure rfl
  rw [method]
  refine .bind (P := fun ps => ps.map Parameter.name = f.signature.names) (fun c => ?_)
    fun ps hps => ?_
  · have hsame := Yields.mapM hparameter f.signature.parameters.zipIdx c
    rw [← List.forall₂_map_right_iff, ← List.forall₂_map_left_iff, List.forall₂_eq_eq_eq] at hsame
    exact hsame.symm
  split
  · exact .pure ⟨rfl, hps⟩
  · split
    · exact .after fun _ => .pure ⟨rfl, hps⟩
    · exact .after fun _ => .pure ⟨rfl, hps⟩

end Interface

/-- The functions of a trait whose methods are conversions. -/
def Source.Item.conversions (file name : String) : Item → List TraitFunction
  | .trait t =>
      if t.name == name || (Documentation.ofAttributes file t.attributes).isMarked then t.functions
      else []
  | _ => []

namespace Interface

open Lowering

variable (scope : Scope)

lemma yields_ofTrait? (file name : String) (t : Trait) :
    Yields (ofTrait? scope file name t) fun found =>
      List.Forall₂ NamedAs (Item.conversions file name (.trait t))
        (found.toList.flatMap Interface.methods) := by
  rw [ofTrait?, Item.conversions]
  split
  · refine .bind (.mapM (yields_method scope file) t.functions) fun ms hms => .pure ?_
    rwa [Option.toList_some, List.flatMap_singleton]
  · exact .pure .nil

lemma yields_ofItems (file name : String) : ∀ is : List Item,
    Yields (ofItems scope file name is) fun traits =>
      List.Forall₂ NamedAs (is.flatMap (Item.conversions file name))
        (traits.flatMap Interface.methods)
  | [] => .pure .nil
  | .trait t :: rest => by
      rw [ofItems]
      refine .bind (yields_ofTrait? scope file name t) fun first hfirst =>
        .bind (yields_ofItems file name rest) fun traits htraits => .pure ?_
      rw [List.flatMap_cons, List.flatMap_append]
      exact List.rel_append hfirst htraits
  | .record _ _ :: rest | .enumeration _ :: rest | .function _ :: rest
  | .implementation _ :: rest | .module _ _ :: rest | .use _ :: rest
  | .other :: rest => yields_ofItems file name rest

end Interface

namespace SourceUnit

/-- What is known of the names of a method in a unit. -/
structure NamesAs (unit : SourceUnit) (f : TraitFunction) (m : Declaration) : Prop where
  name : m.name = f.signature.name
  parameters : m.parameters.map Parameter.name = f.signature.names
  kept : ∀ (i : ℕ) (n : String), f.signature.parameters[i]?.bind Source.Parameter.name = some n →
    m.parameters[i]?.map Parameter.name = some n
  distinct : f.signature.ownNames.Nodup →
    ((m.parameters.map Parameter.name).Nodup ↔ ¬ f.signature.Clashes)
  apart : f.signature.ownNames.Nodup → ∀ v ∈ unit.conversions, v.declaration = m →
    (v.TellsApart ↔ ¬ f.signature.Clashes)

/-- A method that has the names in the head has them apart exactly if there is no clash. -/
lemma namesAs_of_namedAs {unit : SourceUnit} {f : TraitFunction} {m : Declaration}
    (h : Interface.NamedAs f m) : NamesAs unit f m where
  name := h.name
  parameters := h.parameters
  kept i n hn := by
    rw [← List.getElem?_map, h.parameters]
    exact Signature.getElem?_names_own hn
  distinct hown := by
    rw [h.parameters]
    exact Signature.nodup_names_iff hown
  apart hown v hv := by
    rintro rfl
    rw [← Signature.nodup_names_iff hown, ← h.parameters]
    exact ⟨Conversion.TellsApart.nodup, Conversion.tellsApart_of_nodup (chosen_of_mem hv)⟩

/-- The methods of a unit have the names that stand in their traits. -/
lemma namedAs_ofParsed (file interfaceName : String) (input : ParsedFile)
    (includes : List ParsedFile) :
    List.Forall₂ Interface.NamedAs (input.items.flatMap (Item.conversions file interfaceName))
      ((ofParsed file interfaceName input includes).interfaces.flatMap Interface.methods) := by
  have hcollect : (collect file interfaceName input includes).Yields fun traits =>
      List.Forall₂ Interface.NamedAs (input.items.flatMap (Item.conversions file interfaceName))
        (traits.flatMap Interface.methods) :=
    .after fun _ => Interface.yields_ofItems _ file interfaceName input.items
  exact hcollect (Declared.ofFiles (input :: includes)).catalog

/-- **When the parameters of methods can be told apart by name.**  The methods of a unit are the
functions of the traits for conversions, and a parameter whose pattern is a name has this name.  If
the patterns that are names are different, the parameters have different names exactly if no pattern
has the name that is invented for another.  Exactly then the function for the method has different
parameters, and a receiver is the one parameter that is left out. -/
theorem names_apart_iff {input : SourceFile} {includes : List SourceFile} {first : ParsedFile}
    {rest : List ParsedFile}
    (parsed : (input :: includes).mapM SourceFile.parse = .ok (first :: rest))
    (interfaceName : String) :
    ∃ unit, load (some input) includes interfaceName = .ok unit
      ∧ List.Forall₂ (NamesAs unit)
          (first.items.flatMap (Item.conversions input.name interfaceName))
          (unit.interfaces.flatMap Interface.methods) := by
  obtain ⟨_, _, hfiles, hload⟩ := exists_load_of_parsed parsed interfaceName
  obtain ⟨rfl, rfl⟩ := List.cons.inj hfiles
  have hnamed := namedAs_ofParsed input.name interfaceName first rest
  exact ⟨_, hload, hnamed.imp fun _ _ => namesAs_of_namedAs⟩

/-- A file with two methods whose parameters have a pattern that is no name. -/
def clashingFile : SourceFile :=
  ⟨"clashing.rs", "",
    "struct Pet\x7bage:u8\x7d
struct Card\x7bage:u8\x7d
trait Copy\x7b///:recv pet
fn card(pet:&Pet,_:&Card)->Card;
///:style arg
///:recv arg1
fn fill(arg1:&mut Card,_:&Pet);\x7d"⟩

/-- The functions of the traits for conversions in the file. -/
def clashingFunctions (first : ParsedFile) : List TraitFunction :=
  first.items.flatMap (Item.conversions clashingFile.name "Copy")

/-- A method in the file has these names, and its function has the parameters that are not left
out. -/
def HasNames (unit : SourceUnit) (name : String) (all kept : List String) : Prop :=
  ∃ v ∈ unit.conversions, v.declaration.name = name
    ∧ v.declaration.parameters.map Parameter.name = all
    ∧ v.endpoints.receiver.isSome ∧ v.parameters.map Prod.fst = kept

instance (unit : SourceUnit) (name : String) (all kept : List String) :
    Decidable (HasNames unit name all kept) :=
  inferInstanceAs (Decidable (∃ v ∈ unit.conversions, _))

set_option maxRecDepth 4000 in
/-- What the file is parsed and loaded to. -/
lemma parse_clashingFile :
    ∃ first, clashingFile.parse = .ok first
      ∧ (∀ f ∈ clashingFunctions first, f.signature.ownNames.Nodup)
      ∧ HasNames (ofParsed clashingFile.name "Copy" first []) "card" ["pet", "arg1"] ["arg1"]
      ∧ HasNames (ofParsed clashingFile.name "Copy" first []) "fill" ["arg1", "arg1"] [] := by
  have hitems : Source.parseItems? clashingFile.text = _ := Source.parseItems?_ofList _
  rw [SourceFile.parse, hitems]
  exact exists_ok_of_any (by decide +kernel)

/-- The parameters of the conversion to a card are told apart. -/
theorem card_names_apart :
    ∃ first unit, [clashingFile].mapM SourceFile.parse = .ok [first]
      ∧ load (some clashingFile) [] "Copy" = .ok unit
      ∧ ∃ v ∈ unit.conversions, v.declaration.name = "card" ∧ v.TellsApart
        ∧ v.parameters.map Prod.fst = ["arg1"] := by
  obtain ⟨first, hfirst, hown, ⟨v, hv, hname, hall, -, hkept⟩, -⟩ := parse_clashingFile
  obtain ⟨hparsed, hload⟩ := load_of_parse hfirst "Copy"
  obtain ⟨unit, hunit, hnames⟩ := names_apart_iff hparsed "Copy"
  obtain rfl : ofParsed clashingFile.name "Copy" first [] = unit :=
    Except.ok.inj (hload.symm.trans hunit)
  obtain ⟨i, hi, hm⟩ := method_of_mem hv
  obtain ⟨f, hf, hnamed⟩ := exists_of_mem_right hnames (List.mem_flatMap.2 ⟨i, hi, hm⟩)
  have hfree := (hnamed.distinct (hown f hf)).1 (by rw [hall]; decide)
  exact ⟨first, _, hparsed, hload, v, hv, hname,
    (hnamed.apart (hown f hf) v hv rfl).2 hfree, hkept⟩

/-- **A parameter with the name that is invented for another.**  Both are left out for the receiver,
which is to be one of them. -/
theorem exists_clash :
    ∃ first unit, [clashingFile].mapM SourceFile.parse = .ok [first]
      ∧ load (some clashingFile) [] "Copy" = .ok unit
      ∧ ∃ f ∈ clashingFunctions first, f.signature.ownNames.Nodup
          ∧ ∃ v ∈ unit.conversions, Interface.NamedAs f v.declaration
            ∧ v.declaration.parameters.map Parameter.name = ["arg1", "arg1"]
            ∧ v.endpoints.receiver.isSome ∧ v.parameters = [] ∧ ¬ v.TellsApart := by
  obtain ⟨first, hfirst, hown, -, v, hv, -, hall, hreceiver, hkept⟩ := parse_clashingFile
  obtain ⟨hparsed, hload⟩ := load_of_parse hfirst "Copy"
  obtain ⟨i, hi, hm⟩ := method_of_mem hv
  obtain ⟨f, hf, hnamed⟩ := exists_of_mem_right (namedAs_ofParsed clashingFile.name "Copy" first [])
    (List.mem_flatMap.2 ⟨i, hi, hm⟩)
  refine ⟨first, _, hparsed, hload, f, hf, hown f hf, v, hv, hnamed, hall, hreceiver,
    List.map_eq_nil_iff.1 hkept, fun hapart => ?_⟩
  have hdistinct := hapart.nodup
  rw [hall] at hdistinct
  exact absurd hdistinct (by decide)

end SourceUnit

end FieldCopy
