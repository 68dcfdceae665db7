import Mathlib
import FieldCopy.Proofs.Conflation
import FieldCopy.Proofs.ItemOrder
import FieldCopy.Proofs.Loading.CanonicalNames

/-!
# Types inside types

A field is copied as it is if the types on both sides are one type of the catalog, and types are
often written inside others.  If two types as written are one type, then so should be what is built
of them.

**Constructors.**  `Constructor` is a type with a place for another in it, and a nest of
constructors is a list of them, the outermost first (`Constructor.nest`).

**What is built from names.**  Slices, arrays, pointers, lists and maps are named after the types
inside, so they are one type if those are.  A path with arguments has to lead to the same in both
modules unless it is that of a wrapper, its other arguments have to be the same types, and behind a
reference the word for texts has to mean texts (`Constructor.Agrees`).

**What is kept as written.**  A tuple and a function pointer are named by their text, and paths in
the text are not looked up.  So they are one type exactly if the texts are the same.

**Main statement.**  `Loading.composes`: nests of constructors that agree take one type to one type,
and when constructors that are kept do.  `Loading.exists_split`: not all do.
-/

namespace FieldCopy

open Source Catalog

/-! ## Constructors -/

/-- A type with a place for another type in it. -/
inductive Constructor where
  | parenthesized
  | reference (lifetime : Option String) (mutable : Bool)
  | slice
  | array (length : List Piece)
  /-- An argument of the last name of a path, between others. -/
  | argument (rooted : Bool) (front : List Segment) (last : String) (turbofish : Bool)
      (before after : List Source.Argument) (trailing : Bool)
  /-- A component of a tuple, between others. -/
  | component (before after : List Ty) (trailing : Bool)
  /-- A parameter of a function pointer, between others: what stands in front of the parameters
  and behind them is kept as it is. -/
  | parameter (head before after tail : List Piece)

namespace Constructor

/-- The type with another in its place. -/
def apply : Constructor → Ty → Ty
  | parenthesized, t => .parenthesized t
  | reference l m, t => .reference l m t
  | slice, t => .slice t
  | array n, t => .array t n
  | argument r front last turbofish before after trailing, t =>
      .path (.mk r (front ++ [.mk last (.angled turbofish (before ++ .type t :: after) trailing)]))
  | component before after trailing, t => .tuple (before ++ t :: after) trailing
  | parameter head before after tail, t =>
      .other (head ++ .group .parenthesis (before ++ .type t :: after) :: tail)

/-- A type in a nest of constructors. -/
def nest (Cs : List Constructor) (t : Ty) : Ty := Cs.foldr apply t

/-- Whether what is built is kept as written. -/
def isKept : Constructor → Bool
  | component _ _ _ | parameter _ _ _ _ => true
  | _ => false

end Constructor

/-! ## Names in modules -/

namespace Loading

/-- The name by which a type as written in a module of some files is known. -/
def nameIn (files : List ParsedFile) (package : String) (t : Ty) : String :=
  (Lowering.sketch (namesIn files package) t).type.name

/-- Types as written in two modules are one type of the catalog, whenever the loader comes to
them. -/
def OneType (files : List ParsedFile) (package₁ : String) (t₁ : Ty) (package₂ : String)
    (t₂ : Ty) : Prop :=
  ∀ c c', GrowsTo (Declared.ofFiles files).catalog c → GrowsTo (typeIn files package₁ t₁ c).2 c' →
    (typeIn files package₁ t₁ c).1 = (typeIn files package₂ t₂ c').1

variable {files : List ParsedFile} {package₁ package₂ : String} {t₁ t₂ : Ty}

lemma calls_typeIn (files : List ParsedFile) (package : String) (t : Ty) :
    Lowering.Calls (Declared.ofFiles files).catalog (typeIn files package t)
      (nameIn files package t) :=
  Lowering.calls_type (wellNamed_ofFiles files) (.ofFiles files package) t

/-- **Types get one number exactly if they are known by one name.** -/
lemma number_eq_iff_name {c c' : Catalog} (hc : GrowsTo (Declared.ofFiles files).catalog c)
    (later : GrowsTo (typeIn files package₁ t₁ c).2 c') :
    (typeIn files package₁ t₁ c).1 = (typeIn files package₂ t₂ c').1
      ↔ nameIn files package₁ t₁ = nameIn files package₂ t₂ := by
  have hcalls₁ := calls_typeIn files package₁ t₁
  have hcalls₂ := calls_typeIn files package₂ t₂
  have hc' := (hc.trans (hcalls₁.adds c)).trans later
  have hnumber₁ := (later.trans (hcalls₂.adds c')).known _ _ (hcalls₁.number c hc)
  have hnumber₂ := hcalls₂.number c' hc'
  exact ((hc'.trans (hcalls₂.adds c')).wellNamed (wellNamed_ofFiles files)).id_eq_iff
    hnumber₁ hnumber₂

lemma oneType_iff :
    OneType files package₁ t₁ package₂ t₂
      ↔ nameIn files package₁ t₁ = nameIn files package₂ t₂ := by
  constructor
  · intro h
    exact (number_eq_iff_name (.refl _) (.refl _)).1 (h _ _ (.refl _) (.refl _))
  · exact fun h c c' hc later => (number_eq_iff_name hc later).2 h

end Loading

/-! ## Paths with arguments -/

namespace Source

/-- Whether a path is one of the prelude is a matter of its names. -/
lemma Path.isPrelude_iff {r : Bool} {segments : List Segment} :
    (Path.mk r segments).isPrelude = true ↔ ∃ c m t, segments.map Segment.name = [c, m, t]
      ∧ (standardCrates.contains c && preludeTypes.contains (m, t)) = true := by
  constructor
  · intro h
    rw [isPrelude] at h
    split at h
    · rename_i c m t heq
      exact ⟨c.name, m.name, t.name, congrArg (List.map Segment.name) heq, h⟩
    · exact Bool.noConfusion h
  · rintro ⟨c, m, t, hnames, h⟩
    simp only [List.map_eq_cons_iff, List.map_eq_nil_iff] at hnames
    obtain ⟨c, _, rfl, rfl, m, _, rfl, rfl, t, _, rfl, rfl, rfl⟩ := hnames
    exact h

lemma Path.isPrelude_eq_of_names {r r' : Bool} {segments segments' : List Segment}
    (h : segments.map Segment.name = segments'.map Segment.name) :
    (Path.mk r segments).isPrelude = (Path.mk r' segments').isPrelude := by
  rw [Bool.eq_iff_iff, isPrelude_iff, isPrelude_iff, h]

/-- A path of the prelude is known by its last name, any other path by all its names. -/
lemma Path.displayName_eq (r : Bool) (segments : List Segment) :
    (Path.mk r segments).displayName
      = ModulePath.join (if (Path.mk r segments).isPrelude
          then (segments.map Segment.name).drop 2 else segments.map Segment.name) := by
  rw [displayName, shorten]
  split
  · rename_i c m t heq
    obtain rfl : segments = [c, m, t] := heq
    split <;> rfl
  · rename_i hother
    have hplain : (Path.mk r segments).isPrelude = false := by
      rw [isPrelude]
      split
      · rename_i c m t heq
        exact absurd heq (hother c m t)
      · rfl
    rw [hplain]
    rfl

/-- Arguments do not matter to the name of a path. -/
lemma Path.displayName_eq_of_names {r r' : Bool} {segments segments' : List Segment}
    (h : segments.map Segment.name = segments'.map Segment.name) :
    (Path.mk r segments).displayName = (Path.mk r' segments').displayName := by
  have hprelude : (Path.mk r segments).isPrelude = (Path.mk r' segments').isPrelude :=
    isPrelude_eq_of_names h
  rw [displayName_eq, displayName_eq, hprelude, h]

end Source

/-- Arguments of one name, both of them types or both of them texts. -/
def ArgumentSketch.SameName : ArgumentSketch → ArgumentSketch → Prop
  | .type s, .type s' => s.type.name = s'.type.name
  | .text t, .text t' => t = t'
  | _, _ => False

namespace Lowering

lemma names_of_sameName {sketches sketches' : List ArgumentSketch}
    (h : List.Forall₂ ArgumentSketch.SameName sketches sketches') :
    sketches.map ArgumentSketch.name = sketches'.map ArgumentSketch.name := by
  induction h with
  | nil => rfl
  | @cons a a' _ _ ha _ ih =>
      rw [List.map_cons, List.map_cons, ih]
      congr 1
      cases a <;> cases a'
      case type.type => exact ha
      case text.text => exact ha
      all_goals exact ha.elim

lemma types_of_sameName {sketches sketches' : List ArgumentSketch}
    (h : List.Forall₂ ArgumentSketch.SameName sketches sketches') :
    List.Forall₂ (fun s s' => s.type.name = s'.type.name)
      (sketches.filterMap ArgumentSketch.type?) (sketches'.filterMap ArgumentSketch.type?) := by
  refine List.rel_filterMap (fun a a' ha => ?_) h
  cases a <;> cases a'
  case type.type => exact .some ha
  case text.text => exact .none
  all_goals exact ha.elim

/-- A path leads to the same in two modules. -/
def LeadsAlike (n n' : Names) (written : String) : Prop :=
  n.structPath? written = n'.structPath? written
    ∧ n.enumeration? written = n'.enumeration? written

variable {n n' : Names} {written last : String} {sketches sketches' : List ArgumentSketch}

lemma name_named (h : List.Forall₂ ArgumentSketch.SameName sketches sketches')
    (leads : LeadsAlike n n' written) :
    (Sketch.named n written sketches).type.name
      = (Sketch.named n' written sketches').type.name := by
  have hempty : sketches.isEmpty = sketches'.isEmpty := by cases h <;> rfl
  rw [Sketch.named, Sketch.named, leads.1, leads.2, names_of_sameName h, hempty]
  split
  · rfl
  · dsimp only
    split <;> rfl

/-- **Paths are known by one name** if their arguments are, and if they lead to the same or are
those of wrappers. -/
lemma name_atPath (h : List.Forall₂ ArgumentSketch.SameName sketches sketches')
    (leads : wrapped? last (sketches.filterMap ArgumentSketch.type?).length ≠ none
      ∨ LeadsAlike n n' written) :
    (Sketch.atPath n written last sketches).type.name
      = (Sketch.atPath n' written last sketches').type.name := by
  have htypes := types_of_sameName h
  have hnamed : LeadsAlike n n' written → (Sketch.named n written sketches).type.name
      = (Sketch.named n' written sketches').type.name := name_named h
  rw [Sketch.atPath, Sketch.atPath]
  generalize sketches.filterMap ArgumentSketch.type? = types at htypes leads ⊢
  generalize sketches'.filterMap ArgumentSketch.type? = types' at htypes ⊢
  cases htypes with
  | nil => exact hnamed (leads.resolve_left fun h => h rfl)
  | @cons e e' _ _ he hrest =>
      cases hrest with
      | nil =>
          dsimp only
          split
          · exact congrArg (fun name => s!"{written}<{name}>") he
          · split
            · exact congrArg (fun name => s!"{written}<{name}>") he
            · rename_i hpointer hslice
              refine hnamed (leads.resolve_left fun h => h (if_neg ?_))
              rw [Bool.or_eq_true]
              exact not_or.2 ⟨hpointer, hslice⟩
      | cons hv _ =>
          dsimp only
          split
          · exact congrArg₂ (fun k v => s!"{written}<{k}, {v}>") he hv
          · rename_i hmap
            exact hnamed (leads.resolve_left fun h => h (if_neg hmap))

end Lowering

/-! ## Constructors that agree -/

namespace Constructor

/-- In two modules, a constructor makes one type of what is one type: behind a reference, the word
for texts means texts; a path leads to the same unless it is that of a wrapper, and its other
arguments are the same; and what is kept as written reads the same. -/
def Agrees (files : List ParsedFile) (package₁ package₂ : String) (t₁ t₂ : Ty) :
    Constructor → Prop
  | parenthesized | slice | array _ => True
  | reference l _ =>
      Lowering.isString t₁ = Lowering.isString t₂
        ∨ Loading.nameIn files package₁ t₁ = "str" ∧ ∀ n ∈ l, TypeForm.IsLifetimeName n.toList
  | argument r front last turbofish before after trailing =>
      (∀ a ∈ before ++ after,
        (Lowering.oneSketch (Loading.namesIn files package₁) a).SameName
          (Lowering.oneSketch (Loading.namesIn files package₂) a))
        ∧ (Lowering.wrapped? last
              ((Arguments.angled turbofish (before ++ after) trailing).types.length + 1) ≠ none
            ∨ Lowering.LeadsAlike (Loading.namesIn files package₁) (Loading.namesIn files package₂)
                (Source.Path.mk r (front ++ [.mk last .none])).displayName)
  | component before after trailing =>
      ((component before after trailing).apply t₁).displayName
        = ((component before after trailing).apply t₂).displayName
  | parameter head before after tail =>
      ((parameter head before after tail).apply t₁).displayName
        = ((parameter head before after tail).apply t₂).displayName

/-- All constructors of a nest agree, from the inside to the outside. -/
def AgreeAll (files : List ParsedFile) (package₁ package₂ : String) (t₁ t₂ : Ty) :
    List Constructor → Prop
  | [] => True
  | C :: Cs =>
      C.Agrees files package₁ package₂ (nest Cs t₁) (nest Cs t₂)
        ∧ AgreeAll files package₁ package₂ t₁ t₂ Cs

end Constructor

namespace Lowering

/-- The sketch of a path with arguments at its last name. -/
lemma sketch_angled (n : Names) (r : Bool) (front : List Segment) (last : String)
    (turbofish : Bool) (items : List Source.Argument) (trailing : Bool) :
    sketch n (.path (.mk r (front ++ [.mk last (.angled turbofish items trailing)])))
      = .atPath n (Source.Path.mk r (front ++ [.mk last .none])).displayName last
          (items.map (oneSketch n)) := by
  have hlast : (Source.Path.mk r (front ++ [.mk last (.angled turbofish items trailing)])).last?
      = some (.mk last (.angled turbofish items trailing)) := List.getLast?_concat
  have hname : (Source.Path.mk r
        (front ++ [.mk last (.angled turbofish items trailing)])).displayName
      = (Source.Path.mk r (front ++ [.mk last .none])).displayName :=
    Path.displayName_eq_of_names (by simp [Segment.name])
  have hitems : pathSketches n (.mk r (front ++ [.mk last (.angled turbofish items trailing)]))
      = items.map (oneSketch n) := pathSketches_eq_map n hlast
  rw [sketch, hname, hitems]
  simp only [hlast]
  rfl

end Lowering

namespace Loading

variable {files : List ParsedFile} {package₁ package₂ : String} {t₁ t₂ : Ty}

/-- A reference is named after what stands behind it, and a reference to the word for texts is named
as if that word meant texts. -/
lemma nameIn_reference (package : String) (l : Option String) (m : Bool) (t : Ty) :
    nameIn files package (.reference l m t)
      = if Lowering.isString t then (Ty.reference l m t).displayName
        else Lowering.referenceSign l m ++ nameIn files package t := by
  by_cases hslice : ∃ e, t = .slice e
  · obtain ⟨e, rfl⟩ := hslice
    rw [if_neg (by simp [Lowering.isString])]
    rw [nameIn, nameIn, Lowering.sketch, Lowering.sketch]
    simp [Sketch.around, toString, String.append_assoc]
  · rw [nameIn, Lowering.sketch_reference _ fun e he => hslice ⟨e, he⟩]
    split <;> rfl

lemma nameIn_argument (package : String) (r : Bool) (front : List Segment) (last : String)
    (turbofish : Bool) (before after : List Source.Argument) (trailing : Bool) (t : Ty) :
    nameIn files package
        ((Constructor.argument r front last turbofish before after trailing).apply t)
      = (Sketch.atPath (namesIn files package)
          (Source.Path.mk r (front ++ [.mk last .none])).displayName last
          ((before ++ .type t :: after).map
            (Lowering.oneSketch (namesIn files package)))).type.name := by
  rw [nameIn, Constructor.apply, Lowering.sketch_angled]

/-- What is kept as written is known by its text. -/
lemma nameIn_of_isKept (package : String) {C : Constructor} (h : C.isKept = true) (t : Ty) :
    nameIn files package (C.apply t) = (C.apply t).displayName := by
  cases C with
  | component before after trailing =>
      cases before <;> rfl
  | parameter head before after tail => rfl
  | _ => exact absurd h (by simp [Constructor.isKept])

/-- References are one type exactly if the word for texts means texts behind both or behind
neither. -/
lemma nameIn_reference_iff {l : Option String} (hl : ∀ n ∈ l, TypeForm.IsLifetimeName n.toList)
    (m : Bool) (h : nameIn files package₁ t₁ = nameIn files package₂ t₂) :
    nameIn files package₁ (.reference l m t₁) = nameIn files package₂ (.reference l m t₂)
      ↔ Lowering.isString t₁ = Lowering.isString t₂ ∨ nameIn files package₁ t₁ = "str" := by
  have htext : ∀ t, Lowering.isString t = true →
      (Ty.reference l m t).displayName = Lowering.referenceSign l m ++ "str" := by
    intro t ht
    rw [Lowering.eq_of_isString ht, Lowering.displayName_reference_str hl m]
    rfl
  rw [nameIn_reference, nameIn_reference, h]
  cases h₁ : Lowering.isString t₁ <;> cases h₂ : Lowering.isString t₂
  · simp
  · simp [htext t₂ h₂]
  · simp [htext t₁ h₁, eq_comm]
  · simp [htext t₁ h₁, htext t₂ h₂]

/-- The types among the sketches of arguments are those among the arguments, and the one in the
place of a constructor is one more. -/
lemma length_types_sketches (n : Names) (turbofish trailing : Bool)
    (before after : List Source.Argument) (t : Ty) :
    (((before ++ .type t :: after).map (Lowering.oneSketch n)).filterMap
        ArgumentSketch.type?).length
      = (Arguments.angled turbofish (before ++ after) trailing).types.length + 1 := by
  have hlength : ∀ items : List Source.Argument,
      ((items.map (Lowering.oneSketch n)).filterMap ArgumentSketch.type?).length
        = (Arguments.angled turbofish items trailing).types.length := by
    intro items
    rw [List.filterMap_map, Arguments.types, Arguments.items]
    induction items with
    | nil => rfl
    | cons a items ih =>
        cases a with
        | type t => exact congrArg (· + 1) ih
        | lifetime n => exact ih
        | other ps => exact ih
  rw [hlength]
  simp [Arguments.types, Arguments.items]
  omega

/-- **A constructor that agrees makes one name of one name.** -/
lemma nameIn_apply {C : Constructor} (agrees : C.Agrees files package₁ package₂ t₁ t₂)
    (h : nameIn files package₁ t₁ = nameIn files package₂ t₂) :
    nameIn files package₁ (C.apply t₁) = nameIn files package₂ (C.apply t₂) := by
  cases C with
  | parenthesized =>
      rw [Constructor.apply, Constructor.apply, nameIn, nameIn, Lowering.sketch, Lowering.sketch]
      exact h
  | slice =>
      rw [Constructor.apply, Constructor.apply, nameIn, nameIn, Lowering.sketch, Lowering.sketch]
      exact congrArg (fun name => s!"[{name}]") h
  | array n =>
      rw [Constructor.apply, Constructor.apply, nameIn, nameIn, Lowering.sketch, Lowering.sketch]
      exact congrArg (fun name => s!"[{name}; {TypeName.ofLexemes (pieceLexemes n)}]") h
  | reference l m =>
      rw [Constructor.apply, Constructor.apply]
      rcases agrees with hstring | ⟨hname, hl⟩
      · rw [nameIn_reference, nameIn_reference, h]
        cases h₂ : Lowering.isString t₂ with
        | true => rw [if_pos (hstring.trans h₂), if_pos rfl, Lowering.eq_of_isString h₂,
            Lowering.eq_of_isString (hstring.trans h₂)]
        | false => rw [hstring.trans h₂]; rfl
      · exact (nameIn_reference_iff hl m h).2 (.inr hname)
  | argument r front last turbofish before after trailing =>
      obtain ⟨hothers, hleads⟩ := agrees
      rw [nameIn_argument, nameIn_argument]
      have hsame : ∀ items ⊆ before ++ after, List.Forall₂ ArgumentSketch.SameName
          (items.map (Lowering.oneSketch (namesIn files package₁)))
          (items.map (Lowering.oneSketch (namesIn files package₂))) := by
        intro items hitems
        rw [List.forall₂_map_left_iff, List.forall₂_map_right_iff, List.forall₂_same]
        exact fun a ha => hothers a (hitems ha)
      refine Lowering.name_atPath ?_ (hleads.imp_left fun hwrapped => ?_)
      · rw [List.map_append, List.map_append, List.map_cons, List.map_cons]
        refine List.rel_append (hsame before (List.subset_append_left _ _))
          (.cons ?_ (hsame after (List.subset_append_right _ _)))
        rw [Lowering.oneSketch, Lowering.oneSketch]
        exact h
      · rwa [length_types_sketches _ turbofish trailing]
  | component _ _ _ | parameter _ _ _ _ =>
      rw [nameIn_of_isKept package₁ rfl, nameIn_of_isKept package₂ rfl]
      exact agrees

/-- A nest of constructors that agree makes one name of one name. -/
lemma nameIn_nest (h : nameIn files package₁ t₁ = nameIn files package₂ t₂) :
    ∀ {Cs : List Constructor}, Constructor.AgreeAll files package₁ package₂ t₁ t₂ Cs →
      nameIn files package₁ (Constructor.nest Cs t₁)
        = nameIn files package₂ (Constructor.nest Cs t₂)
  | [], _ => h
  | _ :: _, ⟨agrees, rest⟩ => nameIn_apply agrees (nameIn_nest h rest)

/-- **When types inside types compose.**  If types as written in two modules got one number, then a
nest of constructors that agree makes one type of them.  What is kept as written is one type exactly
if it reads the same, and references are one type exactly if the word for texts means texts behind
both or behind neither. -/
theorem composes (files : List ParsedFile) {package₁ package₂ : String} {t₁ t₂ : Ty}
    {c c' : Catalog} (hc : GrowsTo (Declared.ofFiles files).catalog c)
    (later : GrowsTo (typeIn files package₁ t₁ c).2 c')
    (same : (typeIn files package₁ t₁ c).1 = (typeIn files package₂ t₂ c').1) :
    (∀ Cs : List Constructor, Constructor.AgreeAll files package₁ package₂ t₁ t₂ Cs →
        OneType files package₁ (Constructor.nest Cs t₁) package₂ (Constructor.nest Cs t₂))
      ∧ (∀ C : Constructor, C.isKept = true →
        (OneType files package₁ (C.apply t₁) package₂ (C.apply t₂)
          ↔ (C.apply t₁).displayName = (C.apply t₂).displayName))
      ∧ ∀ (l : Option String) (m : Bool), (∀ n ∈ l, TypeForm.IsLifetimeName n.toList) →
        (OneType files package₁ (.reference l m t₁) package₂ (.reference l m t₂)
          ↔ Lowering.isString t₁ = Lowering.isString t₂ ∨ nameIn files package₁ t₁ = "str") := by
  have hname := (number_eq_iff_name hc later).1 same
  refine ⟨fun Cs agree => oneType_iff.2 (nameIn_nest hname agree), fun C hC => ?_,
    fun l m hl => ?_⟩
  · rw [oneType_iff, nameIn_of_isKept package₁ hC, nameIn_of_isKept package₂ hC]
  · rw [oneType_iff, nameIn_reference_iff hl m hname]

/-- A file with a structure in a module. -/
def modelFile : ParsedFile := ⟨"", [.module "model" [.record "Pet" []]]⟩

/-- The structure as it is written outside its module. -/
def petOfModel : Ty := .path (.mk false [.mk "model" .none, .mk "Pet" .none])

/-- A wrapper around a type. -/
def wrapper (name : String) : Constructor := .argument false [] name false [] [] false

lemma wrapper_agrees {name : String} (h : Lowering.wrapped? name 1 ≠ none) :
    (wrapper name).Agrees files package₁ package₂ t₁ t₂ :=
  ⟨fun _ ha => absurd ha List.not_mem_nil, .inl h⟩

/-- A list of references to a structure is one type, in whichever way its path is written. -/
theorem list_of_pets :
    (typeIn [modelFile] "model" (.ofName "Pet") (Declared.ofFiles [modelFile]).catalog).1
        = (typeIn [modelFile] "" petOfModel (typeIn [modelFile] "model" (.ofName "Pet")
            (Declared.ofFiles [modelFile]).catalog).2).1
      ∧ OneType [modelFile] "model" ((wrapper "Vec").apply (.reference none false (.ofName "Pet")))
          "" ((wrapper "Vec").apply (.reference none false petOfModel)) := by
  have hsame : (typeIn [modelFile] "model" (.ofName "Pet")
        (Declared.ofFiles [modelFile]).catalog).1
      = (typeIn [modelFile] "" petOfModel (typeIn [modelFile] "model" (.ofName "Pet")
          (Declared.ofFiles [modelFile]).catalog).2).1 := by decide
  refine ⟨hsame, ?_⟩
  exact (composes [modelFile] (.refl _) (.refl _) hsame).1 [wrapper "Vec", .reference none false]
    ⟨wrapper_agrees (by decide), .inl rfl, trivial⟩

/-- **Types inside types do not always compose.**  A tuple of one type and others that are the same
can be two types. -/
theorem exists_split :
    ¬ ∀ (files : List ParsedFile) (package₁ package₂ : String) (t₁ t₂ : Ty) (before after : List Ty)
        (trailing : Bool), OneType files package₁ t₁ package₂ t₂ →
        (∀ t ∈ before ++ after, OneType files package₁ t package₂ t) →
          OneType files package₁ ((Constructor.component before after trailing).apply t₁)
            package₂ ((Constructor.component before after trailing).apply t₂) := by
  intro h
  have hpet : OneType [modelFile] "model" (.ofName "Pet") "" petOfModel :=
    oneType_iff.2 (by decide)
  have hbyte : OneType [modelFile] "model" (.ofName "u8") "" (.ofName "u8") :=
    oneType_iff.2 (by decide)
  have hpair := h [modelFile] "model" "" (.ofName "Pet") petOfModel [] [.ofName "u8"] false hpet
    fun t ht => by rwa [List.mem_singleton.1 ht]
  exact absurd (oneType_iff.1 hpair) (by decide)

end Loading

end FieldCopy
