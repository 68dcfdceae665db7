import Mathlib
import FieldCopy.Proofs.Catalog.Numbers
import FieldCopy.Proofs.Conflation.Identity
import FieldCopy.Proofs.Loading.Finding

/-!
# Finding a type as what it is known as

**Computations.**  A computation finds a form if it only adds to the catalog and gives the number
under the name of the form (`Lowering.Finds`).  Wrappers, maps and paths do so if their arguments do
(`Lowering.finds_atPath`).

**References to texts** are asked for by the text of the reference, which is made compact.  That is
the name of the form as well (`Lowering.displayName_reference_str`).

**Main statement.**  `Lowering.finds_type`: every type is found as what it is known as, by recursion
over the type.
-/

namespace FieldCopy

open Source Catalog

namespace Lowering

/-! ## Computations that find a type -/

/-- A computation only adds to the catalog. -/
def Adds {α : Type} (m : Lowering α) : Prop := ∀ c, GrowsTo c (m c).2

namespace Adds

variable {α β : Type}

lemma pure (a : α) : Adds (Pure.pure a : Lowering α) := fun c => .refl c

lemma get : Adds (MonadState.get : Lowering Catalog) := fun c => .refl c

lemma bind {m : Lowering α} {f : α → Lowering β} (hm : Adds m) (hf : ∀ a, Adds (f a)) :
    Adds (m >>= f) := fun c => (hm c).trans (hf (m c).1 (m c).2)

lemma intern (name : String) (shape : Shape) : Adds (intern name shape) :=
  fun c => .intern c name shape

end Adds

/-- A computation finds the type that is known as something: it only adds to the catalog, and gives
the number of the type.  Nothing is said about the number if the name cannot be read. -/
structure Finds (c₀ : Catalog) (m : Lowering TypeId) (f : TypeForm) : Prop where
  adds : Adds m
  number : f.Readable → ∀ c, GrowsTo c₀ c → (m c).2.typeNamed? f.name = some (m c).1

/-- An argument is found as something. -/
def Argument.FoundAs (c₀ : Catalog) : Argument → ArgumentForm → Prop
  | .type find, .type f => Finds c₀ find f
  | .text t, .other f => f.name = t
  | _, _ => False

section

variable {c₀ : Catalog}

lemma finds_intern {name : String} {f : TypeForm} (h : f.Readable → f.name = name)
    (shape : Shape) : Finds c₀ (intern name shape) f where
  adds := .intern name shape
  number hf c _ := by
    rw [h hf]
    exact c.typeNamed?_intern_self name shape

section

variable (wellNamed : c₀.WellNamed)

include wellNamed

lemma Finds.nameOf {m : Lowering TypeId} {f : TypeForm} (h : Finds c₀ m f) (hf : f.Readable)
    {c : Catalog} (hc : GrowsTo c₀ c) : (m c).2.nameOf (m c).1 = f.name :=
  WellNamed.nameOf ((hc.trans (h.adds c)).wellNamed wellNamed) (h.number hf c hc)

lemma Finds.around {find : Lowering TypeId} {e f : TypeForm} (h : Finds c₀ find e)
    (shape : TypeId → Shape) {name : String → String} (hname : f.name = name e.name)
    (hreadable : f.Readable → e.Readable) : Finds c₀ (around find shape name) f where
  adds := .bind h.adds fun _ => .bind .get fun _ => .intern _ _
  number hf c hc := by
    have hname' : f.name = name ((find c).2.nameOf (find c).1) := by
      rw [h.nameOf wellNamed (hreadable hf) hc, hname]
    rw [hname']
    exact (find c).2.typeNamed?_intern_self _ _

lemma Finds.mapBetween {key value : Lowering TypeId} {k v : TypeForm} (hkey : Finds c₀ key k)
    (hvalue : Finds c₀ value v) (written : String) :
    Finds c₀ (mapBetween written key value) (.path written [k, v]) where
  adds := .bind hkey.adds fun _ => .bind hvalue.adds fun _ => .bind .get fun _ => .intern _ _
  number hf c hc := by
    have hkey' := hc.trans (hkey.adds c)
    have hvalue' := hkey'.trans (hvalue.adds (key c).2)
    -- The key is known under its name when the value has been found as well.
    have hk : (value (key c).2).2.nameOf (key c).1 = k.name :=
      WellNamed.nameOf (hvalue'.wellNamed wellNamed)
        ((hvalue.adds (key c).2).known _ _ (hkey.number hf.2.1 c hc))
    have hv := hvalue.nameOf wellNamed hf.2.2.1 hkey'
    have hname : (TypeForm.path written [k, v]).name
        = s!"{written}<{(value (key c).2).2.nameOf (key c).1}, {
            (value (key c).2).2.nameOf (value (key c).2).1}>" := by
      rw [hk, hv]
      simp [TypeForm.name, TypeForm.names, toString, String.append_assoc]
    rw [hname]
    exact (value (key c).2).2.typeNamed?_intern_self _ _

lemma Argument.FoundAs.name {a : Argument} {f : ArgumentForm} (h : a.FoundAs c₀ f) :
    Adds a.name ∧ (f.form.Readable → ∀ c, GrowsTo c₀ c → (a.name c).1 = f.form.name) := by
  cases a with
  | type find =>
      cases f with
      | other f => exact h.elim
      | type f =>
          have hfound : Finds c₀ find f := h
          exact ⟨.bind hfound.adds fun _ => .bind .get fun _ => .pure _,
            fun hf c hc => hfound.nameOf wellNamed hf hc⟩
  | text t =>
      cases f with
      | type f => exact h.elim
      | other f =>
          have hname : f.name = t := h
          exact ⟨.pure t, fun _ c _ => hname.symm⟩

/-- The names of arguments that are found. -/
lemma names_of_foundAs {arguments : List Argument} {forms : List ArgumentForm}
    (h : List.Forall₂ (Argument.FoundAs c₀) arguments forms) :
    Adds (arguments.mapM Argument.name)
      ∧ (TypeForm.AllReadable (forms.map ArgumentForm.form) → ∀ c, GrowsTo c₀ c →
          (arguments.mapM Argument.name c).1 = TypeForm.names (forms.map ArgumentForm.form)) := by
  induction h with
  | nil =>
      rw [List.mapM_nil]
      exact ⟨.pure [], fun _ _ _ => rfl⟩
  | @cons a f arguments forms ha _ ih =>
      obtain ⟨hadds, hname⟩ := ha.name wellNamed
      rw [List.mapM_cons]
      refine ⟨.bind hadds fun _ => .bind ih.1 fun _ => .pure _, fun hf c hc => ?_⟩
      change (a.name c).1 :: (arguments.mapM Argument.name (a.name c).2).1 = _
      rw [hname hf.1 c hc, ih.2 hf.2 _ (hc.trans (hadds c))]
      rfl

end

/-- The types among arguments that are found. -/
lemma types_of_foundAs {arguments : List Argument} {forms : List ArgumentForm}
    (h : List.Forall₂ (Argument.FoundAs c₀) arguments forms) :
    List.Forall₂ (Finds c₀) (arguments.filterMap Argument.type?)
      (forms.filterMap ArgumentForm.type?) := by
  refine List.rel_filterMap (fun a f ha => ?_) h
  cases a <;> cases f
  case type.type => exact .some ha
  case text.other => exact .none
  all_goals exact ha.elim

/-! ## Paths -/

lemma structType_toOption (c : Catalog) (id : StructId) :
    (c.structType id).toOption = (c.struct? id).map fun s => c.intern s.path (.struct id) := by
  rw [structType, structAt]
  cases c.struct? id <;> rfl

/-- A path that leads to a structure is found under the path of that. -/
lemma named_of_structPath {scope : Scope} {c : Catalog} {written path : String}
    (h : scope.structPath? c written = some path) (arguments : List Argument) :
    ∃ id, c.Knows (.struct id)
      ∧ named scope written arguments c = c.intern path (.struct id) := by
  obtain ⟨id, hid, hpath⟩ := Option.bind_eq_some_iff.1 h
  obtain ⟨s, hs, rfl⟩ := Option.map_eq_some_iff.1 hpath
  refine ⟨id, knows_struct_iff.2 ⟨s, hs⟩, ?_⟩
  rw [named, get_bind, hid, Option.bind_some, structType_toOption, hs]
  rfl

/-- A path that leads to no structure is found under its own name, or that of an enumeration. -/
lemma named_of_structPath_none {scope : Scope} {c : Catalog} {written : String}
    (h : scope.structPath? c written = none) (arguments : List Argument) :
    named scope written arguments c
      = (if arguments.isEmpty then intern ((scope.enumeration? written).getD written) .basic
          else do
            let names ← arguments.mapM Argument.name
            let inner := ", ".intercalate names
            intern s!"{(scope.enumeration? written).getD written}<{inner}>" .basic) c := by
  have hnone : ((scope.struct? c written).bind fun id => (c.structType id).toOption) = none := by
    rw [Option.bind_eq_none_iff]
    intro id hid
    have hstruct := Option.bind_eq_none_iff.1 h id hid
    rw [structType_toOption, Option.map_eq_none_iff.1 hstruct, Option.map_none]
  rw [named, get_bind, hnone]

lemma adds_named (scope : Scope) (written : String) {arguments : List Argument}
    (hnames : Adds (arguments.mapM Argument.name)) : Adds (named scope written arguments) := by
  intro c
  cases hs : scope.structPath? c written with
  | some path =>
      obtain ⟨id, -, hfound⟩ := named_of_structPath hs arguments
      rw [hfound]
      exact .intern c _ _
  | none =>
      rw [named_of_structPath_none hs]
      split
      · exact .intern c _ _
      · exact Adds.bind hnames (fun _ => .intern _ _) c

section

variable (wellNamed : c₀.WellNamed)

include wellNamed

lemma finds_named (scope : Scope) (written : String) {arguments : List Argument}
    {forms : List ArgumentForm} (h : List.Forall₂ (Argument.FoundAs c₀) arguments forms) :
    Finds c₀ (named scope written arguments) (namedForm scope c₀ written forms) := by
  obtain ⟨hadds, hnames⟩ := names_of_foundAs wellNamed h
  refine ⟨adds_named scope written hadds, fun hf c hc => ?_⟩
  have hpath := scope.structPath?_of_growsTo hc written
  rw [namedForm] at hf ⊢
  cases hs : scope.structPath? c₀ written with
  | some path =>
      obtain ⟨id, -, hfound⟩ := named_of_structPath (hpath.trans hs) arguments
      rw [hfound]
      exact c.typeNamed?_intern_self path _
  | none =>
      rw [hs] at hf
      rw [named_of_structPath_none (hpath.trans hs)]
      cases h with
      | nil => exact c.typeNamed?_intern_self _ _
      | @cons a f arguments forms ha hrest =>
          have hname : TypeForm.name (.path ((scope.enumeration? written).getD written)
                ((f :: forms).map ArgumentForm.form))
              = let inner := ", ".intercalate ((a :: arguments).mapM Argument.name c).1
                s!"{(scope.enumeration? written).getD written}<{inner}>" := by
            rw [hnames hf.2 c hc, TypeForm.name]
            rfl
          simp only [hname]
          exact ((a :: arguments).mapM Argument.name c).2.typeNamed?_intern_self _ _

/-- **A path is found as what it is known as.** -/
lemma finds_atPath (scope : Scope) (written last : String) {arguments : List Argument}
    {forms : List ArgumentForm} (h : List.Forall₂ (Argument.FoundAs c₀) arguments forms) :
    Finds c₀ (atPath scope written last arguments) (pathForm scope c₀ written last forms) := by
  have hnamed := finds_named wellNamed scope written h
  have htypes := types_of_foundAs h
  rw [atPath, pathForm]
  generalize arguments.filterMap Argument.type? = types at htypes ⊢
  generalize forms.filterMap ArgumentForm.type? = typeForms at htypes ⊢
  cases htypes with
  | nil => exact hnamed
  | @cons element e _ _ helement hrest =>
      cases hrest with
      | nil =>
          have hwrapper : ∀ shape, Finds c₀ (around element shape fun n => s!"{written}<{n}>")
              (.path written [e]) := fun shape =>
            helement.around wellNamed shape (by simp [TypeForm.name, TypeForm.names])
              fun hf => hf.2.1
          dsimp only
          split
          · rename_i hpointer
            rw [if_pos (by rw [hpointer, Bool.true_or])]
            exact hwrapper _
          · rename_i hpointer
            split
            · rename_i hslice
              rw [if_pos (by rw [hslice, Bool.or_true])]
              exact hwrapper _
            · rename_i hslice
              rw [if_neg (by rw [Bool.eq_false_iff.2 hpointer, Bool.eq_false_iff.2 hslice]; decide)]
              exact hnamed
      | cons hvalue _ =>
          dsimp only
          split
          · exact helement.mapBetween wellNamed hvalue written
          · exact hnamed

end

end

/-! ## References to texts -/

/-- A space between two characters stays if none of them makes it go. -/
lemma keepsSpace_of_not_glues {before after : Char} (hbefore : TypeName.gluesBehind before = false)
    (hafter : TypeName.gluesInFront after = false) :
    TypeName.keepsSpace (some before) (some after) = true := by
  simp [TypeName.keepsSpace, hbefore, hafter]

/-- A word stays as it is. -/
lemma compactFrom_append {s : List Char} (hs : ' ' ∉ s) (before : Option Char) (t : List Char) :
    TypeName.compactFrom before (s ++ t) = s ++ TypeName.compactFrom (s.getLast?.or before) t := by
  induction s generalizing before with
  | nil => rfl
  | cons c s ih =>
      have hc : c ≠ ' ' := fun h => hs (h ▸ List.mem_cons_self)
      rw [List.cons_append, TypeName.compactFrom, if_neg hc,
        ih (fun h => hs (List.mem_cons_of_mem c h)), List.cons_append, List.getLast?_cons]
      cases s.getLast? <;> rfl

/-- The name of a lifetime and the space behind it stay as they are. -/
lemma compactFrom_lifetime {n : List Char} (hn : TypeForm.IsLifetimeName n) {after : Char}
    (hafter : TypeName.gluesInFront after = false) (before : Option Char) (rest : List Char) :
    TypeName.compactFrom before (n ++ ' ' :: after :: rest)
      = n ++ ' ' :: TypeName.compactFrom (some ' ') (after :: rest) := by
  have hspace : ' ' ∉ n := fun h => (hn.marks ' ' h).1 (by decide)
  obtain ⟨front, c, rfl⟩ := (List.eq_nil_or_concat' n).resolve_left hn.nonempty
  have hglues : TypeName.gluesBehind c = false := by
    obtain ⟨hmarks, hcolon⟩ := hn.marks c (by simp)
    simp only [TypeForm.marks, List.mem_cons, List.not_mem_nil, or_false, not_or] at hmarks
    simp [TypeName.gluesBehind, hmarks, hcolon]
  rw [compactFrom_append hspace, List.getLast?_concat, Option.some_or, TypeName.compactFrom,
    if_pos rfl, List.head?_cons, if_pos (keepsSpace_of_not_glues hglues hafter)]

lemma eq_ofName_of_isName {p : Source.Path} {name : String} (h : p.isName name = true) :
    p = .ofName name := by
  unfold Path.isName at h
  split at h
  · rename_i n a
    obtain ⟨hname, hnone⟩ := Bool.and_eq_true_iff.1 h
    obtain rfl := eq_of_beq hname
    cases a with
    | none => rfl
    | _ => exact absurd hnone (by simp [Arguments.isNone])
  · exact absurd h (by simp)

/-- **The name of a reference to a text.** -/
lemma displayName_reference_str {l : Option String}
    (hl : ∀ n ∈ l, TypeForm.IsLifetimeName n.toList) (m : Bool) :
    (Ty.reference l m (.path (.ofName "str"))).displayName
      = (TypeForm.reference l m (.path "str" [])).name := by
  cases l with
  | none => cases m <;> rfl
  | some n =>
      have hn := hl n rfl
      have hlexemes : (Ty.reference (some n) m (.path (.ofName "str"))).shorten.lexemes
          = .mark '&' false () :: .mark '\'' true () :: .word n () ::
              ((if m then [.word "mut" ()] else []) ++ [.word "str" ()]) := by
        cases m <;> rfl
      have htext : Token.textAll (Ty.reference (some n) m (.path (.ofName "str"))).shorten.lexemes
          = '&' :: ' ' :: '\'' :: (n.toList
              ++ ' ' :: Token.textAll
                ((if m then [.word "mut" ()] else []) ++ [.word "str" ()])) := by
        rw [hlexemes]
        simp [Token.textAll, Token.textOne, Token.isJoint]
      have hfront : ∀ rest : List Char, TypeName.compactChars ('&' :: ' ' :: '\'' :: rest)
          = '&' :: '\'' :: TypeName.compactFrom (some '\'') rest := fun _ => rfl
      apply String.toList_injective
      rw [TypeForm.toList_name_reference, Ty.displayName, TypeName.ofLexemes, String.toList_ofList,
        htext, hfront, TypeForm.lifetimeText, List.cons_append, List.append_assoc]
      congr 2
      cases m
      · exact compactFrom_lifetime hn (by decide) _ _
      · exact compactFrom_lifetime hn (by decide) _ _

/-! ## Finding types -/

lemma eq_of_isString {t : Ty} (h : isString t = true) : t = .path (.ofName "str") := by
  cases t with
  | path p => exact congrArg Ty.path (eq_ofName_of_isName h)
  | _ => exact absurd h (by simp [isString])

/-- A text is found as a text. -/
lemma finds_written {c₀ : Catalog} (text : String) (shape : Shape) :
    Finds c₀ (intern text shape) (.written text) :=
  finds_intern (f := .written text) (fun _ => rfl) shape

lemma listIdentities_eq_map (scope : Scope) (c : Catalog) (items : List Source.Argument) :
    listIdentities scope c items = items.map (oneIdentity scope c) := by
  induction items with
  | nil => rw [listIdentities, List.map_nil]
  | cons i items ih => rw [listIdentities, ih, List.map_cons]

/-- The arguments of a path are known as those of its last name, one by one. -/
lemma pathIdentities_eq_map (scope : Scope) (c : Catalog) : ∀ {p : Path} {s : Segment},
    p.last? = some s → pathIdentities scope c p = s.arguments.items.map (oneIdentity scope c)
  | .mk _ _, _, hs => by
      have hsingle : ∀ s,
          lastIdentities scope c [s] = s.arguments.items.map (oneIdentity scope c) := by
        rintro ⟨n, a⟩
        rw [lastIdentities]
        cases a with
        | angled turbofish items trailing =>
            rw [segmentIdentities]
            exact listIdentities_eq_map scope c items
        | none | called =>
            rw [segmentIdentities]
            rfl
      have hbehind : ∀ s t rest,
          lastIdentities scope c (s :: t :: rest) = lastIdentities scope c (t :: rest) := by
        intro s t rest
        rw [lastIdentities]
        exact fun h => List.cons_ne_nil t rest h
      rw [pathIdentities]
      exact eq_of_getLast? hsingle hbehind hs

/-- The arguments of a path are found as what they are known as if the types among them are. -/
lemma foundAs_pathArguments {c₀ : Catalog} {scope : Scope} {p : Path} {s : Segment}
    (hs : p.last? = some s)
    (types : ∀ t ∈ s.arguments.types, Finds c₀ (type scope t) (identity scope c₀ t)) :
    List.Forall₂ (Argument.FoundAs c₀) (pathArguments scope p) (pathIdentities scope c₀ p) := by
  rw [pathArguments_eq_map scope hs, pathIdentities_eq_map scope c₀ hs,
    List.forall₂_map_left_iff, List.forall₂_map_right_iff, List.forall₂_same]
  intro i hi
  cases i with
  | type t =>
      rw [oneArgument, oneIdentity]
      exact types t (Arguments.mem_types.2 hi)
  | lifetime n =>
      rw [oneArgument, oneIdentity]
      rfl
  | other ps =>
      rw [oneArgument, oneIdentity]
      rfl

/-- **A type is found as what it is known as.** -/
theorem finds_type {c₀ : Catalog} (wellNamed : c₀.WellNamed) (scope : Scope) (t : Ty) :
    Finds c₀ (type scope t) (identity scope c₀ t) := by
  induction t using Ty.form_induction with
  | parenthesized t ih =>
      rw [type, identity]
      exact ih
  | sliceReference l m e ih =>
      rw [type, identity, if_neg (by simp [isString]), identity]
      exact ih.around wellNamed .slice
        (by simp [TypeForm.name, toString, String.append_assoc]) fun hf => hf.2.2
  | reference l m t hslice ih =>
      rw [type_reference hslice, identity]
      split
      · rename_i hstring
        rw [eq_of_isString hstring]
        exact finds_intern (f := .reference l m (.path "str" []))
          (fun hf => (displayName_reference_str hf.1 m).symm) .basic
      · exact ih.around wellNamed .pointer rfl fun hf => hf.2.2
  | slice e ih =>
      rw [type, identity]
      exact ih.around wellNamed .slice rfl fun hf => hf
  | array e n ih =>
      rw [type, identity]
      exact ih.around wellNamed .slice rfl fun hf => hf.1
  | path p ih =>
      rw [type, identity]
      cases hlast : p.last? with
      | some s =>
          exact finds_atPath wellNamed scope _ _ (foundAs_pathArguments hlast (ih s hlast))
      | none => exact finds_written _ _
  | unit | tuple | traitObject | implTrait | qualified | other =>
      rw [type, identity]
      exact finds_written _ _

end Lowering

end FieldCopy
