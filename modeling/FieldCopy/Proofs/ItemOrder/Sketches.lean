import Mathlib
import FieldCopy.Proofs.Catalog.Naming
import FieldCopy.Proofs.Conflation.Finding

/-!
# Types without numbers

The number of a type tells how many types were asked for before it.  What does not depend on that is
its name and its kind (`TypeView`).

**Sketches.**  The name and the kind of a type as written follow from what the paths in it lead to
(`Names`), and so do those of all types that are asked for on the way (`Lowering.sketch`).

**One kind for a name.**  A name that is known keeps the kind it has.  So a type is what its sketch
says if no name is asked for with two kinds (`OneKind`).

**Main statement.**  `Lowering.draws_type`: every type is found as its sketch says, by recursion
over the type.
-/

namespace FieldCopy

open Source Catalog

/-- A type without its number. -/
structure TypeView where
  name : String
  /-- The word for the kind of the shape. -/
  kind : String
  deriving DecidableEq

def TypeInfo.view (t : TypeInfo) : TypeView := ⟨t.name, t.shape.kind⟩

/-- Types with one name are of one kind. -/
def OneKind (views : List TypeView) : Prop := ∀ v ∈ views, ∀ w ∈ views, v.name = w.name → v = w

lemma OneKind.perm {views views' : List TypeView} (h : OneKind views) (hperm : views.Perm views') :
    OneKind views' := fun v hv w hw => h v (hperm.mem_iff.2 hv) w (hperm.mem_iff.2 hw)

instance (views : List TypeView) : Decidable (OneKind views) := by
  unfold OneKind
  infer_instance

/-- What the paths in a module lead to. -/
structure Names where
  /-- The qualified path of a structure. -/
  structPath? : String → Option String
  /-- The qualified path of an enumeration. -/
  enumeration? : String → Option String

/-- What the paths in the module of a scope lead to. -/
def Scope.names (s : Scope) (c : Catalog) : Names := ⟨s.structPath? c, s.enumeration?⟩

/-- A type that is asked for, and the types that are asked for before it. -/
structure Sketch where
  type : TypeView
  inside : List TypeView

namespace Sketch

/-- All types that are asked for. -/
def asked (s : Sketch) : List TypeView := s.inside ++ [s.type]

/-- A type without parts. -/
def leaf (name kind : String) : Sketch := ⟨⟨name, kind⟩, []⟩

/-- A type around another, named after it. -/
def around (element : Sketch) (kind : String) (name : String → String) : Sketch :=
  ⟨⟨name element.type.name, kind⟩, element.asked⟩

/-- A map between two types. -/
def mapBetween (written : String) (key value : Sketch) : Sketch :=
  ⟨⟨s!"{written}<{key.type.name}, {value.type.name}>", "Map"⟩, key.asked ++ value.asked⟩

end Sketch

/-- A generic argument: a type, or the text of anything else. -/
inductive ArgumentSketch where
  | type (sketch : Sketch)
  | text (text : String)

namespace ArgumentSketch

def type? : ArgumentSketch → Option Sketch
  | type s => some s
  | text _ => none

def name : ArgumentSketch → String
  | type s => s.type.name
  | text t => t

def asked : ArgumentSketch → List TypeView
  | type s => s.asked
  | text _ => []

end ArgumentSketch

namespace Sketch

/-- A path that leads to no wrapper. -/
def named (n : Names) (written : String) (arguments : List ArgumentSketch) : Sketch :=
  match n.structPath? written with
  | some path => leaf path "Struct"
  | none =>
      let base := (n.enumeration? written).getD written
      if arguments.isEmpty then leaf base "Basic"
      else
        let inner := ", ".intercalate (arguments.map ArgumentSketch.name)
        ⟨⟨s!"{base}<{inner}>", "Basic"⟩, arguments.flatMap ArgumentSketch.asked⟩

/-- A path, given its name, its last name and the arguments of that. -/
def atPath (n : Names) (written last : String) (arguments : List ArgumentSketch) : Sketch :=
  match arguments.filterMap ArgumentSketch.type? with
  | [element] =>
      if Lowering.pointerNames.contains last then
        element.around "Pointer" fun n => s!"{written}<{n}>"
      else if Lowering.sliceNames.contains last then
        element.around "Slice" fun n => s!"{written}<{n}>"
      else named n written arguments
  | key :: value :: _ =>
      if Lowering.mapNames.contains last then mapBetween written key value
      else named n written arguments
  | [] => named n written arguments

end Sketch

namespace Lowering

mutual

/-- What a type as written is in the catalog, its number apart. -/
def sketch (n : Names) : Ty → Sketch
  | .parenthesized t => sketch n t
  | .reference l m (.slice e) =>
      (sketch n e).around "Slice" fun n => s!"{referenceSign l m}[{n}]"
  | .reference l m t =>
      if isString t then .leaf (Ty.reference l m t).displayName "Basic"
      else (sketch n t).around "Pointer" fun n => referenceSign l m ++ n
  | .slice e => (sketch n e).around "Slice" fun n => s!"[{n}]"
  | .array e length =>
      (sketch n e).around "Slice" fun name =>
        s!"[{name}; {TypeName.ofLexemes (pieceLexemes length)}]"
  | .path p =>
      match p.last? with
      | some last => .atPath n p.displayName last.name (pathSketches n p)
      | none => .leaf p.displayName "Unknown"
  | .tuple [] _ => .leaf "()" "Basic"
  | .tuple (t :: ts) trailing => .leaf (Ty.tuple (t :: ts) trailing).displayName "Unknown"
  | .traitObject ps => .leaf (Ty.traitObject ps).displayName "Interface"
  | .implTrait ps => .leaf (Ty.implTrait ps).displayName "Interface"
  | .qualified s d p => .leaf (Ty.qualified s d p).displayName "Unknown"
  | .other ps => .leaf (Ty.other ps).displayName "Unknown"

/-- The arguments of the last name of a path. -/
def pathSketches (n : Names) : Path → List ArgumentSketch
  | .mk _ segments => lastSketches n segments

/-- The arguments of the last of some names. -/
def lastSketches (n : Names) : List Segment → List ArgumentSketch
  | [] => []
  | [s] => segmentSketches n s
  | _ :: rest => lastSketches n rest

/-- The arguments of a name. -/
def segmentSketches (n : Names) : Segment → List ArgumentSketch
  | .mk _ (.angled _ items _) => listSketches n items
  | .mk _ .none => []
  | .mk _ (.called _) => []

/-- Generic arguments. -/
def listSketches (n : Names) : List Source.Argument → List ArgumentSketch
  | [] => []
  | a :: rest => oneSketch n a :: listSketches n rest

/-- A generic argument. -/
def oneSketch (n : Names) : Source.Argument → ArgumentSketch
  | .type t => .type (sketch n t)
  | .lifetime l => .text (TypeName.ofLexemes (Source.Argument.lifetime l).lexemes)
  | .other ps => .text (TypeName.ofLexemes (pieceLexemes ps))

end

end Lowering

/-! ## Catalogs to which types are added -/

namespace Catalog

/-- A type of the catalog without its number. -/
def viewOf (c : Catalog) (id : TypeId) : Option TypeView := (c.type? id).map TypeInfo.view

/-- Types keep their numbers. -/
def KeepsTypes (c c' : Catalog) : Prop := ∀ id t, c.type? id = some t → c'.type? id = some t

/-- A type that is known looks the same. -/
lemma KeepsTypes.viewOf {c c' : Catalog} (h : KeepsTypes c c') {id : TypeId} {v : TypeView}
    (hv : c.viewOf id = some v) : c'.viewOf id = some v := by
  obtain ⟨t, ht, rfl⟩ := Option.map_eq_some_iff.1 hv
  rw [Catalog.viewOf, h id t ht, Option.map_some]

/-- Types may be new, everything else is the same. -/
structure AddsTypes (c c' : Catalog) : Prop where
  structs : c'.structs = c.structs
  structPaths : c'.structPaths = c.structPaths
  stringers : c'.stringers = c.stringers
  functions : c'.functions = c.functions
  types : KeepsTypes c c'

namespace AddsTypes

variable {c c' c'' : Catalog}

lemma refl (c : Catalog) : AddsTypes c c := ⟨rfl, rfl, rfl, rfl, fun _ _ h => h⟩

lemma trans (h : AddsTypes c c') (h' : AddsTypes c' c'') : AddsTypes c c'' where
  structs := h'.structs.trans h.structs
  structPaths := h'.structPaths.trans h.structPaths
  stringers := h'.stringers.trans h.stringers
  functions := h'.functions.trans h.functions
  types id t ht := h'.types id t (h.types id t ht)

lemma struct? (h : AddsTypes c c') (id : StructId) : c'.struct? id = c.struct? id := by
  rw [Catalog.struct?, Catalog.struct?, h.structs]

lemma intern (c : Catalog) (name : String) (shape : Shape) :
    AddsTypes c (c.intern name shape).2 := by
  have htypes : KeepsTypes c (c.intern name shape).2 := fun _ _ ht => type?_intern ht name shape
  rw [Catalog.intern] at htypes ⊢
  split at htypes
  · exact refl c
  · exact ⟨rfl, rfl, rfl, rfl, htypes⟩

end AddsTypes

/-- A catalog that the loader comes to from another when only these types were asked for. -/
structure Holds (d : Catalog) (known : List TypeView) (c : Catalog) : Prop where
  structPaths : c.structPaths = d.structPaths
  structs : ∀ id, (c.struct? id).map StructInfo.path = (d.struct? id).map StructInfo.path
  sound : c.Sound
  names : c.NamesMatch
  known : ∀ id v, c.viewOf id = some v → v ∈ known

namespace Holds

variable {d c : Catalog} {known : List TypeView}

lemma structPath? (h : Holds d known c) (s : Scope) (path : String) :
    s.structPath? c path = s.structPath? d path := by
  have hids : c.structIdAtPath? = d.structIdAtPath? := by
    funext written
    rw [structIdAtPath?, structIdAtPath?, h.structPaths]
  rw [Scope.structPath?, Scope.structPath?, Scope.struct?, Scope.struct?, hids]
  exact Option.bind_congr fun id _ => h.structs id

lemma knows {id : TypeId} {v : TypeView} (hv : c.viewOf id = some v) : c.Knows (.type id) := by
  obtain ⟨t, ht, -⟩ := Option.map_eq_some_iff.1 hv
  exact knows_type_iff.2 ⟨t, ht⟩

lemma nameOf {id : TypeId} {v : TypeView} (hv : c.viewOf id = some v) : c.nameOf id = v.name := by
  obtain ⟨t, ht, rfl⟩ := Option.map_eq_some_iff.1 hv
  rw [Catalog.nameOf, ht]
  rfl

/-- **A type that is asked for is of the kind that its name is for.** -/
lemma intern (h : Holds d known c) (oneKind : OneKind known) {name : String} {shape : Shape}
    (hview : ⟨name, shape.kind⟩ ∈ known) (hparts : ∀ n ∈ shape.numbers, c.Knows n) :
    Holds d known (c.intern name shape).2
      ∧ (c.intern name shape).2.viewOf (c.intern name shape).1 = some ⟨name, shape.kind⟩ := by
  have hadds := AddsTypes.intern c name shape
  cases hname : c.typeNamed? name with
  | some id =>
      rw [intern_of_known hname]
      obtain ⟨s, hs⟩ := h.names.known name id hname
      have hold : c.viewOf id = some ⟨name, s.kind⟩ := by rw [Catalog.viewOf, hs]; rfl
      refine ⟨h, ?_⟩
      rw [hold, oneKind _ (h.known id _ hold) _ hview rfl]
  | none =>
      have htype := type?_intern_of_none hname shape
      refine ⟨⟨hadds.structPaths.trans h.structPaths, fun id => ?_,
        (Extends.of_intern name shape).sound h.sound hparts, h.names.intern name shape,
        fun id v hv => ?_⟩, ?_⟩
      · rw [← h.structs id, hadds.struct?]
      · rw [Catalog.viewOf, htype] at hv
        split at hv
        · rw [← Option.some.inj hv]
          exact hview
        · exact h.known id v hv
      · rw [Catalog.viewOf, htype, Catalog.intern, hname, if_pos rfl]
        rfl

end Holds

end Catalog

/-! ## Computations that find what a sketch says -/

namespace Lowering

/-- A computation finds a type as its sketch says, if nothing but what is known is asked for. -/
structure Draws (d : Catalog) (known : List TypeView) (m : Lowering TypeId) (s : Sketch) :
    Prop where
  adds : ∀ c, AddsTypes c (m c).2
  finds : s.asked ⊆ known → ∀ c, Holds d known c →
    Holds d known (m c).2 ∧ (m c).2.viewOf (m c).1 = some s.type

/-- A generic argument is found as its sketch says. -/
def Argument.Drawn (d : Catalog) (known : List TypeView) : Argument → ArgumentSketch → Prop
  | .type find, .type s => Draws d known find s
  | .text t, .text t' => t' = t
  | _, _ => False

section

variable {d : Catalog} {known : List TypeView} (oneKind : OneKind known)

include oneKind

lemma draws_intern (name : String) {shape : Shape} (hshape : shape.numbers = []) :
    Draws d known (intern name shape) (.leaf name shape.kind) where
  adds c := .intern c name shape
  finds hknown _ hc := hc.intern oneKind (hknown (List.mem_singleton_self _)) (by simp [hshape])

lemma Draws.around {find : Lowering TypeId} {s : Sketch} (h : Draws d known find s)
    (shape : TypeId → Shape) {kind : String} (hkind : ∀ id, (shape id).kind = kind)
    (hshape : ∀ id, (shape id).numbers = [.type id]) (name : String → String) :
    Draws d known (around find shape name) (s.around kind name) where
  adds c := (h.adds c).trans (.intern _ _ _)
  finds hknown c hc := by
    obtain ⟨hinside, htype⟩ := List.append_subset.1 hknown
    obtain ⟨hfind, hview⟩ := h.finds hinside c hc
    have hmem : ⟨name ((find c).2.nameOf (find c).1), (shape (find c).1).kind⟩ ∈ known := by
      rw [Holds.nameOf hview, hkind]
      exact htype (List.mem_singleton_self _)
    obtain ⟨hholds, hself⟩ := hfind.intern oneKind hmem (by simp [hshape, Holds.knows hview])
    refine ⟨hholds, hself.trans ?_⟩
    rw [Holds.nameOf hview, hkind]
    rfl

lemma Draws.mapBetween {key value : Lowering TypeId} {k v : Sketch} (hkey : Draws d known key k)
    (hvalue : Draws d known value v) (written : String) :
    Draws d known (mapBetween written key value) (.mapBetween written k v) where
  adds c := (hkey.adds c).trans ((hvalue.adds _).trans (.intern _ _ _))
  finds hknown c hc := by
    obtain ⟨hinside, htype⟩ := List.append_subset.1 hknown
    obtain ⟨hk, hv⟩ := List.append_subset.1 hinside
    obtain ⟨hfirst, hkeyView⟩ := hkey.finds hk c hc
    obtain ⟨hsecond, hvalueView⟩ := hvalue.finds hv _ hfirst
    -- The key looks the same when the value has been found as well.
    have hkeyView := (hvalue.adds (key c).2).types.viewOf hkeyView
    have hname : s!"{written}<{(value (key c).2).2.nameOf (key c).1}, {
        (value (key c).2).2.nameOf (value (key c).2).1}>"
          = s!"{written}<{k.type.name}, {v.type.name}>" := by
      rw [Holds.nameOf hkeyView, Holds.nameOf hvalueView]
    have hmem : ⟨s!"{written}<{(value (key c).2).2.nameOf (key c).1}, {
        (value (key c).2).2.nameOf (value (key c).2).1}>",
          (Shape.map (key c).1 (value (key c).2).1).kind⟩ ∈ known := by
      rw [hname]
      exact htype (List.mem_singleton_self _)
    have hparts : ∀ n ∈ (Shape.map (key c).1 (value (key c).2).1).numbers,
        (value (key c).2).2.Knows n := by
      simp [Shape.numbers, Shape.parts, Shape.struct?, Holds.knows hkeyView, Holds.knows hvalueView]
    obtain ⟨hholds, hself⟩ := hsecond.intern oneKind hmem hparts
    refine ⟨hholds, hself.trans ?_⟩
    rw [hname]
    rfl

omit oneKind in
lemma Argument.Drawn.name {a : Argument} {s : ArgumentSketch} (h : a.Drawn d known s) :
    (∀ c, AddsTypes c (a.name c).2)
      ∧ (s.asked ⊆ known → ∀ c, Holds d known c →
          Holds d known (a.name c).2 ∧ (a.name c).1 = s.name) := by
  cases a with
  | type find =>
      cases s with
      | text t => exact h.elim
      | type s =>
          have hdraws : Draws d known find s := h
          refine ⟨hdraws.adds, fun hknown c hc => ?_⟩
          obtain ⟨hholds, hview⟩ := hdraws.finds hknown c hc
          exact ⟨hholds, Holds.nameOf hview⟩
  | text t =>
      cases s with
      | type s => exact h.elim
      | text t' => exact ⟨fun c => .refl c, fun _ c hc => ⟨hc, h.symm⟩⟩

omit oneKind in
/-- The names of arguments. -/
lemma names_of_drawn {arguments : List Argument} {sketches : List ArgumentSketch}
    (h : List.Forall₂ (Argument.Drawn d known) arguments sketches) :
    (∀ c, AddsTypes c (arguments.mapM Argument.name c).2)
      ∧ (sketches.flatMap ArgumentSketch.asked ⊆ known → ∀ c, Holds d known c →
          Holds d known (arguments.mapM Argument.name c).2
            ∧ (arguments.mapM Argument.name c).1 = sketches.map ArgumentSketch.name) := by
  induction h with
  | nil =>
      rw [List.mapM_nil]
      exact ⟨fun c => .refl c, fun _ c hc => ⟨hc, rfl⟩⟩
  | @cons a s arguments sketches ha _ ih =>
      obtain ⟨hadds, hname⟩ := ha.name
      rw [List.mapM_cons]
      refine ⟨fun c => (hadds c).trans (ih.1 _), fun hknown c hc => ?_⟩
      rw [List.flatMap_cons] at hknown
      obtain ⟨hfirst, hrest⟩ := List.append_subset.1 hknown
      obtain ⟨hholds, hn⟩ := hname hfirst c hc
      obtain ⟨hholds', hns⟩ := ih.2 hrest _ hholds
      refine ⟨hholds', ?_⟩
      change (a.name c).1 :: (arguments.mapM Argument.name (a.name c).2).1 = _
      rw [hn, hns, List.map_cons]

omit oneKind in
/-- The types among arguments. -/
lemma types_of_drawn {arguments : List Argument} {sketches : List ArgumentSketch}
    (h : List.Forall₂ (Argument.Drawn d known) arguments sketches) :
    List.Forall₂ (Draws d known) (arguments.filterMap Argument.type?)
      (sketches.filterMap ArgumentSketch.type?) := by
  refine List.rel_filterMap (fun a s ha => ?_) h
  cases a <;> cases s
  case type.type => exact .some ha
  case text.text => exact .none
  all_goals exact ha.elim

lemma draws_named (scope : Scope) (written : String) {arguments : List Argument}
    {sketches : List ArgumentSketch}
    (h : List.Forall₂ (Argument.Drawn d known) arguments sketches) :
    Draws d known (named scope written arguments) (.named (scope.names d) written sketches) := by
  obtain ⟨hadds, hnames⟩ := names_of_drawn h
  refine ⟨fun c => ?_, fun hknown c hc => ?_⟩
  · cases hs : scope.structPath? c written with
    | some path =>
        obtain ⟨id, -, hfound⟩ := named_of_structPath hs arguments
        rw [hfound]
        exact .intern c _ _
    | none =>
        rw [named_of_structPath_none hs]
        split
        · exact .intern c _ _
        · exact (hadds c).trans (.intern _ _ _)
  · have hpath := hc.structPath? scope written
    rw [Sketch.named, Scope.names] at hknown ⊢
    dsimp only at hknown ⊢
    cases hs : scope.structPath? d written with
    | some path =>
        rw [hs] at hknown
        obtain ⟨id, hid, hfound⟩ := named_of_structPath (hpath.trans hs) arguments
        rw [hfound]
        exact hc.intern oneKind (hknown (List.mem_singleton_self _))
          (by simp [Shape.numbers, Shape.parts, Shape.struct?, hid])
    | none =>
        rw [hs] at hknown
        rw [named_of_structPath_none (hpath.trans hs)]
        cases h with
        | nil =>
            exact hc.intern oneKind (hknown (List.mem_singleton_self _)) (List.forall_mem_nil _)
        | @cons a s arguments sketches ha hrest =>
            dsimp only [List.isEmpty_cons] at hknown ⊢
            rw [if_neg Bool.false_ne_true] at hknown ⊢
            rw [if_neg Bool.false_ne_true]
            obtain ⟨hinside, htype⟩ := List.append_subset.1 hknown
            obtain ⟨hholds, hn⟩ := hnames hinside c hc
            have hmem : ⟨(scope.enumeration? written).getD written ++ "<"
                ++ ", ".intercalate ((a :: arguments).mapM Argument.name c).1 ++ ">",
                  Shape.basic.kind⟩ ∈ known := by
              rw [hn]
              exact htype (List.mem_singleton_self _)
            obtain ⟨hafter, hself⟩ := hholds.intern oneKind hmem (List.forall_mem_nil _)
            refine ⟨hafter, hself.trans ?_⟩
            rw [hn]
            rfl

end

/-! ## Types -/

lemma listSketches_eq_map (n : Names) (items : List Source.Argument) :
    listSketches n items = items.map (oneSketch n) := by
  induction items with
  | nil => rw [listSketches, List.map_nil]
  | cons i items ih => rw [listSketches, ih, List.map_cons]

/-- The sketches of a path's arguments are those of its last name, one by one. -/
lemma pathSketches_eq_map (n : Names) : ∀ {p : Path} {s : Segment}, p.last? = some s →
    pathSketches n p = s.arguments.items.map (oneSketch n)
  | .mk _ _, _, hs => by
      have hsingle : ∀ s, lastSketches n [s] = s.arguments.items.map (oneSketch n) := by
        rintro ⟨name, a⟩
        rw [lastSketches]
        cases a with
        | angled turbofish items trailing =>
            rw [segmentSketches]
            exact listSketches_eq_map n items
        | none | called =>
            rw [segmentSketches]
            rfl
      have hbehind : ∀ s t rest, lastSketches n (s :: t :: rest) = lastSketches n (t :: rest) := by
        intro s t rest
        rw [lastSketches]
        exact fun h => List.cons_ne_nil t rest h
      rw [pathSketches]
      exact eq_of_getLast? hsingle hbehind hs

/-- Arguments are as their sketches say if the types among them are. -/
lemma forall₂_pathSketches {R : Argument → ArgumentSketch → Prop} {scope : Scope} {n : Names}
    {p : Path} {s : Segment} (hs : p.last? = some s) (text : ∀ t, R (.text t) (.text t))
    (types : ∀ t ∈ s.arguments.types, R (.type (type scope t)) (.type (sketch n t))) :
    List.Forall₂ R (pathArguments scope p) (pathSketches n p) := by
  rw [pathArguments_eq_map scope hs, pathSketches_eq_map n hs, List.forall₂_map_left_iff,
    List.forall₂_map_right_iff, List.forall₂_same]
  intro i hi
  cases i with
  | type t =>
      rw [oneArgument, oneSketch]
      exact types t (Arguments.mem_types.2 hi)
  | lifetime l =>
      rw [oneArgument, oneSketch]
      exact text _
  | other ps =>
      rw [oneArgument, oneSketch]
      exact text _

lemma sketch_reference (n : Names) {l : Option String} {m : Bool} {t : Ty}
    (h : ∀ e, t ≠ .slice e) :
    sketch n (.reference l m t)
      = if isString t then .leaf (Ty.reference l m t).displayName "Basic"
        else (sketch n t).around "Pointer" fun n => referenceSign l m ++ n := by
  rw [sketch]
  exact h

section

variable {d : Catalog} {known : List TypeView} (oneKind : OneKind known)

include oneKind

/-- **A path is found as its sketch says.** -/
lemma draws_atPath (scope : Scope) (written last : String) {arguments : List Argument}
    {sketches : List ArgumentSketch}
    (h : List.Forall₂ (Argument.Drawn d known) arguments sketches) :
    Draws d known (atPath scope written last arguments)
      (.atPath (scope.names d) written last sketches) := by
  have hnamed := draws_named oneKind scope written h
  have htypes := types_of_drawn h
  rw [atPath, Sketch.atPath]
  generalize arguments.filterMap Argument.type? = types at htypes ⊢
  generalize sketches.filterMap ArgumentSketch.type? = typeSketches at htypes ⊢
  cases htypes with
  | nil => exact hnamed
  | @cons element e _ _ helement hrest =>
      cases hrest with
      | nil =>
          dsimp only
          split
          · exact helement.around oneKind .pointer (fun _ => rfl) (fun _ => rfl) _
          · split
            · exact helement.around oneKind .slice (fun _ => rfl) (fun _ => rfl) _
            · exact hnamed
      | cons hvalue _ =>
          dsimp only
          split
          · exact helement.mapBetween oneKind hvalue written
          · exact hnamed

end

/-- **A type is found as its sketch says.** -/
theorem draws_type {d : Catalog} {known : List TypeView} (oneKind : OneKind known) (scope : Scope)
    (t : Ty) : Draws d known (type scope t) (sketch (scope.names d) t) := by
  induction t using Ty.form_induction with
  | parenthesized t ih =>
      rw [type, sketch]
      exact ih
  | sliceReference l m e ih | slice e ih | array e n ih =>
      rw [type, sketch]
      exact ih.around oneKind .slice (fun _ => rfl) (fun _ => rfl) _
  | reference l m t hslice ih =>
      rw [type_reference hslice, sketch_reference _ hslice]
      split
      · exact draws_intern oneKind _ rfl
      · exact ih.around oneKind .pointer (fun _ => rfl) (fun _ => rfl) _
  | path p ih =>
      rw [type, sketch]
      cases hlast : p.last? with
      | some s =>
          exact draws_atPath oneKind scope _ _
            (forall₂_pathSketches hlast (fun _ => rfl) (ih s hlast))
      | none => exact draws_intern oneKind _ rfl
  | unit | tuple | traitObject | implTrait | qualified | other =>
      rw [type, sketch]
      exact draws_intern oneKind _ rfl

/-- Finding a type adds types only. -/
lemma addsTypes_type (scope : Scope) (t : Ty) (c : Catalog) : AddsTypes c (type scope t c).2 :=
  (draws_type (d := .empty) (List.forall_mem_nil _) scope t).adds c

end Lowering

end FieldCopy
