import Mathlib
import FieldCopy.Proofs.Catalog.Pointers
import FieldCopy.Proofs.ItemOrder.Sketches

/-!
# The names that types are asked for by

A type as written is asked for by one name, which follows from what the paths in it lead to and not
from what the catalog knows already.  So its number can be asked for again at any time.

**Calls.**  A computation calls a type by a name if it only adds to the catalog and gives the number
that the name then has (`Lowering.Calls`).  No condition on the text of the name is needed.

**Pointers are named after what they point to:** with the sign of a reference in front, or in the
angle brackets of a wrapper that is known by its last name (`PointerName`).  Asking for types keeps
this of all pointers of a catalog (`Catalog.PointersNamed`).

**Main statement.**  `Lowering.calls_type`: every type is called by the name of its sketch, by
recursion over the type.
-/

namespace FieldCopy

open Source Catalog

/-! ## The names of pointers -/

/-- The name of a pointer to a type of this name. -/
inductive PointerName (inner : String) : String → Prop where
  | reference (lifetime : Option String) (mutable : Bool) :
      PointerName inner (Lowering.referenceSign lifetime mutable ++ inner)
  | wrapper (front : List String) {word : String} (known : word ∈ Lowering.pointerNames) :
      PointerName inner s!"{ModulePath.join (front ++ [word])}<{inner}>"

namespace Catalog

/-- A name and a shape that a type can be asked for with: a pointer is named after a known type. -/
def Names (c : Catalog) (name : String) (shape : Shape) : Prop :=
  ∀ element, shape = .pointer element →
    ∃ inner, c.typeNamed? inner = some element ∧ PointerName inner name

/-- All pointers are named after what they point to. -/
def PointersNamed (c : Catalog) : Prop :=
  ∀ a b, c.Points a b → ∃ t, c.type? b = some t ∧ PointerName t.name (c.nameOf a)

lemma PointersNamed.intern {c : Catalog} (h : c.PointersNamed) (wellNamed : c.WellNamed)
    {name : String} {shape : Shape} (names : c.Names name shape) :
    (c.intern name shape).2.PointersNamed := by
  cases hname : c.typeNamed? name with
  | some id =>
      rw [Catalog.intern, hname]
      exact h
  | none =>
      have htype := type?_intern_of_none hname shape
      rintro a b ⟨t, ht, hshape⟩
      have hkept : ∀ {id s}, c.type? id = some s → (c.intern name shape).2.type? id = some s :=
        fun hid => type?_intern hid name shape
      rw [Catalog.nameOf, ht, Option.map_some, Option.getD_some]
      rw [htype] at ht
      split at ht
      · obtain rfl := Option.some.inj ht
        obtain ⟨inner, hinner, hpointer⟩ := names b hshape
        obtain ⟨s, hs⟩ := wellNamed inner b hinner
        exact ⟨_, hkept hs, hpointer⟩
      · obtain ⟨s, hs, hpointer⟩ := h a b ⟨t, ht, hshape⟩
        rw [Catalog.nameOf, ht, Option.map_some, Option.getD_some] at hpointer
        exact ⟨s, hkept hs, hpointer⟩

/-- What is known of structures and functions does not matter to the names of pointers. -/
lemma PointersNamed.alike {c c' : Catalog} (h : c.PointersNamed) (same : Alike c c') :
    c'.PointersNamed := by
  rintro a b ⟨t, ht, hshape⟩
  rw [same.type?] at ht
  obtain ⟨s, hs, hpointer⟩ := h a b ⟨t, ht, hshape⟩
  refine ⟨s, (same.type? b).trans hs, ?_⟩
  rwa [Catalog.nameOf, same.type?, ← Catalog.nameOf]

end Catalog

namespace Source

/-- The name of a path ends with its last name. -/
lemma Path.exists_displayName {p : Path} {last : Segment} (h : p.last? = some last) :
    ∃ front, p.displayName = ModulePath.join (front ++ [last.name]) := by
  have hlast : p.shorten.segments.getLast? = some last := by
    rw [Path.last?] at h
    rw [Path.shorten]
    split
    · rename_i first second third heq
      rw [heq] at h
      split
      · exact h
      · rw [heq]
        exact h
    · exact h
  obtain ⟨front, hfront⟩ := List.getLast?_eq_some_iff.1 hlast
  refine ⟨front.map Segment.name, ?_⟩
  rw [Path.displayName, hfront, List.map_append]
  rfl

end Source

namespace Lowering

/-! ## Computations that call a type by a name -/

/-- A computation calls a type by a name: it only adds to the catalog, gives the number of the name,
and names pointers after what they point to. -/
structure Calls (c₀ : Catalog) (m : Lowering TypeId) (name : String) : Prop where
  adds : Adds m
  number : ∀ c, GrowsTo c₀ c → (m c).2.typeNamed? name = some (m c).1
  pointers : ∀ c, GrowsTo c₀ c → c.PointersNamed → (m c).2.PointersNamed

/-- A generic argument is called by the name of its sketch. -/
def Argument.CalledAs (c₀ : Catalog) : Argument → ArgumentSketch → Prop
  | .type find, .type s => Calls c₀ find s.type.name
  | .text t, .text t' => t' = t
  | _, _ => False

section

variable {c₀ : Catalog} (wellNamed : c₀.WellNamed)

include wellNamed

/-- A type without an element is asked for by its name. -/
lemma calls_intern (name : String) {shape : Shape} (hshape : ∀ e, shape ≠ .pointer e) :
    Calls c₀ (intern name shape) name where
  adds := .intern name shape
  number c _ := c.typeNamed?_intern_self name shape
  pointers _ hc hnamed :=
    hnamed.intern (hc.wellNamed wellNamed) fun e he => absurd he (hshape e)

/-- What is called by a name has that name. -/
lemma Calls.nameOf {m : Lowering TypeId} {name : String} (h : Calls c₀ m name) {c : Catalog}
    (hc : GrowsTo c₀ c) : (m c).2.nameOf (m c).1 = name :=
  WellNamed.nameOf ((hc.trans (h.adds c)).wellNamed wellNamed) (h.number c hc)

/-- A type around another is called by the name around that of the other. -/
lemma Calls.around {find : Lowering TypeId} {inner : String} (h : Calls c₀ find inner)
    (shape : TypeId → Shape) (name : String → String)
    (hshape : ∀ id e, shape id = .pointer e → id = e ∧ PointerName inner (name inner)) :
    Calls c₀ (Lowering.around find shape name) (name inner) := by
  have hrun : ∀ c, GrowsTo c₀ c →
      Lowering.around find shape name c
        = (find c).2.intern (name inner) (shape (find c).1) := by
    intro c hc
    rw [← h.nameOf wellNamed hc]
    rfl
  refine ⟨.bind h.adds fun _ => .bind .get fun _ => .intern _ _, fun c hc => ?_,
    fun c hc hnamed => ?_⟩
  · rw [hrun c hc]
    exact (find c).2.typeNamed?_intern_self _ _
  · rw [hrun c hc]
    refine (h.pointers c hc hnamed).intern ((hc.trans (h.adds c)).wellNamed wellNamed) ?_
    intro e he
    obtain ⟨rfl, hpointer⟩ := hshape _ _ he
    exact ⟨inner, h.number c hc, hpointer⟩

/-- A slice is called by the name around that of its elements. -/
lemma Calls.slice {find : Lowering TypeId} {inner : String} (h : Calls c₀ find inner)
    (name : String → String) : Calls c₀ (Lowering.around find .slice name) (name inner) :=
  h.around wellNamed .slice name fun _ _ he => absurd he (by simp)

/-- A pointer is called by a name that fits it. -/
lemma Calls.pointer {find : Lowering TypeId} {inner : String} (h : Calls c₀ find inner)
    (name : String → String) (hname : PointerName inner (name inner)) :
    Calls c₀ (Lowering.around find .pointer name) (name inner) :=
  h.around wellNamed .pointer name fun _ _ he => ⟨Shape.pointer.inj he, hname⟩

/-- A map is called by the name with those of its key and its value. -/
lemma Calls.mapBetween {key value : Lowering TypeId} {k v : String} (hkey : Calls c₀ key k)
    (hvalue : Calls c₀ value v) (written : String) :
    Calls c₀ (Lowering.mapBetween written key value) s!"{written}<{k}, {v}>" := by
  have hrun : ∀ c, GrowsTo c₀ c → Lowering.mapBetween written key value c
      = (value (key c).2).2.intern s!"{written}<{k}, {v}>"
          (.map (key c).1 (value (key c).2).1) := by
    intro c hc
    have hkey' := hc.trans (hkey.adds c)
    have hvalue' := hkey'.trans (hvalue.adds (key c).2)
    -- The key is known under its name when the value has been found as well.
    have hk : (value (key c).2).2.nameOf (key c).1 = k :=
      WellNamed.nameOf (hvalue'.wellNamed wellNamed)
        ((hvalue.adds (key c).2).known _ _ (hkey.number c hc))
    have hv := hvalue.nameOf wellNamed hkey'
    change (value (key c).2).2.intern s!"{written}<{(value (key c).2).2.nameOf (key c).1}, {
      (value (key c).2).2.nameOf (value (key c).2).1}>" _ = _
    rw [hk, hv]
  refine ⟨.bind hkey.adds fun _ => .bind hvalue.adds fun _ => .bind .get fun _ => .intern _ _,
    fun c hc => ?_, fun c hc hnamed => ?_⟩
  · rw [hrun c hc]
    exact (value (key c).2).2.typeNamed?_intern_self _ _
  · rw [hrun c hc]
    have hkey' := hc.trans (hkey.adds c)
    exact (hvalue.pointers _ hkey' (hkey.pointers c hc hnamed)).intern
      ((hkey'.trans (hvalue.adds _)).wellNamed wellNamed) fun e he => absurd he (by simp)

/-- The names of arguments, and what finding them does. -/
lemma names_of_calledAs {arguments : List Argument} {sketches : List ArgumentSketch}
    (h : List.Forall₂ (Argument.CalledAs c₀) arguments sketches) :
    Adds (arguments.mapM Argument.name)
      ∧ ∀ c, GrowsTo c₀ c →
        (arguments.mapM Argument.name c).1 = sketches.map ArgumentSketch.name
          ∧ (c.PointersNamed → (arguments.mapM Argument.name c).2.PointersNamed) := by
  induction h with
  | nil =>
      rw [List.mapM_nil]
      exact ⟨.pure [], fun _ _ => ⟨rfl, id⟩⟩
  | @cons a s arguments sketches ha _ ih =>
      have hname : Adds a.name ∧ ∀ c, GrowsTo c₀ c →
          (a.name c).1 = s.name ∧ (c.PointersNamed → (a.name c).2.PointersNamed) := by
        cases a with
        | type find =>
            cases s with
            | text t => exact ha.elim
            | type s =>
                have hcalls : Calls c₀ find s.type.name := ha
                exact ⟨.bind hcalls.adds fun _ => .bind .get fun _ => .pure _,
                  fun c hc => ⟨hcalls.nameOf wellNamed hc, hcalls.pointers c hc⟩⟩
        | text t =>
            cases s with
            | type s => exact ha.elim
            | text t' =>
                have htext : t' = t := ha
                exact ⟨.pure t, fun _ _ => ⟨htext.symm, id⟩⟩
      rw [List.mapM_cons]
      refine ⟨.bind hname.1 fun _ => .bind ih.1 fun _ => .pure _, fun c hc => ?_⟩
      obtain ⟨hfirst, hpointers⟩ := hname.2 c hc
      obtain ⟨hrest, hpointers'⟩ := ih.2 _ (hc.trans (hname.1 c))
      refine ⟨?_, fun hnamed => hpointers' (hpointers hnamed)⟩
      change (a.name c).1 :: (arguments.mapM Argument.name (a.name c).2).1 = _
      rw [hfirst, hrest, List.map_cons]

omit wellNamed in
/-- The types among arguments. -/
lemma types_of_calledAs {arguments : List Argument} {sketches : List ArgumentSketch}
    (h : List.Forall₂ (Argument.CalledAs c₀) arguments sketches) :
    List.Forall₂ (fun find s => Calls c₀ find s.type.name) (arguments.filterMap Argument.type?)
      (sketches.filterMap ArgumentSketch.type?) := by
  refine List.rel_filterMap (fun a s ha => ?_) h
  cases a <;> cases s
  case type.type => exact .some ha
  case text.text => exact .none
  all_goals exact ha.elim

/-! ## Paths -/

/-- A path that leads to no wrapper is called by the name of its sketch. -/
lemma calls_named (scope : Scope) (written : String) {arguments : List Argument}
    {sketches : List ArgumentSketch}
    (h : List.Forall₂ (Argument.CalledAs c₀) arguments sketches) :
    Calls c₀ (named scope written arguments)
      (Sketch.named (scope.names c₀) written sketches).type.name := by
  obtain ⟨hadds, hnames⟩ := names_of_calledAs wellNamed h
  have hrun : ∀ c, GrowsTo c₀ c → ∃ before shape, (∀ e, shape ≠ .pointer e) ∧ GrowsTo c₀ before
      ∧ (c.PointersNamed → before.PointersNamed)
      ∧ named scope written arguments c
        = before.intern (Sketch.named (scope.names c₀) written sketches).type.name shape := by
    intro c hc
    have hpath := scope.structPath?_of_growsTo hc written
    rw [Sketch.named, Scope.names]
    dsimp only
    cases hs : scope.structPath? c₀ written with
    | some path =>
        obtain ⟨number, -, hfound⟩ := named_of_structPath (hpath.trans hs) arguments
        exact ⟨c, .struct number, by simp, hc, id, hfound⟩
    | none =>
        rw [named_of_structPath_none (hpath.trans hs)]
        cases h with
        | nil => exact ⟨c, .basic, by simp, hc, id, rfl⟩
        | @cons a s arguments sketches ha hrest =>
            obtain ⟨hnamesEq, hpointers⟩ := hnames c hc
            refine ⟨_, .basic, by simp, hc.trans (hadds c), hpointers, ?_⟩
            dsimp only [List.isEmpty_cons]
            rw [if_neg Bool.false_ne_true, if_neg Bool.false_ne_true, ← hnamesEq]
            rfl
  refine ⟨adds_named scope written hadds, fun c hc => ?_, fun c hc hnamed => ?_⟩
  · obtain ⟨before, shape, -, -, -, hfound⟩ := hrun c hc
    rw [hfound]
    exact before.typeNamed?_intern_self _ _
  · obtain ⟨before, shape, hshape, hbefore, hpointers, hfound⟩ := hrun c hc
    rw [hfound]
    exact (hpointers hnamed).intern (hbefore.wellNamed wellNamed)
      fun e he => absurd he (hshape e)

/-- **A path is called by the name of its sketch.** -/
lemma calls_atPath (scope : Scope) {written last : String}
    (hwritten : ∃ front, written = ModulePath.join (front ++ [last])) {arguments : List Argument}
    {sketches : List ArgumentSketch}
    (h : List.Forall₂ (Argument.CalledAs c₀) arguments sketches) :
    Calls c₀ (atPath scope written last arguments)
      (Sketch.atPath (scope.names c₀) written last sketches).type.name := by
  have hnamed := calls_named wellNamed scope written h
  have htypes := types_of_calledAs h
  rw [atPath, Sketch.atPath]
  generalize arguments.filterMap Argument.type? = types at htypes ⊢
  generalize sketches.filterMap ArgumentSketch.type? = typeSketches at htypes ⊢
  cases htypes with
  | nil => exact hnamed
  | @cons element e _ _ helement hrest =>
      cases hrest with
      | nil =>
          dsimp only
          split
          · rename_i hpointer
            obtain ⟨front, rfl⟩ := hwritten
            exact helement.pointer wellNamed (fun n => s!"{ModulePath.join (front ++ [last])}<{n}>")
              (.wrapper front (by simpa using hpointer))
          · split
            · exact helement.slice wellNamed fun n => s!"{written}<{n}>"
            · exact hnamed
      | cons hvalue _ =>
          dsimp only
          split
          · exact helement.mapBetween wellNamed hvalue written
          · exact hnamed

end

/-! ## Types -/

/-- **A type is called by the name of its sketch.** -/
theorem calls_type {c₀ : Catalog} (wellNamed : c₀.WellNamed) (scope : Scope) (t : Ty) :
    Calls c₀ (type scope t) (sketch (scope.names c₀) t).type.name := by
  induction t using Ty.form_induction with
  | parenthesized t ih =>
      rw [type, sketch]
      exact ih
  | sliceReference l m e ih =>
      rw [type, sketch]
      exact ih.slice wellNamed fun n => s!"{referenceSign l m}[{n}]"
  | reference l m t hslice ih =>
      rw [type_reference hslice, sketch_reference _ hslice]
      split
      · exact calls_intern wellNamed _ (by simp)
      · exact ih.pointer wellNamed (fun n => referenceSign l m ++ n) (.reference l m)
  | slice e ih =>
      rw [type, sketch]
      exact ih.slice wellNamed fun n => s!"[{n}]"
  | array e n ih =>
      rw [type, sketch]
      exact ih.slice wellNamed fun name => s!"[{name}; {TypeName.ofLexemes (pieceLexemes n)}]"
  | path p ih =>
      rw [type, sketch]
      cases hlast : p.last? with
      | some s =>
          exact calls_atPath wellNamed scope (Path.exists_displayName hlast)
            (forall₂_pathSketches hlast (fun _ => rfl) (ih s hlast))
      | none => exact calls_intern wellNamed _ (by simp)
  | unit | tuple | traitObject | implTrait | qualified | other =>
      rw [type, sketch]
      exact calls_intern wellNamed _ (by simp)

end Lowering

end FieldCopy
