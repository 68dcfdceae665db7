import Mathlib
import FieldCopy.Proofs.Elements.Paths
import FieldCopy.Proofs.Loading.Traversal

/-!
# The names of stored types

A type is stored in the catalog under the name that it was asked for by, and with the shape that it
was asked for with.  So the name of a pointer is set together from that of the type it points to,
and the name of a slice from that of its elements (`Catalog.Spelled`).

**Where pointers lead.**  The name of a type from which pointers lead to a structure is a leading
name, and where they lead to a slice of structures it is that of a slice.

**Main statement.**  `SourceUnit.spelled_ofParsed`: the types of a loaded catalog are spelled like
this.
-/

namespace FieldCopy

open Source Catalog

open Lowering (referenceSign)

/-! ## Pointers and slices -/

namespace TypeText

/-- The name of a pointer to a type of this name. -/
inductive PointsTo (inner : String) : String → Prop where
  | reference {l : Option String} {m : Bool} (hl : ∀ n ∈ l, TypeForm.IsLifetimeName n.toList) :
      PointsTo inner (referenceSign l m ++ inner)
  | wrapper {p : String} (hp : IsWrapper Lowering.pointerNames p) : PointsTo inner s!"{p}<{inner}>"

/-- The name of a slice of elements of this name. -/
inductive ListsOf (inner : String) : String → Prop where
  | bracketed {s : String} (hs : Brackets inner s) : ListsOf inner s
  | referenced {l : Option String} {m : Bool} {s : String}
      (hl : ∀ n ∈ l, TypeForm.IsLifetimeName n.toList) (hs : Brackets inner s) :
      ListsOf inner (referenceSign l m ++ s)
  | list {p : String} (hp : IsWrapper Lowering.sliceNames p) : ListsOf inner s!"{p}<{inner}>"

variable {inner name : String}

lemma PointsTo.leading (h : PointsTo inner name) (hinner : Leading inner) : Leading name := by
  cases h with
  | reference hl => exact .reference hl hinner
  | wrapper hp => exact .wrapper hp hinner

variable {P : String → Prop}

lemma PointsTo.elemental (h : PointsTo inner name) (hinner : Elemental P inner) :
    Elemental P name := by
  cases h with
  | reference hl => exact .reference hl hinner
  | wrapper hp => exact .wrapper hp hinner

lemma ListsOf.elemental (h : ListsOf inner name) (hinner : P inner) : Elemental P name := by
  cases h with
  | bracketed hs => exact .bracketed hs hinner
  | referenced hl hs => exact .reference hl (.bracketed hs hinner)
  | list hp => exact .list hp hinner

end TypeText

/-! ## Catalogs -/

namespace Catalog

/-- A name and a shape that a type is asked for with. -/
def AskedFor (c : Catalog) (name : String) : Shape → Prop
  | .pointer e => ∃ inner, c.typeNamed? inner = some e ∧ TypeText.PointsTo inner name
  | .slice e => ∃ inner, c.typeNamed? inner = some e ∧ TypeText.ListsOf inner name
  | .struct _ => TypeText.IsPath name
  | _ => True

/-- All types have names that they can be asked for with. -/
def Spelled (c : Catalog) : Prop := ∀ a t, c.type? a = some t → c.AskedFor t.name t.shape

variable {c c' : Catalog}

lemma AskedFor.mono {name : String} {shape : Shape} (h : c.AskedFor name shape)
    (known : ∀ n id, c.typeNamed? n = some id → c'.typeNamed? n = some id) :
    c'.AskedFor name shape := by
  cases shape with
  | pointer e | slice e =>
      obtain ⟨inner, hinner, htext⟩ := h
      exact ⟨inner, known inner e hinner, htext⟩
  | struct d => exact h
  | basic | map k v | interface | unknown => trivial

namespace Spelled

lemma intern (h : c.Spelled) {name : String} {shape : Shape} (asked : c.AskedFor name shape) :
    (c.intern name shape).2.Spelled := by
  cases hname : c.typeNamed? name with
  | some id =>
      rw [intern_of_known hname]
      exact h
  | none =>
      intro a t ht
      rw [type?_intern_of_none hname] at ht
      have known := (GrowsTo.intern c name shape).known
      split at ht
      · obtain rfl := Option.some.inj ht
        exact asked.mono known
      · exact (h a t ht).mono known

/-- What is known of structures and functions does not matter to the names of types. -/
lemma alike (h : c.Spelled) (same : Alike c c') : c'.Spelled := by
  intro a t ht
  rw [same.type?] at ht
  exact (h a t ht).mono (GrowsTo.alike same).known

variable (spelled : c.Spelled) (wellNamed : c.WellNamed) {id : TypeId} {s : StructInfo}

include spelled wellNamed

/-- A pointer is named after what it points to. -/
lemma points {a b : TypeId} (h : c.Points a b) : TypeText.PointsTo (c.nameOf b) (c.nameOf a) := by
  obtain ⟨t, ht, hshape⟩ := h
  have hasked := spelled a t ht
  rw [hshape] at hasked
  obtain ⟨inner, hinner, htext⟩ := hasked
  rw [wellNamed.nameOf hinner, nameOf, ht]
  exact htext

/-- **A type from which pointers lead to a structure has a leading name.** -/
theorem leading (h : c.LeadsToStruct id s) : TypeText.Leading (c.nameOf id) := by
  obtain ⟨last, t, d, hleads, ht, hshape, -⟩ := h
  induction hleads using Relation.ReflTransGen.head_induction_on with
  | refl =>
      have hpath := spelled last t ht
      rw [hshape] at hpath
      rw [nameOf, ht]
      exact .path hpath
  | head hpoints _ ih => exact (spelled.points wellNamed hpoints).leading ih

/-- **A type from which pointers lead to a slice of structures** has the name of a slice, and its
elements are known by what their name says. -/
theorem elemental (h : c.LeadsToElements id s) :
    TypeText.Elemental (fun inner => ∃ e, c.typeNamed? inner = some e ∧ c.LeadsToStruct e s)
      (c.nameOf id) := by
  obtain ⟨last, t, e, hleads, ht, hshape, he⟩ := h
  induction hleads using Relation.ReflTransGen.head_induction_on with
  | refl =>
      have hslice := spelled last t ht
      rw [hshape] at hslice
      obtain ⟨inner, hinner, htext⟩ := hslice
      rw [nameOf, ht]
      exact htext.elemental ⟨e, hinner, he⟩
  | head hpoints _ ih => exact (spelled.points wellNamed hpoints).elemental ih

end Spelled

/-- A catalog that grew out of another and in which types have names that they can be asked for
with. -/
structure GrowsSpelled (c₀ c : Catalog) : Prop where
  grows : GrowsTo c₀ c
  spelled : c.Spelled

lemma GrowsSpelled.intern {c₀ c : Catalog} (h : GrowsSpelled c₀ c) {name : String} {shape : Shape}
    (asked : c.AskedFor name shape) : GrowsSpelled c₀ (c.intern name shape).2 :=
  ⟨h.grows.trans (.intern c name shape), h.spelled.intern asked⟩

end Catalog

/-! ## Types as written -/

namespace Lowering

/-- A type that is found under a name of its own and leaves types with names that they can be asked
for with. -/
structure Spells (c₀ : Catalog) (m : Lowering TypeId) : Prop where
  calls : ∃ name, Calls c₀ m name
  keeps : Keeps (GrowsSpelled c₀) m

/-- A generic argument that leaves types with such names, if it is a type. -/
def Argument.Spells (c₀ : Catalog) : Argument → Prop
  | .type find => Lowering.Spells c₀ find
  | .text _ => True

section

variable {c₀ : Catalog}

/-- A type without parts can be asked for with any name. -/
lemma keepsSpelled_intern (name : String) {shape : Shape} (hparts : shape.numbers = []) :
    Keeps (GrowsSpelled c₀) (intern name shape) := by
  refine fun c hc => hc.intern ?_
  cases shape with
  | pointer e | slice e | struct d =>
      exact absurd hparts (by simp [Shape.numbers, Shape.parts, Shape.struct?])
  | basic | map k v | interface | unknown => trivial

variable (wellNamed : c₀.WellNamed)

include wellNamed

/-- A type around another is asked for with the name around that of the other. -/
lemma Spells.around {find : Lowering TypeId} (h : Spells c₀ find) (shape : TypeId → Shape)
    (name : String → String)
    (asked : ∀ c inner id, Catalog.typeNamed? c inner = some id →
      c.AskedFor (name inner) (shape id)) :
    Keeps (GrowsSpelled c₀) (Lowering.around find shape name) := by
  intro c hc
  obtain ⟨inner, hcalls⟩ := h.calls
  have hrun : Lowering.around find shape name c
      = (find c).2.intern (name ((find c).2.nameOf (find c).1)) (shape (find c).1) := rfl
  rw [hrun, hcalls.nameOf wellNamed hc.grows]
  exact (h.keeps c hc).intern (asked _ inner _ (hcalls.number c hc.grows))

lemma Spells.pointer {find : Lowering TypeId} (h : Spells c₀ find) (name : String → String)
    (hname : ∀ inner, TypeText.PointsTo inner (name inner)) :
    Keeps (GrowsSpelled c₀) (Lowering.around find .pointer name) :=
  h.around wellNamed .pointer name fun _ inner _ hinner => ⟨inner, hinner, hname inner⟩

lemma Spells.slice {find : Lowering TypeId} (h : Spells c₀ find) (name : String → String)
    (hname : ∀ inner, TypeText.ListsOf inner (name inner)) :
    Keeps (GrowsSpelled c₀) (Lowering.around find .slice name) :=
  h.around wellNamed .slice name fun _ inner _ hinner => ⟨inner, hinner, hname inner⟩

omit wellNamed in
lemma Spells.mapBetween {key value : Lowering TypeId} (hkey : Spells c₀ key)
    (hvalue : Spells c₀ value) (written : String) :
    Keeps (GrowsSpelled c₀) (Lowering.mapBetween written key value) :=
  .bind hkey.keeps fun _ => .bind hvalue.keeps fun _ => .bind .get fun _ _ hc => hc.intern trivial

omit wellNamed in
/-- The names of arguments are found. -/
lemma keepsSpelled_names {arguments : List Argument} (h : ∀ a ∈ arguments, a.Spells c₀) :
    Keeps (GrowsSpelled c₀) (arguments.mapM Argument.name) := by
  refine .mapM fun a ha => ?_
  cases a with
  | type find => exact .bind (h _ ha : Spells c₀ find).keeps fun _ => .bind .get fun _ => .pure _
  | text t => exact .pure t

section

variable {scope : Scope}
  (isPath : ∀ written path, scope.structPath? c₀ written = some path → TypeText.IsPath path)

include isPath

omit wellNamed in
/-- A path that leads to no wrapper. -/
lemma keepsSpelled_named (written : String) {arguments : List Argument}
    (h : ∀ a ∈ arguments, a.Spells c₀) :
    Keeps (GrowsSpelled c₀) (named scope written arguments) := by
  intro c hc
  have hpath := scope.structPath?_of_growsTo hc.grows written
  cases hs : scope.structPath? c₀ written with
  | some path =>
      obtain ⟨number, -, hfound⟩ := named_of_structPath (hpath.trans hs) arguments
      rw [hfound]
      exact hc.intern (isPath written path hs)
  | none =>
      rw [named_of_structPath_none (hpath.trans hs)]
      split
      · exact hc.intern trivial
      · exact Keeps.bind (keepsSpelled_names h) (fun _ => keepsSpelled_intern _ rfl) c hc

/-- **A path** is asked for with a name for its shape. -/
lemma keepsSpelled_atPath {written last : String} (hwritten : TypeText.IsPath written)
    (hlast : (ModulePath.segments written).getLast? = some last) {arguments : List Argument}
    (h : ∀ a ∈ arguments, a.Spells c₀) :
    Keeps (GrowsSpelled c₀) (atPath scope written last arguments) := by
  obtain ⟨e, he, hpointer, hrun⟩ | ⟨e, he, hslice, hrun⟩
    | ⟨key, value, hkey, hvalue, hrun⟩ | hrun :=
    atPath_cases scope written last arguments
  · rw [hrun]
    exact Spells.pointer wellNamed (h _ he) _ fun _ => .wrapper ⟨hwritten, last, hpointer, hlast⟩
  · rw [hrun]
    exact Spells.slice wellNamed (h _ he) _ fun _ => .list ⟨hwritten, last, hslice, hlast⟩
  · rw [hrun]
    exact Spells.mapBetween (h _ hkey) (h _ hvalue) written
  · rw [hrun]
    exact keepsSpelled_named isPath written h

end

end

/-- **A spoken type is asked for with a name for its shape,** and so are the types inside it. -/
theorem keepsSpelled_type {c₀ : Catalog} (wellNamed : c₀.WellNamed) {scope : Scope}
    (isPath : ∀ written path, scope.structPath? c₀ written = some path → TypeText.IsPath path)
    (t : Ty) (h : t.Spoken) : Keeps (GrowsSpelled c₀) (type scope t) := by
  -- A name that a type is called by is spelled like the type if asking for it keeps names spelled.
  have hspells : ∀ u : Ty, Keeps (GrowsSpelled c₀) (type scope u) → Spells c₀ (type scope u) :=
    fun u hu => ⟨⟨_, calls_type wellNamed scope u⟩, hu⟩
  induction t using Ty.form_induction with
  | parenthesized t ih =>
      rw [type]
      exact ih h
  | sliceReference l m e ih =>
      rw [type]
      refine (hspells e (ih h.2)).slice wellNamed _ fun inner => ?_
      have hname : s!"{referenceSign l m}[{inner}]" = referenceSign l m ++ s!"[{inner}]" := by
        simp [toString, String.append_assoc]
      rw [hname]
      exact .referenced (fun n hn => (h.1 n hn).isLifetimeName) (TypeText.brackets_slice inner)
  | reference l m t hslice ih =>
      rw [type_reference hslice]
      split
      · exact keepsSpelled_intern _ rfl
      · exact (hspells t (ih h.2)).pointer wellNamed _ fun _ =>
          .reference fun n hn => (h.1 n hn).isLifetimeName
  | slice e ih =>
      rw [type]
      exact (hspells e (ih h)).slice wellNamed _ fun inner =>
        .bracketed (TypeText.brackets_slice inner)
  | array e n ih =>
      rw [type]
      exact (hspells e (ih h)).slice wellNamed _ fun inner =>
        .bracketed (TypeText.brackets_array inner _)
  | path p ih =>
      rw [type]
      have hsegments : ∀ s ∈ p.segments, s.Spoken := Path.Spoken.segments h
      have words : ∀ s ∈ p.segments, IsWord s.name := fun s hs => (hsegments s hs).name
      cases hlast : p.last? with
      | some s =>
          have hheard := (hsegments s (List.mem_of_getLast? hlast)).types
          exact keepsSpelled_atPath wellNamed isPath (Path.isPath_displayName hlast words)
            (Path.getLast?_displayName hlast words) <| forall_pathArguments hlast
              (fun _ => trivial) fun t ht => hspells t (ih s hlast t ht (hheard t ht).spoken)
      | none => exact keepsSpelled_intern _ rfl
  | unit | tuple | traitObject | implTrait | qualified | other =>
      rw [type]
      exact keepsSpelled_intern _ rfl

end Lowering

/-! ## Loaded catalogs -/

/-- The value of a type that is a value or a failure is looked up by words. -/
lemma Source.Ty.Heard.outcome {t value : Ty} {failure : Option Ty} (h : t.Heard)
    (ho : t.outcome? = some (value, failure)) : value.Heard := by
  obtain ⟨p, rfl, s, hs, hvalue⟩ := Ty.exists_of_outcome ho
  exact (Path.Spoken.segments h.spoken s hs).types value hvalue

/-- When everything is declared, there are no types yet. -/
lemma Loading.spelled_ofFiles (files : List ParsedFile) :
    (Declared.ofFiles files).catalog.Spelled := by
  intro a t ht
  rw [ofFiles_eq, type?, declareAll_eq] at ht
  exact absurd ht (by simp [Catalog.empty])

namespace SourceUnit

variable {input : ParsedFile} {includes : List ParsedFile}

/-- **The types of a loaded catalog have names that they can be asked for with.** -/
theorem spelled_ofParsed (file interfaceName : String)
    (unmarked : ∀ f ∈ input :: includes, f.IsUnmarked)
    (heard : ∀ f ∈ input :: includes, ∀ i ∈ f.items, i.All Ty.Heard) :
    GrowsSpelled (Declared.ofFiles (input :: includes)).catalog
      (ofParsed file interfaceName input includes).catalog :=
  keeps_ofTypes file interfaceName input includes (fun _ _ _ ht ho => ht.outcome ho) heard
    (fun _ t ht => Lowering.keepsSpelled_type (Loading.wellNamed_ofFiles _)
      (fun _ _ h => Loading.isPath_structPath? unmarked h) t ht.spoken)
    (fun _ _ hc same => ⟨hc.grows.trans (.alike same), hc.spelled.alike same⟩)
    ⟨.refl _, Loading.spelled_ofFiles _⟩

end SourceUnit

end FieldCopy
