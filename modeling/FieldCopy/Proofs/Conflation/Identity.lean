import Mathlib
import FieldCopy.Proofs.Conflation.TypeForms
import FieldCopy.Proofs.Loading.Fitting

/-!
# What a type is known as

`Lowering.type` asks for a type by its name.  The form behind this name (`Lowering.identity`) is all
that the catalog knows of the type as written: a structure is a path without arguments, a map has
two arguments, and tuples and the like are texts.

**Growth.**  Asking for types only adds to a catalog (`Catalog.GrowsTo`).  What a path leads to does
not change (`Scope.structPath?_of_growsTo`), and types are known under their own names
(`Catalog.WellNamed`), so numbers are as different as names are (`Catalog.WellNamed.id_eq_iff`).
-/

namespace FieldCopy

open Source Catalog

/-! ## Catalogs that grow -/

namespace Catalog

/-- Types are known under their own names. -/
def WellNamed (c : Catalog) : Prop :=
  ∀ name id, c.typeNamed? name = some id → ∃ shape, c.type? id = some ⟨id, name, shape⟩

/-- A catalog in which more is known, but no other structures. -/
structure GrowsTo (c c' : Catalog) : Prop where
  structPaths : c'.structPaths = c.structPaths
  structs : ∀ id, (c'.struct? id).map StructInfo.path = (c.struct? id).map StructInfo.path
  known : ∀ name id, c.typeNamed? name = some id → c'.typeNamed? name = some id
  wellNamed : c.WellNamed → c'.WellNamed

variable {c c' c'' : Catalog}

namespace GrowsTo

lemma refl (c : Catalog) : GrowsTo c c := ⟨rfl, fun _ => rfl, fun _ _ h => h, id⟩

lemma trans (h : GrowsTo c c') (h' : GrowsTo c' c'') : GrowsTo c c'' where
  structPaths := h'.structPaths.trans h.structPaths
  structs id := (h'.structs id).trans (h.structs id)
  known name id hid := h'.known name id (h.known name id hid)
  wellNamed hc := h'.wellNamed (h.wellNamed hc)

lemma intern (c : Catalog) (name : String) (shape : Shape) :
    GrowsTo c (c.intern name shape).2 := by
  cases hname : c.typeNamed? name with
  | some id => rw [Catalog.intern, hname]; exact refl c
  | none =>
      refine ⟨by rw [Catalog.intern, hname], fun id => by rw [Catalog.intern, hname]; rfl,
        fun n id hid => ?_, fun hc n id hid => ?_⟩
      · rw [typeNamed?_intern_of_none hname, if_neg, hid]
        rintro rfl
        exact absurd (hname.symm.trans hid) (by simp)
      · rw [typeNamed?_intern_of_none hname] at hid
        split at hid
        · rename_i heq
          obtain rfl := Option.some.inj hid
          exact ⟨shape, by rw [type?_intern_of_none hname, if_pos rfl, heq]⟩
        · obtain ⟨s, hs⟩ := hc n id hid
          exact ⟨s, type?_intern hs name shape⟩

lemma alike (h : Alike c c') : GrowsTo c c' where
  structPaths := h.structPaths
  structs := h.names
  known name id hid := by rwa [typeNamed?, h.typeNames]
  wellNamed hc name id hid := by
    rw [typeNamed?, h.typeNames] at hid
    rw [h.type?]
    exact hc name id hid

end GrowsTo

/-- A type is known under its name once it was asked for. -/
lemma typeNamed?_intern_self (c : Catalog) (name : String) (shape : Shape) :
    (c.intern name shape).2.typeNamed? name = some (c.intern name shape).1 := by
  cases hname : c.typeNamed? name with
  | some id => rw [intern, hname]; exact hname
  | none => rw [typeNamed?_intern_of_none hname, if_pos rfl, intern, hname]

lemma WellNamed.nameOf (hc : c.WellNamed) {name : String} {id : TypeId}
    (h : c.typeNamed? name = some id) : c.nameOf id = name := by
  obtain ⟨shape, hid⟩ := hc name id h
  rw [Catalog.nameOf, hid]
  rfl

/-- **Numbers are as different as names.** -/
lemma WellNamed.id_eq_iff (hc : c.WellNamed) {name name' : String} {id id' : TypeId}
    (h : c.typeNamed? name = some id) (h' : c.typeNamed? name' = some id') :
    id = id' ↔ name = name' := by
  constructor
  · rintro rfl
    rw [← hc.nameOf h, hc.nameOf h']
  · rintro rfl
    exact Option.some.inj (h.symm.trans h')

end Catalog

/-! ## The form behind a name -/

namespace Scope

/-- The qualified path of the structure that a path leads to. -/
def structPath? (s : Scope) (c : Catalog) (path : String) : Option String :=
  (s.struct? c path).bind fun id => (c.struct? id).map StructInfo.path

lemma structPath?_of_growsTo {c c' : Catalog} (h : GrowsTo c c') (s : Scope) (path : String) :
    s.structPath? c' path = s.structPath? c path := by
  have hids : c'.structIdAtPath? = c.structIdAtPath? := by
    funext written
    rw [structIdAtPath?, structIdAtPath?, h.structPaths]
  rw [structPath?, structPath?, struct?, struct?, hids]
  exact Option.bind_congr fun id _ => h.structs id

end Scope

/-- A generic argument: the form of a type, or of anything else. -/
inductive ArgumentForm where
  | type (form : TypeForm)
  | other (form : TypeForm)

namespace ArgumentForm

def type? : ArgumentForm → Option TypeForm
  | type f => some f
  | other _ => none

def form : ArgumentForm → TypeForm
  | type f | other f => f

end ArgumentForm

namespace Lowering

/-- What a path is known as that leads to no wrapper. -/
def namedForm (scope : Scope) (c : Catalog) (written : String) (arguments : List ArgumentForm) :
    TypeForm :=
  match scope.structPath? c written with
  | some path => .path path []
  | none => .path ((scope.enumeration? written).getD written) (arguments.map ArgumentForm.form)

/-- What a path is known as. -/
def pathForm (scope : Scope) (c : Catalog) (written last : String)
    (arguments : List ArgumentForm) : TypeForm :=
  match arguments.filterMap ArgumentForm.type? with
  | [element] =>
      if pointerNames.contains last || sliceNames.contains last then .path written [element]
      else namedForm scope c written arguments
  | key :: value :: _ =>
      if mapNames.contains last then .path written [key, value]
      else namedForm scope c written arguments
  | [] => namedForm scope c written arguments

mutual

/-- What a type as written in a module is known as. -/
def identity (scope : Scope) (c : Catalog) : Ty → TypeForm
  | .parenthesized t => identity scope c t
  | .reference l m t =>
      .reference l m (if isString t then .path "str" [] else identity scope c t)
  | .slice e => .slice (identity scope c e)
  | .array e n => .array (identity scope c e) ⟨TypeName.ofLexemes (pieceLexemes n), []⟩
  | .path p =>
      match p.last? with
      | some last => pathForm scope c p.displayName last.name (pathIdentities scope c p)
      | none => .written p.displayName
  | .tuple [] _ => .written "()"
  | .tuple (t :: ts) trailing => .written (Ty.tuple (t :: ts) trailing).displayName
  | .traitObject ps => .written (Ty.traitObject ps).displayName
  | .implTrait ps => .written (Ty.implTrait ps).displayName
  | .qualified s d p => .written (Ty.qualified s d p).displayName
  | .other ps => .written (Ty.other ps).displayName

/-- What the arguments of the last name of a path are known as. -/
def pathIdentities (scope : Scope) (c : Catalog) : Path → List ArgumentForm
  | .mk _ segments => lastIdentities scope c segments

/-- What the arguments of the last of some names are known as. -/
def lastIdentities (scope : Scope) (c : Catalog) : List Segment → List ArgumentForm
  | [] => []
  | [s] => segmentIdentities scope c s
  | _ :: rest => lastIdentities scope c rest

/-- What the arguments of a name are known as. -/
def segmentIdentities (scope : Scope) (c : Catalog) : Segment → List ArgumentForm
  | .mk _ (.angled _ items _) => listIdentities scope c items
  | .mk _ .none => []
  | .mk _ (.called _) => []

/-- What generic arguments are known as. -/
def listIdentities (scope : Scope) (c : Catalog) : List Source.Argument → List ArgumentForm
  | [] => []
  | a :: rest => oneIdentity scope c a :: listIdentities scope c rest

/-- What a generic argument is known as. -/
def oneIdentity (scope : Scope) (c : Catalog) : Source.Argument → ArgumentForm
  | .type t => .type (identity scope c t)
  | .lifetime n => .other (.written (TypeName.ofLexemes (Source.Argument.lifetime n).lexemes))
  | .other ps => .other (.written (TypeName.ofLexemes (pieceLexemes ps)))

end

end Lowering

end FieldCopy
