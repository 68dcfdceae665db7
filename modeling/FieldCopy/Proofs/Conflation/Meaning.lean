import Mathlib
import FieldCopy.Proofs.Conflation.Finding

/-!
# What a type as written means

Two types are the same if they are built in the same way from the same parts, once paths of
structures and enumerations lead to what they stand for and prelude paths are shortened
(`Lowering.meaning`).

**Parts that are kept as written.**  A tuple, a trait object or the length of an array is a text
and the declared types that it refers to: the same text can mean two things in two modules.

**Whole types.**  The catalog does not know everything: a structure has no arguments there, a
wrapper has no other arguments than the types that it wraps, and what is kept as written is not
looked into.  A type is whole if that makes no difference (`Lowering.Whole`).

**Main statement.**  `Lowering.identity_of_whole`: a whole type is known as what it means.
-/

namespace FieldCopy

open Source Catalog

/-- The path of the structure or enumeration that a path leads to. -/
def Scope.declaredPath? (s : Scope) (c : Catalog) (path : String) : Option String :=
  (s.structPath? c path).or (s.enumeration? path)

namespace Source

/-- A path with arguments at its last name only, in angle brackets or none. -/
def Path.isRegular (p : Path) : Bool :=
  p.segments.dropLast.all (·.arguments.isNone)
    && p.last?.any fun s => match s.arguments with
      | .called _ => false
      | _ => true

end Source

namespace Lowering

/-! ## Declared types in a phrase -/

mutual

/-- The paths of the declared types in a type. -/
def declared (scope : Scope) (c : Catalog) : Ty → List String
  | .path p => (scope.declaredPath? c p.displayName).toList ++ pathDeclared scope c p
  | .qualified s _ p => declared scope c s ++ pathDeclared scope c p
  | .reference _ _ t | .slice t | .parenthesized t => declared scope c t
  | .array e n => declared scope c e ++ piecesDeclared scope c n
  | .tuple ts _ => typesDeclared scope c ts
  | .traitObject ps | .implTrait ps | .other ps => piecesDeclared scope c ps

/-- The paths of the declared types in the arguments of a path. -/
def pathDeclared (scope : Scope) (c : Catalog) : Path → List String
  | .mk _ segments => segmentsDeclared scope c segments

/-- The paths of the declared types in the arguments of some names. -/
def segmentsDeclared (scope : Scope) (c : Catalog) : List Segment → List String
  | [] => []
  | s :: rest => segmentDeclared scope c s ++ segmentsDeclared scope c rest

/-- The paths of the declared types in the arguments of a name. -/
def segmentDeclared (scope : Scope) (c : Catalog) : Segment → List String
  | .mk _ (.angled _ items _) => itemsDeclared scope c items
  | .mk _ (.called ps) => piecesDeclared scope c ps
  | .mk _ .none => []

/-- The paths of the declared types in some arguments. -/
def itemsDeclared (scope : Scope) (c : Catalog) : List Source.Argument → List String
  | [] => []
  | a :: rest => itemDeclared scope c a ++ itemsDeclared scope c rest

/-- The paths of the declared types in an argument. -/
def itemDeclared (scope : Scope) (c : Catalog) : Source.Argument → List String
  | .type t => declared scope c t
  | .lifetime _ => []
  | .other ps => piecesDeclared scope c ps

/-- The paths of the declared types in some types. -/
def typesDeclared (scope : Scope) (c : Catalog) : List Ty → List String
  | [] => []
  | t :: rest => declared scope c t ++ typesDeclared scope c rest

/-- The paths of the declared types in a phrase. -/
def piecesDeclared (scope : Scope) (c : Catalog) : List Piece → List String
  | [] => []
  | p :: rest => pieceDeclared scope c p ++ piecesDeclared scope c rest

/-- The paths of the declared types in a part of a phrase. -/
def pieceDeclared (scope : Scope) (c : Catalog) : Piece → List String
  | .token _ => []
  | .type t => declared scope c t
  | .path p => pathDeclared scope c p
  | .group _ ps => piecesDeclared scope c ps

end

/-! ## Meanings -/

/-- The name of what a path means.  A path from the root is told from one that is not. -/
def pathName (scope : Scope) (c : Catalog) (p : Path) : String :=
  (scope.declaredPath? c p.displayName).getD
    (if p.shorten.rooted then "::" ++ p.displayName else p.displayName)

/-- A type that is kept as written. -/
def keptForm (scope : Scope) (c : Catalog) (t : Ty) : TypeForm :=
  .kept ⟨t.displayName, declared scope c t⟩

mutual

/-- What a type means as written in a module. -/
def meaning (scope : Scope) (c : Catalog) : Ty → TypeForm
  | .parenthesized t => meaning scope c t
  | .reference l m t => .reference l m (meaning scope c t)
  | .slice e => .slice (meaning scope c e)
  | .array e n =>
      .array (meaning scope c e) ⟨TypeName.ofLexemes (pieceLexemes n), piecesDeclared scope c n⟩
  | .path p =>
      if p.isRegular then .path (pathName scope c p) (pathMeanings scope c p)
      else keptForm scope c (.path p)
  | .tuple [] _ => .written "()"
  | .tuple (t :: ts) trailing => keptForm scope c (.tuple (t :: ts) trailing)
  | .traitObject ps => keptForm scope c (.traitObject ps)
  | .implTrait ps => keptForm scope c (.implTrait ps)
  | .qualified s d p => keptForm scope c (.qualified s d p)
  | .other ps => keptForm scope c (.other ps)

/-- What the arguments of the last name of a path mean. -/
def pathMeanings (scope : Scope) (c : Catalog) : Path → List TypeForm
  | .mk _ segments => lastMeanings scope c segments

/-- What the arguments of the last of some names mean. -/
def lastMeanings (scope : Scope) (c : Catalog) : List Segment → List TypeForm
  | [] => []
  | [s] => segmentMeanings scope c s
  | _ :: rest => lastMeanings scope c rest

/-- What the arguments of a name mean. -/
def segmentMeanings (scope : Scope) (c : Catalog) : Segment → List TypeForm
  | .mk _ (.angled _ items _) => listMeanings scope c items
  | .mk _ .none => []
  | .mk _ (.called _) => []

/-- What generic arguments mean. -/
def listMeanings (scope : Scope) (c : Catalog) : List Source.Argument → List TypeForm
  | [] => []
  | a :: rest => oneMeaning scope c a :: listMeanings scope c rest

/-- What a generic argument means. -/
def oneMeaning (scope : Scope) (c : Catalog) : Source.Argument → TypeForm
  | .type t => meaning scope c t
  | .lifetime n => .written (TypeName.ofLexemes (Source.Argument.lifetime n).lexemes)
  | .other ps => .kept ⟨TypeName.ofLexemes (pieceLexemes ps), piecesDeclared scope c ps⟩

end

/-! ## Whole types -/

/-- How many types a wrapper is known by, given its last name and how many types there are.  Any
other path is known by all of its arguments. -/
def wrapped? (last : String) : Nat → Option Nat
  | 0 => none
  | 1 => if pointerNames.contains last || sliceNames.contains last then some 1 else none
  | _ + 2 => if mapNames.contains last then some 2 else none

/-- Nothing is lost of a path and of how many arguments it has. -/
def IsWholePath (scope : Scope) (c : Catalog) (p : Path) : Prop :=
  p.isRegular = true ∧ ∀ s ∈ p.last?,
    match wrapped? s.name s.arguments.types.length with
    | some n =>
        scope.declaredPath? c p.displayName = none ∧ p.shorten.rooted = false
          ∧ s.arguments.items.length = n
    | none =>
        if (scope.structPath? c p.displayName).isSome then s.arguments.items = []
        else (scope.enumeration? p.displayName).isSome ∨ p.shorten.rooted = false

mutual

/-- Nothing is lost of a type when it becomes a type of the catalog. -/
def Whole (scope : Scope) (c : Catalog) : Ty → Prop
  | .parenthesized t | .slice t => Whole scope c t
  | .reference _ _ t =>
      Whole scope c t ∧ (isString t → scope.declaredPath? c "str" = none)
  | .array e n => Whole scope c e ∧ piecesDeclared scope c n = []
  | .path p => IsWholePath scope c p ∧ WholePathArguments scope c p
  | .tuple [] _ => True
  | .tuple (t :: ts) trailing => declared scope c (.tuple (t :: ts) trailing) = []
  | .traitObject ps => declared scope c (.traitObject ps) = []
  | .implTrait ps => declared scope c (.implTrait ps) = []
  | .qualified s d p => declared scope c (.qualified s d p) = []
  | .other ps => declared scope c (.other ps) = []

/-- Nothing is lost of the arguments of the last name of a path. -/
def WholePathArguments (scope : Scope) (c : Catalog) : Path → Prop
  | .mk _ segments => WholeLast scope c segments

/-- Nothing is lost of the arguments of the last of some names. -/
def WholeLast (scope : Scope) (c : Catalog) : List Segment → Prop
  | [] => True
  | [s] => WholeSegment scope c s
  | _ :: rest => WholeLast scope c rest

/-- Nothing is lost of the arguments of a name. -/
def WholeSegment (scope : Scope) (c : Catalog) : Segment → Prop
  | .mk _ (.angled _ items _) => WholeList scope c items
  | .mk _ .none => True
  | .mk _ (.called _) => True

/-- Nothing is lost of some generic arguments. -/
def WholeList (scope : Scope) (c : Catalog) : List Source.Argument → Prop
  | [] => True
  | a :: rest => WholeOne scope c a ∧ WholeList scope c rest

/-- Nothing is lost of a generic argument. -/
def WholeOne (scope : Scope) (c : Catalog) : Source.Argument → Prop
  | .type t => Whole scope c t
  | .lifetime _ => True
  | .other ps => piecesDeclared scope c ps = []

end

/-! ## Paths -/

section

variable {scope : Scope} {c : Catalog}

/-- The types among arguments stay types. -/
lemma filterMap_type?_identities (a : Source.Arguments) :
    (a.items.map (oneIdentity scope c)).filterMap ArgumentForm.type?
      = a.types.map (identity scope c) := by
  rw [Arguments.types]
  induction a.items with
  | nil => rfl
  | cons i items ih =>
      cases i with
      | type t => exact congrArg (identity scope c t :: ·) ih
      | lifetime n => exact ih
      | other ps => exact ih

/-- If there are as many types as arguments, all arguments are types. -/
lemma filterMap_type?_eq_map : ∀ {forms : List ArgumentForm},
    (forms.filterMap ArgumentForm.type?).length = forms.length →
      forms.filterMap ArgumentForm.type? = forms.map ArgumentForm.form
  | [], _ => rfl
  | .type f :: rest, h => congrArg (f :: ·) (filterMap_type?_eq_map (Nat.succ.inj h))
  | .other f :: rest, h => by
      have hle : (rest.filterMap ArgumentForm.type?).length ≤ rest.length :=
        List.length_filterMap_le _ _
      have heq : (rest.filterMap ArgumentForm.type?).length = rest.length + 1 := h
      omega

lemma le_of_wrapped {last : String} : ∀ {k n : Nat}, wrapped? last k = some n → n ≤ k
  | 0, _, h => absurd h (by simp [wrapped?])
  | 1, _, h => by
      rw [wrapped?, Option.ite_none_right_eq_some] at h
      exact (Option.some.inj h.2).symm.le
  | _ + 2, _, h => by
      rw [wrapped?, Option.ite_none_right_eq_some] at h
      have hn := Option.some.inj h.2
      omega

/-- A wrapper with no other arguments than it is known by is known by all of them. -/
lemma pathForm_of_wrapped {written last : String} {forms : List ArgumentForm} {n : Nat}
    (h : wrapped? last (forms.filterMap ArgumentForm.type?).length = some n)
    (hn : forms.length = n) :
    pathForm scope c written last forms = .path written (forms.map ArgumentForm.form) := by
  have hle : (forms.filterMap ArgumentForm.type?).length ≤ forms.length :=
    List.length_filterMap_le _ _
  have hge := le_of_wrapped h
  have htypes : forms.filterMap ArgumentForm.type? = forms.map ArgumentForm.form :=
    filterMap_type?_eq_map (by omega)
  have hlength : (forms.map ArgumentForm.form).length = n := by rw [List.length_map, hn]
  rw [pathForm]
  rw [htypes] at h ⊢
  rcases heq : forms.map ArgumentForm.form with _ | ⟨e, _ | ⟨v, rest⟩⟩ <;> rw [heq] at h hlength
  · exact absurd h (by simp [wrapped?])
  · rw [List.length_singleton, wrapped?, Option.ite_none_right_eq_some] at h
    exact if_pos h.1
  · rw [List.length_cons, List.length_cons, wrapped?, Option.ite_none_right_eq_some] at h
    have hrest : rest = [] := by
      have htwo := Option.some.inj h.2
      simp only [List.length_cons] at hlength
      exact List.length_eq_zero_iff.1 (by omega)
    rw [hrest]
    exact if_pos h.1

/-- Any other path is known under its own name. -/
lemma pathForm_of_not_wrapped {written last : String} {forms : List ArgumentForm}
    (h : wrapped? last (forms.filterMap ArgumentForm.type?).length = none) :
    pathForm scope c written last forms = namedForm scope c written forms := by
  rw [pathForm]
  cases htypes : forms.filterMap ArgumentForm.type? with
  | nil => rfl
  | cons e types =>
      rw [htypes] at h
      cases types with
      | nil => exact if_neg (by simpa [wrapped?] using h)
      | cons v rest => exact if_neg (by simpa [wrapped?] using h)

lemma pathName_of_declared {p : Source.Path} {path : String}
    (h : scope.declaredPath? c p.displayName = some path) : pathName scope c p = path := by
  rw [pathName, h, Option.getD_some]

lemma pathName_of_not_declared {p : Source.Path}
    (h : scope.declaredPath? c p.displayName = none) (hrooted : p.shorten.rooted = false) :
    pathName scope c p = p.displayName := by
  rw [pathName, h, Option.getD_none, hrooted, if_neg Bool.false_ne_true]

/-- **A path of which nothing is lost is known under the name of what it means.** -/
lemma pathForm_of_whole {p : Source.Path} (hp : IsWholePath scope c p) {s : Segment}
    (hs : p.last? = some s) :
    pathForm scope c p.displayName s.name (s.arguments.items.map (oneIdentity scope c))
      = .path (pathName scope c p)
          ((s.arguments.items.map (oneIdentity scope c)).map ArgumentForm.form) := by
  have hkept := hp.2 s hs
  have hcount : ((s.arguments.items.map (oneIdentity scope c)).filterMap
      ArgumentForm.type?).length = s.arguments.types.length := by
    rw [filterMap_type?_identities, List.length_map]
  cases hwrapped : wrapped? s.name s.arguments.types.length with
  | some n =>
      rw [hwrapped] at hkept
      obtain ⟨hdeclared, hrooted, hlength⟩ := hkept
      rw [pathForm_of_wrapped (hcount ▸ hwrapped) (by rw [List.length_map, hlength]),
        pathName_of_not_declared hdeclared hrooted]
  | none =>
      rw [hwrapped] at hkept
      rw [pathForm_of_not_wrapped (hcount ▸ hwrapped), namedForm]
      cases hstruct : scope.structPath? c p.displayName with
      | some path =>
          have hitems : s.arguments.items = [] := by simpa [hstruct] using hkept
          have hdeclared : scope.declaredPath? c p.displayName = some path := by
            rw [Scope.declaredPath?, hstruct, Option.some_or]
          rw [pathName_of_declared hdeclared, hitems]
          rfl
      | none =>
          have hroot : (scope.enumeration? p.displayName).isSome ∨ p.shorten.rooted = false := by
            simpa [hstruct] using hkept
          have hdeclared : scope.declaredPath? c p.displayName
              = scope.enumeration? p.displayName := by
            rw [Scope.declaredPath?, hstruct, Option.none_or]
          cases henum : scope.enumeration? p.displayName with
          | some path => rw [pathName_of_declared (hdeclared.trans henum), Option.getD_some]
          | none =>
              rw [pathName_of_not_declared (hdeclared.trans henum) (by simpa [henum] using hroot),
                Option.getD_none]

end

/-- The type of texts means itself unless there is a declared type of that name. -/
lemma meaning_str {scope : Scope} {c : Catalog} (h : scope.declaredPath? c "str" = none) :
    meaning scope c (.path (.ofName "str")) = .path "str" [] := by
  have hname : pathName scope c (.ofName "str") = "str" := pathName_of_not_declared h rfl
  rw [meaning, if_pos (by rfl), hname]
  rfl

/-! ## Whole types -/

section

variable (scope : Scope) (c : Catalog)

lemma listMeanings_eq_map (items : List Source.Argument) :
    listMeanings scope c items = items.map (oneMeaning scope c) := by
  induction items with
  | nil => rw [listMeanings, List.map_nil]
  | cons i items ih => rw [listMeanings, ih, List.map_cons]

/-- The arguments of a path mean what those of its last name mean, one by one. -/
lemma pathMeanings_eq_map : ∀ {p : Path} {s : Segment}, p.last? = some s →
    pathMeanings scope c p = s.arguments.items.map (oneMeaning scope c)
  | .mk _ _, _, hs => by
      have hsingle : ∀ s,
          lastMeanings scope c [s] = s.arguments.items.map (oneMeaning scope c) := by
        rintro ⟨n, a⟩
        rw [lastMeanings]
        cases a with
        | angled turbofish items trailing =>
            rw [segmentMeanings]
            exact listMeanings_eq_map scope c items
        | none | called =>
            rw [segmentMeanings]
            rfl
      have hbehind : ∀ s t rest,
          lastMeanings scope c (s :: t :: rest) = lastMeanings scope c (t :: rest) := by
        intro s t rest
        rw [lastMeanings]
        exact fun h => List.cons_ne_nil t rest h
      rw [pathMeanings]
      exact eq_of_getLast? hsingle hbehind hs

lemma wholeList_iff (items : List Source.Argument) :
    WholeList scope c items ↔ ∀ i ∈ items, WholeOne scope c i := by
  induction items with
  | nil => simp [WholeList]
  | cons i items ih => rw [WholeList, ih, List.forall_mem_cons]

/-- Nothing is lost of the arguments of a path if nothing is lost of those of its last name. -/
lemma wholePathArguments_iff : ∀ {p : Path} {s : Segment}, p.last? = some s →
    (WholePathArguments scope c p ↔ ∀ i ∈ s.arguments.items, WholeOne scope c i)
  | .mk _ _, _, hs => by
      have hsingle : ∀ s,
          WholeLast scope c [s] = ∀ i ∈ s.arguments.items, WholeOne scope c i := by
        rintro ⟨n, a⟩
        rw [WholeLast]
        cases a with
        | angled turbofish items trailing =>
            rw [WholeSegment]
            exact propext (wholeList_iff scope c items)
        | none | called =>
            rw [WholeSegment]
            exact (eq_true (List.forall_mem_nil _)).symm
      have hbehind : ∀ s t rest,
          WholeLast scope c (s :: t :: rest) = WholeLast scope c (t :: rest) := by
        intro s t rest
        rw [WholeLast]
        exact fun h => List.cons_ne_nil t rest h
      rw [WholePathArguments]
      exact iff_of_eq (eq_of_getLast? hsingle hbehind hs)

lemma keptForm_of_declared_nil {t : Ty} (h : declared scope c t = []) :
    keptForm scope c t = .written t.displayName := by
  rw [keptForm, h]
  rfl

/-- Whole arguments are known as what they mean if the types among them are. -/
lemma form_oneIdentity {a : Source.Arguments} (hwhole : ∀ i ∈ a.items, WholeOne scope c i)
    (types : ∀ t ∈ a.types, Whole scope c t → identity scope c t = meaning scope c t) :
    (a.items.map (oneIdentity scope c)).map ArgumentForm.form
      = a.items.map (oneMeaning scope c) := by
  rw [List.map_map]
  refine List.map_congr_left fun i hi => ?_
  have hone := hwhole i hi
  rw [Function.comp_apply]
  cases i with
  | type t =>
      rw [oneIdentity, oneMeaning]
      exact types t (Arguments.mem_types.2 hi) hone
  | lifetime n =>
      rw [oneIdentity, oneMeaning]
      rfl
  | other ps =>
      rw [WholeOne] at hone
      rw [oneIdentity, oneMeaning, hone]
      rfl

/-- **A whole type is known as what it means.** -/
theorem identity_of_whole (t : Ty) (h : Whole scope c t) :
    identity scope c t = meaning scope c t := by
  induction t using Ty.form_induction with
  | parenthesized t ih =>
      rw [identity, meaning]
      exact ih h
  | sliceReference l m e ih =>
      rw [identity, identity, if_neg (by simp [isString]), ih h.1, meaning, meaning]
  | reference l m t _ ih =>
      rw [identity, meaning, ih h.1]
      split
      · rename_i hstring
        rw [eq_of_isString hstring, meaning_str (h.2 hstring)]
      · rfl
  | slice e ih => rw [identity, meaning, ih h]
  | array e n ih => rw [identity, meaning, ih h.1, h.2]
  | path p ih =>
      obtain ⟨hpath, harguments⟩ := h
      cases hlast : p.last? with
      | none =>
          have hregular := hpath.1
          rw [Path.isRegular, hlast] at hregular
          exact absurd hregular (by simp)
      | some s =>
          have hwhole := (wholePathArguments_iff scope c hlast).1 harguments
          rw [identity, meaning, if_pos hpath.1, pathIdentities_eq_map scope c hlast,
            pathMeanings_eq_map scope c hlast, ← form_oneIdentity scope c hwhole (ih s hlast)]
          simp only [hlast]
          exact pathForm_of_whole hpath hlast
  | unit => rw [identity, meaning]
  | tuple t ts trailing => rw [identity, meaning, keptForm_of_declared_nil scope c h]
  | traitObject ps => rw [identity, meaning, keptForm_of_declared_nil scope c h]
  | implTrait ps => rw [identity, meaning, keptForm_of_declared_nil scope c h]
  | qualified s d p => rw [identity, meaning, keptForm_of_declared_nil scope c h]
  | other ps => rw [identity, meaning, keptForm_of_declared_nil scope c h]

end

end Lowering

end FieldCopy
