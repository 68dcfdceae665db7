import Mathlib
import FieldCopy.Proofs.Canonical
import FieldCopy.Proofs.TypeRecursion

/-!
# Canonical types

The name of a type is a text of this type again, with prelude paths shortened and the lifetimes in
front.  The type that the name is a text of is the canonical one (`Ty.canonical`).

**Main statement.**  `Ty.elementName?_displayName`: what the elements of a type are is told by its
name.
-/

namespace FieldCopy.Source

/-- The type that the name of a type is a text of. -/
def Ty.canonical (t : Ty) : Ty := t.shorten.arranged

/-- The path with the types in it canonical and the lifetimes in front. -/
def Path.canonical (p : Path) : Path := p.shortenInner.shorten.arranged

/-- The name with the types in its arguments canonical and the lifetimes in front. -/
def Segment.canonical (s : Segment) : Segment := s.shortenInner.arranged

/-- The argument with the type that it is canonical. -/
def Argument.canonical (a : Argument) : Argument := a.shorten.arranged

namespace Ty

@[simp]
lemma canonical_path (p : Path) : (path p).canonical = .path p.canonical := by
  rw [canonical, shorten, arranged, Path.canonical]

@[simp]
lemma canonical_reference (l : Option String) (m : Bool) (t : Ty) :
    (reference l m t).canonical = .reference l m t.canonical := by
  rw [canonical, shorten, arranged, canonical]

@[simp]
lemma canonical_slice (e : Ty) : (slice e).canonical = .slice e.canonical := by
  rw [canonical, shorten, arranged, canonical]

@[simp]
lemma canonical_array (e : Ty) (n : List Piece) :
    (array e n).canonical = .array e.canonical (shortenPieces n) := by
  rw [canonical, shorten, arranged, canonical]

@[simp]
lemma canonical_parenthesized (t : Ty) :
    (parenthesized t).canonical = .parenthesized t.canonical := by
  rw [canonical, shorten, arranged, canonical]

@[simp]
lemma canonical_tuple (es : List Ty) (trailing : Bool) :
    (tuple es trailing).canonical = .tuple (arrangedTypes (shortenTypes es)) trailing := by
  rw [canonical, shorten, arranged]

lemma WellSpelled.canonical {t : Ty} (h : t.WellSpelled) : t.canonical.WellSpelled :=
  h.shorten.arranged

/-- The name of a type is that of the canonical type. -/
lemma displayName_canonical (t : Ty) : t.canonical.displayName = t.displayName := by
  rw [canonical, displayName_arranged, displayName, displayName, shorten_shorten]

/-- The name of a type is parsed as the canonical type. -/
lemma parse?_displayName {t : Ty} (h : t.WellSpelled) : parse? t.displayName = some t.canonical :=
  parse?_ofLexemes h.shorten

end Ty

lemma Segment.name_canonical (s : Segment) : s.canonical.name = s.name := by
  rw [canonical, name_arranged, name_shortenInner]

/-- A path is made canonical name by name once it is shortened. -/
lemma Path.canonical_eq (p : Path) :
    p.canonical = .mk p.shorten.rooted (p.shorten.segments.map Segment.canonical) := by
  rw [canonical, ← shortenInner_shorten]
  cases p.shorten
  rw [shortenInner, arranged, shortenSegments_eq_map, arrangedSegments_eq_map, List.map_map]
  rfl

lemma Path.segments_canonical (p : Path) :
    p.canonical.segments = p.shorten.segments.map Segment.canonical := by
  rw [canonical_eq, segments]

lemma Path.displayName_canonical (p : Path) : p.canonical.displayName = p.displayName := by
  have hshort : p.canonical.shorten = p.canonical := by
    rw [canonical, ← arranged_shorten, shorten_shorten]
  rw [displayName, displayName, hshort, segments_canonical, List.map_map]
  congr 2
  funext s
  exact s.name_canonical

/-- Shortening a path adds no names. -/
lemma Path.mem_segments_of_shorten {p : Path} : ∀ s ∈ p.shorten.segments, s ∈ p.segments := by
  obtain ⟨r, segments⟩ := p
  rcases segments with _ | ⟨a, _ | ⟨b, _ | ⟨c, _ | ⟨d, rest⟩⟩⟩⟩
  case cons.cons.cons.nil =>
    cases h : (Path.mk r [a, b, c]).isPrelude <;> simp +contextual [shorten, segments, h]
  all_goals exact fun _ hs => hs

lemma Path.last?_shorten (p : Path) : p.shorten.last? = p.last? := by
  obtain ⟨r, segments⟩ := p
  rcases segments with _ | ⟨a, _ | ⟨b, _ | ⟨c, _ | ⟨d, rest⟩⟩⟩⟩
  case cons.cons.cons.nil =>
    cases h : (Path.mk r [a, b, c]).isPrelude <;> simp [Path.shorten, Path.segments, h, last?]
  all_goals rfl

lemma Path.last?_canonical (p : Path) : p.canonical.last? = p.last?.map Segment.canonical := by
  rw [← p.last?_shorten, last?, last?, segments_canonical, List.getLast?_map]

/-! ### Arguments -/

@[simp]
lemma Argument.canonical_type (t : Ty) : (Argument.type t).canonical = .type t.canonical := by
  rw [canonical, shorten, arranged, Ty.canonical]

@[simp]
lemma Argument.canonical_lifetime (n : String) :
    (Argument.lifetime n).canonical = .lifetime n := by
  rw [canonical, shorten, arranged]

lemma Segment.items_canonical (s : Segment) :
    s.canonical.arguments.items = lifetimesFirst (s.arguments.items.map Argument.canonical) := by
  obtain ⟨n, a⟩ := s
  cases a with
  | angled turbofish items trailing =>
      rw [canonical, shortenInner, arranged, Arguments.shorten, Arguments.arranged,
        shortenItems_eq_map, arrangedItems_eq_map, List.map_map]
      rfl
  | none => rfl
  | called ps => rfl

/-- The type that an argument is. -/
def Argument.type? : Argument → Option Ty
  | .type t => some t
  | _ => none

lemma Arguments.types_eq (a : Arguments) : a.types = a.items.filterMap Argument.type? := rfl

/-- The types of a list of arguments keep their order. -/
lemma types_lifetimesFirst (items : List Argument) :
    (lifetimesFirst items).filterMap Argument.type? = items.filterMap Argument.type? := by
  have hlifetimes : (items.filter (·.isLifetime)).filterMap Argument.type? = [] := by
    refine List.filterMap_eq_nil_iff.2 fun a ha => ?_
    have hlifetime := (List.mem_filter.1 ha).2
    cases a with
    | lifetime n => rfl
    | type t | other ps => exact absurd hlifetime (by simp [Argument.isLifetime])
  have hothers : (items.filter (! ·.isLifetime)).filterMap Argument.type?
      = items.filterMap Argument.type? := by
    rw [List.filterMap_filter]
    exact List.filterMap_congr fun a _ => by cases a <;> rfl
  rw [lifetimesFirst, List.filterMap_append, hlifetimes, hothers, List.nil_append]

lemma Segment.types_canonical (s : Segment) :
    s.canonical.arguments.types = s.arguments.types.map Ty.canonical := by
  rw [Arguments.types_eq, Arguments.types_eq, items_canonical, types_lifetimesFirst,
    List.filterMap_map, List.map_filterMap]
  refine List.filterMap_congr fun a _ => ?_
  cases a with
  | type t => rw [Function.comp_apply, Argument.canonical_type]; rfl
  | lifetime n => rw [Function.comp_apply, Argument.canonical_lifetime]; rfl
  | other ps => rfl

lemma Path.firstType?_canonical (p : Path) :
    p.canonical.firstType? = p.firstType?.map Ty.canonical := by
  rw [firstType?, firstType?, last?_canonical, Option.bind_map, Option.map_bind]
  refine Option.bind_congr fun s _ => ?_
  rw [Function.comp_apply, Segment.types_canonical, List.head?_map]
  rfl

lemma length_lifetimesFirst (items : List Argument) :
    (lifetimesFirst items).length = items.length :=
  (List.filter_append_perm _ items).length_eq

lemma lifetimesFirst_singleton (a : Argument) : lifetimesFirst [a] = [a] := by
  cases h : a.isLifetime <;> simp [lifetimesFirst, h]

/-! ### Elements -/

namespace Ty

/-- The elements of the canonical type are canonical. -/
lemma element?_canonical : ∀ {t : Ty}, t.WellSpelled →
    t.canonical.element? = t.element?.map Ty.canonical
  | .reference l m t, h => by
      rw [canonical_reference]
      exact element?_canonical (t := t) h.2
  | .path p, _ => by
      rw [canonical_path]
      exact p.firstType?_canonical
  | .slice e, _ => by rw [canonical_slice]; rfl
  | .array e n, _ => by rw [canonical_array]; rfl
  | .tuple es trailing, _ => by rw [canonical_tuple]; rfl
  | .parenthesized t, _ => by rw [canonical_parenthesized]; rfl
  | .qualified _ _ _, h | .traitObject _, h | .implTrait _, h | .other _, h => h.elim

/-- **The elements are read off the name of a type** as those of the type itself. -/
theorem elementName?_displayName {t : Ty} (h : t.WellSpelled) :
    elementName? t.displayName = t.element?.map displayName := by
  rw [elementName?, parse?_displayName h, Option.bind_some, element?_canonical h, Option.map_map]
  exact Option.map_congr fun e _ => e.displayName_canonical

/-- The elements of a type that is spelled with words are spelled with words. -/
lemma WellSpelled.element : ∀ {t e : Ty}, t.WellSpelled → t.element? = some e → e.WellSpelled
  | .reference _ _ t, _, h, he => WellSpelled.element (t := t) h.2 he
  | .path p, _, h, he => by
      obtain ⟨s, hs, he⟩ := Option.bind_eq_some_iff.1 (show p.firstType? = _ from he)
      exact (Inside.argument (List.mem_of_getLast? hs)
        (Arguments.mem_types.1 (List.mem_of_head? he))).wellSpelled h
  | .slice _, _, h, he => Option.some.inj he ▸ h
  | .array _ _, _, h, he => Option.some.inj he ▸ h.1
  | .tuple _ _, _, _, he | .parenthesized _, _, _, he =>
      absurd he (by simp [element?, stripReferences])
  | .qualified _ _ _, _, h, _ | .traitObject _, _, h, _ | .implTrait _, _, h, _
  | .other _, _, h, _ => h.elim

/-- A property of types that are spelled with words holds if those inside a type have it only if the
type has it. -/
lemma WellSpelled.induction {P : Ty → Prop}
    (step : ∀ t : Ty, t.WellSpelled → (∀ u : Ty, u.Inside t → P u) → P t) {t : Ty}
    (h : t.WellSpelled) : P t := by
  induction hk : Token.sizeAll t.spelled using Nat.strong_induction_on generalizing t with
  | _ k ih => exact step t h fun u hu => ih _ (hk ▸ hu.sizeAll_lt) (hu.wellSpelled h) rfl

end Ty

end FieldCopy.Source
