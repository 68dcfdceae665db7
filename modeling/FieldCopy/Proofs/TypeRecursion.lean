import Mathlib
import FieldCopy.Source.Ty

/-!
# Recursion over types as written

The program looks into parentheses, references, slices and arrays, and into the arguments of the
last name of a path.  Everything else it keeps as it is written.

**Induction.**  `Ty.form_induction` has one case for each of these forms, and tells a reference to a
slice from all other references.  At a path, what is to be shown is known of the types in the
arguments of its last name.

**Last names.**  A function on the names of a path that goes on to the last one is determined by
what it is there (`eq_of_getLast?`).
-/

namespace FieldCopy.Source

/-! ## The types among arguments -/

lemma Arguments.mem_types {a : Arguments} {t : Ty} : t ∈ a.types ↔ .type t ∈ a.items := by
  rw [types, List.mem_filterMap]
  constructor
  · rintro ⟨b, hb, hbt⟩
    cases b with
    | type u => exact Option.some.inj hbt ▸ hb
    | lifetime n | other ps => exact absurd hbt (by simp)
  · exact fun h => ⟨_, h, rfl⟩

/-- A type in the arguments of the last name of a path is smaller than the path. -/
lemma Path.sizeOf_type_lt {p : Path} {s : Segment} (hs : p.last? = some s) {t : Ty}
    (ht : t ∈ s.arguments.types) : sizeOf t < sizeOf p := by
  obtain ⟨r, segments⟩ := p
  obtain ⟨n, a⟩ := s
  have hsegment := List.sizeOf_lt_of_mem (List.mem_of_getLast? hs)
  cases a with
  | none | called => exact absurd ht List.not_mem_nil
  | angled turbofish items trailing =>
      have hitem : sizeOf (Argument.type t) < sizeOf items :=
        List.sizeOf_lt_of_mem (Arguments.mem_types.1 ht)
      simp only [Segment.mk.sizeOf_spec, Arguments.angled.sizeOf_spec, Argument.type.sizeOf_spec,
        Path.mk.sizeOf_spec, Path.segments] at hsegment hitem ⊢
      omega

/-! ## Induction -/

section

variable {motive : Ty → Prop}
  (parenthesized : ∀ t, motive t → motive (.parenthesized t))
  (sliceReference : ∀ l m e, motive e → motive (.reference l m (.slice e)))
  (reference : ∀ l m t, (∀ e, t ≠ .slice e) → motive t → motive (.reference l m t))
  (slice : ∀ e, motive e → motive (.slice e))
  (array : ∀ e n, motive e → motive (.array e n))
  (path : ∀ p, (∀ s, p.last? = some s → ∀ t ∈ s.arguments.types, motive t) → motive (.path p))
  (unit : ∀ trailing, motive (.tuple [] trailing))
  (tuple : ∀ t ts trailing, motive (.tuple (t :: ts) trailing))
  (traitObject : ∀ ps, motive (.traitObject ps))
  (implTrait : ∀ ps, motive (.implTrait ps))
  (qualified : ∀ subject depth p, motive (.qualified subject depth p))
  (other : ∀ ps, motive (.other ps))

include parenthesized sliceReference reference slice array path unit tuple traitObject implTrait
  qualified other

/-- **Induction over the forms of types that the program looks into.** -/
@[elab_as_elim]
theorem Ty.form_induction : ∀ t, motive t
  | .parenthesized t => parenthesized t (form_induction t)
  | .reference l m t => by
      by_cases hslice : ∃ e, t = .slice e
      · obtain ⟨e, he⟩ := hslice
        have hsize : sizeOf t = 1 + sizeOf e := by rw [he, Ty.slice.sizeOf_spec]
        exact he ▸ sliceReference l m e (form_induction e)
      · exact reference l m t (fun e he => hslice ⟨e, he⟩) (form_induction t)
  | .slice e => slice e (form_induction e)
  | .array e n => array e n (form_induction e)
  | .path p => path p fun s hs t ht =>
      have := Path.sizeOf_type_lt hs ht
      form_induction t
  | .tuple [] trailing => unit trailing
  | .tuple (t :: ts) trailing => tuple t ts trailing
  | .traitObject ps => traitObject ps
  | .implTrait ps => implTrait ps
  | .qualified subject depth p => qualified subject depth p
  | .other ps => other ps
termination_by t => sizeOf t
decreasing_by
  all_goals
    simp only [Ty.parenthesized.sizeOf_spec, Ty.reference.sizeOf_spec, Ty.slice.sizeOf_spec,
      Ty.array.sizeOf_spec, Ty.path.sizeOf_spec]
    omega

end

/-! ## Last names -/

/-- What goes on from the first of some names to those behind it is the same as for the last. -/
lemma eq_of_getLast? {α : Sort*} {f : List Segment → α} {g : Segment → α}
    (single : ∀ s, f [s] = g s) (behind : ∀ s t rest, f (s :: t :: rest) = f (t :: rest)) :
    ∀ {segments : List Segment} {s : Segment}, segments.getLast? = some s → f segments = g s
  | [s], _, h => by
      obtain rfl := Option.some.inj h
      exact single s
  | s :: t :: rest, _, h => by
      rw [behind]
      exact eq_of_getLast? single behind (List.getLast?_cons_cons ▸ h)

end FieldCopy.Source
