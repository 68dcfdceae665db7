import Mathlib
import FieldCopy.Proofs.Elements.Names

/-!
# Types that show what their elements are

Elements are read off a type as written behind its references only, so they are those of the slice
that pointers lead to only if no wrapper stands around it (`Source.Ty.ShowsElements`).

**Main statement.**  `Loading.shows_of_elemental`: of a type that is known by the name of a slice,
the elements that are read off are those of the slice if it shows them, and have no leading name if
it does not.
-/

namespace FieldCopy

open Source

/-- The type is a slice, an array or a list, references in front of it apart. -/
def Source.Ty.ShowsElements (t : Ty) : Prop :=
  match t.stripReferences with
  | .slice _ | .array _ _ => True
  | .path p =>
      ∃ s, p.last? = some s ∧ s.name ∈ Lowering.sliceNames ∧ s.arguments.types.length = 1
  | _ => False

namespace TypeText

variable {P : String → Prop} (leading : ∀ s, P s → Leading s)

include leading

/-- If the names of arguments read as that of a slice, the first of them does not lead to a path. -/
lemma Elemental.not_leading_head {s : String} {names : List String}
    (h : Elemental P (", ".intercalate names)) (hs : s ∈ names.head?) : ¬ Leading s := by
  obtain ⟨more, rfl⟩ := List.head?_eq_some_iff.1 hs
  intro hleading
  have htexts := toList_names s more
  rw [← List.append_nil (String.toList _), ← List.append_nil (further _)] at htexts
  obtain ⟨hname, -⟩ := hleading.eq_of_append (h.composed leading)
    (follows_further more (Extent.follows_nil _)) (Extent.follows_nil _) htexts.symm
  exact h.not_leading leading (hname ▸ hleading)

end TypeText

/-! ## Paths -/

/-- A path that leads to no wrapper is known by a path, or by one with arguments and the last name
of what is written. -/
lemma Names.Clean.cases_named {n : Names} (clean : n.Clean) {written : String}
    (hwritten : TypeText.IsPath written) (sketches : List ArgumentSketch) :
    TypeText.IsPath (Sketch.named n written sketches).type.name
      ∨ ∃ base, TypeText.IsPath base
        ∧ (ModulePath.segments base).getLast? = (ModulePath.segments written).getLast?
        ∧ (Sketch.named n written sketches).type.name
          = TypeText.withArguments base (", ".intercalate (sketches.map ArgumentSketch.name)) := by
  rw [Sketch.named]
  split
  · rename_i path hpath
    exact .inl (clean.structs written path hpath)
  · dsimp only
    split
    · exact .inl (Loading.isPath_base clean hwritten)
    · refine .inr ⟨_, Loading.isPath_base clean hwritten, ?_, rfl⟩
      cases hpath : n.enumeration? written with
      | none => rfl
      | some path => exact clean.names written path hpath

/-- The last name of the path of a wrapper is one of the words for it. -/
lemma TypeText.IsWrapper.mem {words : List String} {p last : String} (h : IsWrapper words p)
    (hlast : (ModulePath.segments p).getLast? = some last) : last ∈ words := by
  obtain ⟨word, hword, hend⟩ := h.last
  exact Option.some.inj (hlast.symm.trans hend) ▸ hword

namespace Loading

lemma notMem_of_pointer : ∀ w ∈ Lowering.pointerNames,
    w ∉ Lowering.mapNames ∧ w ∉ Lowering.sliceNames := by decide

lemma notMem_of_slice : ∀ w ∈ Lowering.sliceNames, w ∉ Lowering.mapNames := by decide

/-- A wrapper that is no map is known by its only type. -/
lemma eq_singleton_of_wrapped {last : String} {types : List Ty} {k : Nat}
    (hk : Lowering.wrapped? last types.length = some k) (hmap : last ∉ Lowering.mapNames) :
    ∃ u, types = [u] ∧ k = 1 := by
  obtain _ | ⟨u, _ | ⟨v, more⟩⟩ := types
  · exact absurd hk (by simp [Lowering.wrapped?])
  · rw [List.length_singleton, Lowering.wrapped?, Option.ite_none_right_eq_some] at hk
    exact ⟨u, rfl, (Option.some.inj hk.2).symm⟩
  · rw [List.length_cons, List.length_cons, Lowering.wrapped?, Option.ite_none_right_eq_some] at hk
    exact absurd (List.contains_iff_mem.1 hk.1) hmap

/-- A pointer or a list with one type is a wrapper. -/
lemma length_ne_one_of_wrapped {last : String} {n : Nat}
    (hk : Lowering.wrapped? last n = none)
    (hlast : last ∈ Lowering.pointerNames ∨ last ∈ Lowering.sliceNames) : n ≠ 1 := by
  rintro rfl
  rw [Lowering.wrapped?, ite_eq_right_iff] at hk
  refine absurd (hk ?_) (by simp)
  rw [Bool.or_eq_true, List.contains_iff_mem, List.contains_iff_mem]
  exact hlast

variable {files : List ParsedFile} {package : String}

/-- If no lifetime stands first among arguments, the first type does. -/
lemma head?_arguments {items : List Argument} (hitems : ∀ a ∈ items, a.WellSpelled)
    (hlifetime : ∀ rest,
      (", ".intercalate (items.map (argumentName files package))).toList ≠ '\'' :: rest)
    {u : Ty} (hu : u ∈ (items.filterMap Argument.type?).head?) :
    nameIn files package u ∈ (items.map (argumentName files package)).head? := by
  cases items with
  | nil => exact absurd hu (by simp)
  | cons a rest =>
      cases a with
      | type t =>
          obtain rfl := Option.some.inj hu
          rfl
      | lifetime n =>
          obtain ⟨text, htext⟩ : ∃ text, (argumentName files package (.lifetime n)).toList
              = '\'' :: text := ⟨_, String.toList_ofList⟩
          refine absurd ?_
            (hlifetime (text ++ TypeText.further (rest.map (argumentName files package))))
          rw [List.map_cons, TypeText.toList_names, htext, List.cons_append]
      | other ps => exact (hitems _ List.mem_cons_self).elim

variable (clean : (namesIn files package).Clean) {P : String → Prop}
  (leading : ∀ s, P s → TypeText.Leading s)

include clean leading

/-- A path with several arguments that is known by the name of a slice has a first type without a
leading name. -/
lemma not_leading_of_arguments {s : Segment} (hitems : ∀ a ∈ s.arguments.items, a.WellSpelled)
    (hlength : s.arguments.types.length ≠ 1)
    {names : List String} (hnames : s.arguments.items.map (argumentName files package) = names)
    (h : TypeText.Elemental P (", ".intercalate names) ∨ P (", ".intercalate names)) :
    ∀ u ∈ s.arguments.types.head?, ¬ TypeText.Leading (nameIn files package u) := by
  intro u hu
  subst hnames
  have hargument : ∀ t ∈ s.arguments.items.map (argumentName files package),
      TypeText.IsArgument t := by
    intro t ht
    obtain ⟨a, ha, rfl⟩ := List.mem_map.1 ht
    exact isArgument_of_wellSpelled clean (hitems a ha)
  obtain ⟨more, hmore⟩ := List.head?_eq_some_iff.1 hu
  have htwo : 2 ≤ (s.arguments.items.map (argumentName files package)).length := by
    have hle : s.arguments.types.length ≤ s.arguments.items.length := by
      rw [Arguments.types_eq]
      exact List.length_filterMap_le _ _
    rw [List.length_map]
    rw [hmore, List.length_cons] at hlength hle
    omega
  rcases h with h | h
  · have hfirst := head?_arguments hitems (h.composed leading).not_lifetime
      (Arguments.types_eq _ ▸ hu)
    exact h.not_leading_head leading hfirst
  · exact absurd (leading _ h) (TypeText.not_leading_names hargument htwo)

/-- **A path that is known by the name of a slice** is that of a list and shows the elements, or its
first argument has no leading name. -/
lemma path_of_elemental {p : Path} (hp : p.WellSpelled)
    (h : TypeText.Elemental P (nameIn files package (.path p))) :
    ∃ s, p.last? = some s
      ∧ ((s.name ∈ Lowering.sliceNames ∧ ∃ u, s.arguments.types = [u]
            ∧ P (nameIn files package u))
        ∨ ¬ (s.name ∈ Lowering.sliceNames ∧ s.arguments.types.length = 1)
          ∧ ∀ u ∈ s.arguments.types.head?, ¬ TypeText.Leading (nameIn files package u)) := by
  obtain ⟨s, hs⟩ := exists_last_of_wellSpelled hp
  have hwords := isWord_of_wellSpelled hp
  have hpath := Path.isPath_displayName hs hwords
  have hlast := Path.getLast?_displayName hs hwords
  refine ⟨s, hs, ?_⟩
  cases hk : Lowering.wrapped? s.name s.arguments.types.length with
  | some k =>
      rw [nameIn_path_wrapped hs hk] at h
      rcases h.of_applied hpath with ⟨hwrapper, hinner⟩ | ⟨hwrapper, hinner⟩
      · have hmem := hwrapper.mem hlast
        obtain ⟨u, hu, rfl⟩ := eq_singleton_of_wrapped hk (notMem_of_pointer _ hmem).1
        rw [hu] at hinner ⊢
        rw [name_singleton] at hinner
        refine .inr ⟨fun hslice => (notMem_of_pointer _ hmem).2 hslice.1, fun v hv => ?_⟩
        obtain rfl := Option.some.inj hv
        exact hinner.not_leading leading
      · have hmem := hwrapper.mem hlast
        obtain ⟨u, hu, rfl⟩ := eq_singleton_of_wrapped hk (notMem_of_slice _ hmem)
        rw [hu] at hinner
        rw [name_singleton] at hinner
        exact .inl ⟨hmem, u, hu, hinner⟩
  | none =>
      rw [nameIn_path_named hs hk] at h
      rcases clean.cases_named hpath (s.arguments.items.map
        (Lowering.oneSketch (namesIn files package))) with hbare | ⟨base, hbase, hend, hname⟩
      · exact absurd h (TypeText.Elemental.not_path hbare)
      · rw [hname, List.map_map] at h
        have hmem : ∀ {words}, TypeText.IsWrapper words base → s.name ∈ words := fun hwrapper =>
          hwrapper.mem (hend.trans hlast)
        have hcases := h.of_applied hbase
        have hlength : s.arguments.types.length ≠ 1 := length_ne_one_of_wrapped hk
          (hcases.imp (fun hwrapper => hmem hwrapper.1) fun hwrapper => hmem hwrapper.1)
        refine .inr ⟨fun hslice => hlength hslice.2, ?_⟩
        exact not_leading_of_arguments clean leading (items_of_wellSpelled hp hs) hlength rfl
          (hcases.imp And.right And.right)

/-- **Elements that are shown are those of the slice,** and what else is read off as the elements
has no leading name. -/
theorem shows_of_elemental : ∀ {t : Ty}, t.WellSpelled →
    TypeText.Elemental P (nameIn files package t) →
      (t.ShowsElements ∧ ∃ e, t.element? = some e ∧ P (nameIn files package e))
        ∨ ¬ t.ShowsElements
          ∧ ∀ e, t.element? = some e → ¬ TypeText.Leading (nameIn files package e)
  | .reference l m t, ht, h => by
      have hl : ∀ n ∈ l, TypeForm.IsLifetimeName n.toList := fun n hn =>
        (ht.1 n hn).isLifetimeName
      rw [nameIn_reference_words ht.1] at h
      have hstr : TypeText.IsPath "str" := ⟨by simp, by simp [TypeText.marks]⟩
      split at h
      · exact absurd (h.of_reference leading hl (.path hstr)) (TypeText.Elemental.not_path hstr)
      · have htarget := h.of_reference leading hl (composed_nameIn clean ht.2)
        exact shows_of_elemental (t := t) ht.2 htarget
  | .slice e, ht, h => .inl ⟨trivial, e, rfl,
      h.of_brackets leading (composed_nameIn clean ht) (brackets_nameIn_slice e)⟩
  | .array e n, ht, h => .inl ⟨trivial, e, rfl,
      h.of_brackets leading (composed_nameIn clean ht.1) (brackets_nameIn_array e n)⟩
  | .path p, ht, h => by
      obtain ⟨s, hs, ⟨hname, u, hu, hP⟩ | ⟨hother, hfirst⟩⟩ := path_of_elemental clean leading ht h
      · refine .inl ⟨⟨s, hs, hname, by rw [hu]; rfl⟩, u, ?_, hP⟩
        change p.firstType? = some u
        rw [Path.firstType?, hs, Option.bind_some, hu]
        rfl
      · refine .inr ⟨?_, fun e he => hfirst e ?_⟩
        · rintro ⟨s', hs', hshown⟩
          obtain rfl := Option.some.inj (hs.symm.trans hs')
          exact hother hshown
        · have hfirstType : p.firstType? = some e := he
          rwa [Path.firstType?, hs, Option.bind_some] at hfirstType
  | .tuple _ _, _, _ | .parenthesized _, _, _ =>
      .inr ⟨id, fun _ he => absurd he (by simp [Ty.element?, Ty.stripReferences])⟩
  | .qualified _ _ _, ht, _ | .traitObject _, ht, _ | .implTrait _, ht, _ | .other _, ht, _ =>
      ht.elim

end Loading

end FieldCopy
