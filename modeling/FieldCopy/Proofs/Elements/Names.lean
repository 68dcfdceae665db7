import Mathlib
import FieldCopy.Proofs.Canonical.Types
import FieldCopy.Proofs.Composition
import FieldCopy.Proofs.Elements.Texts

/-!
# Names of types that are spelled with words

The name that a type spelled with words is looked up by is set together from paths, the signs of
references, and brackets.  The elements of a type as written are read off its name, so what they are
known by has to be compared with what the elements themselves are known by.

**Leading names.**  Names may differ if arguments are put in another order.  A name that leads to a
path through references and wrappers only has no arguments to be put in order, so it stays
(`TypeText.Agree`).

**Main statement.**  `Loading.agree_canonical`: a leading name is that of the canonical type as
well.
-/

namespace FieldCopy

open Lowering (referenceSign)

/-! ## Words -/

namespace Source

/-- A word has none of the characters that are no part of names. -/
lemma IsWord.not_mem {w : String} (hw : IsWord w) {l : List Char}
    (hl : (l.all fun d => !Scan.isNameChar d && d != '#') = true) : ∀ c ∈ w.toList, c ∉ l := by
  intro c hc hmem
  have hmark := List.all_eq_true.1 hl c hmem
  rcases Scan.isSpelling_of_mem_word hw c hc with h | rfl
  · rw [h] at hmark
    exact absurd hmark (by simp)
  · exact absurd hmark (by decide)

lemma IsWord.isLifetimeName {w : String} (hw : IsWord w) : TypeForm.IsLifetimeName w.toList where
  nonempty := Scan.ne_nil_of_isWord hw
  marks c hc := by
    refine ⟨hw.not_mem rfl c hc, fun hcolon => ?_⟩
    exact hw.not_mem (l := [':']) rfl c hc (List.mem_singleton.2 hcolon)

lemma IsWord.colon_notMem {w : String} (hw : IsWord w) : ':' ∉ w.toList := fun h =>
  hw.not_mem (l := [':']) rfl ':' h (List.mem_singleton_self _)

end Source

namespace TypeText

lemma isPath_of_isWord {w : String} (hw : Source.IsWord w) : IsPath w :=
  ⟨Source.Scan.ne_nil_of_isWord hw, hw.not_mem rfl⟩

/-- Paths one inside the other are a path. -/
lemma isPath_join {names : List String} (hne : names ≠ []) (h : ∀ n ∈ names, IsPath n) :
    IsPath (ModulePath.join names) where
  nonempty := by
    obtain ⟨first, rest, rfl⟩ := List.exists_cons_of_ne_nil hne
    rw [ModulePath.toList_join, List.map_cons]
    have hfirst := (h first List.mem_cons_self).nonempty
    cases rest with
    | nil => rwa [List.map_nil, List.intercalate_singleton]
    | cons second rest =>
        rw [List.map_cons, List.intercalate_cons_cons]
        simp
  plain c hc hmark := by
    rw [ModulePath.toList_join] at hc
    rcases ModulePath.mem_intercalate hc with hc | ⟨t, ht, hc⟩
    · obtain rfl : c = ':' := by simpa using hc
      exact absurd hmark (by decide)
    · obtain ⟨n, hn, rfl⟩ := List.mem_map.1 ht
      exact (h n hn).plain c hc hmark

end TypeText

namespace Source

namespace Path

variable {p : Path} {last : Segment} (h : p.last? = some last)
  (words : ∀ s ∈ p.segments, IsWord s.name)

include h

/-- A path that has a last name is known by names. -/
lemma names_shorten_ne_nil : p.shorten.segments.map Segment.name ≠ [] := by
  intro hnil
  have hlast := p.last?_shorten.trans h
  rw [last?, List.map_eq_nil_iff.1 hnil] at hlast
  exact absurd hlast (by simp)

include words

/-- A path of words is known by a path. -/
lemma isPath_displayName : TypeText.IsPath p.displayName := by
  refine TypeText.isPath_join (names_shorten_ne_nil h) fun n hn => ?_
  obtain ⟨s, hs, rfl⟩ := List.mem_map.1 hn
  exact TypeText.isPath_of_isWord (words s (mem_segments_of_shorten s hs))

/-- The path that a path of words is known by ends with its last name. -/
lemma getLast?_displayName : (ModulePath.segments p.displayName).getLast? = some last.name := by
  have hnames : ∀ n ∈ p.shorten.segments.map Segment.name, ':' ∉ n.toList := by
    intro n hn
    obtain ⟨s, hs, rfl⟩ := List.mem_map.1 hn
    exact (words s (mem_segments_of_shorten s hs)).colon_notMem
  have hsegments : ModulePath.segments p.displayName = p.shorten.segments.map Segment.name :=
    ModulePath.segments_join (names_shorten_ne_nil h) hnames
  have hlast : p.shorten.segments.getLast? = some last := p.last?_shorten.trans h
  rw [hsegments, List.getLast?_map, hlast, Option.map_some]

end Path

end Source

/-! ## Names of arguments -/

namespace TypeText

/-- What the name of a generic argument may be. -/
def IsArgument (s : String) : Prop := Composed s ∨ ∃ rest, s.toList = '\'' :: rest

/-- A path with arguments has a name. -/
lemma Composed.ofNames {base : String} (hbase : IsPath base) {names : List String}
    (hne : names ≠ []) (h : ∀ s ∈ names, IsArgument s) :
    Composed (withArguments base (", ".intercalate names)) := by
  obtain ⟨first, more, rfl⟩ := List.exists_cons_of_ne_nil hne
  rcases h first List.mem_cons_self with hfirst | ⟨rest, hrest⟩
  · exact .applied more hbase hfirst
  · refine .lifetime hbase ⟨rest ++ further more, ?_⟩
    rw [toList_names, hrest, List.cons_append]

/-- More than one argument is no leading name. -/
lemma not_leading_names {names : List String} (h : ∀ s ∈ names, IsArgument s)
    (hlength : 2 ≤ names.length) : ¬ Leading (", ".intercalate names) := by
  obtain _ | ⟨first, _ | ⟨second, more⟩⟩ := names
  · exact absurd hlength (by simp)
  · exact absurd hlength (by simp)
  · rcases h first List.mem_cons_self with hfirst | ⟨rest, hrest⟩
    · exact Leading.not_names hfirst
    · intro hleading
      refine hleading.composed.not_lifetime (rest ++ further (second :: more)) ?_
      rw [toList_names, hrest, List.cons_append]

/-- Names of which neither leads to a path unless they are the same. -/
def Agree (s s' : String) : Prop := Leading s ∨ Leading s' → s = s'

namespace Agree

variable {s s' : String}

lemma refl (s : String) : Agree s s := fun _ => rfl

lemma of_not (h : ¬ Leading s) (h' : ¬ Leading s') : Agree s s' := fun hleading =>
  (hleading.elim h h').elim

lemma of_brackets (h : IsBracketed s) (h' : IsBracketed s') : Agree s s' :=
  of_not (fun hleading => hleading.not_bracketed h) fun hleading => hleading.not_bracketed h'

lemma applied {p : String} (hp : IsPath p) (h : Agree s s') :
    Agree (withArguments p s) (withArguments p s') :=
  fun hleading => by
    rw [h (hleading.imp (fun h => (h.of_applied hp).2) fun h => (h.of_applied hp).2)]

lemma reference {l : Option String} {m : Bool} (hl : ∀ n ∈ l, TypeForm.IsLifetimeName n.toList)
    (hs : Composed s) (hs' : Composed s') (h : Agree s s') :
    Agree (referenceSign l m ++ s) (referenceSign l m ++ s') :=
  fun hleading => by rw [h (hleading.imp (.of_reference hl hs) (.of_reference hl hs'))]

/-- Some names, if they are one each and agree. -/
lemma names {names names' : List String} (hlength : names'.length = names.length)
    (h : ∀ s ∈ names, IsArgument s) (h' : ∀ s ∈ names', IsArgument s)
    (hone : ∀ s s', names = [s] → names' = [s'] → Agree s s') :
    Agree (", ".intercalate names) (", ".intercalate names') := by
  by_cases htwo : 2 ≤ names.length
  · exact .of_not (not_leading_names h htwo) (not_leading_names h' (hlength ▸ htwo))
  obtain _ | ⟨s, _ | ⟨t, rest⟩⟩ := names
  · rw [List.length_eq_zero_iff.1 hlength]
    exact .refl _
  · obtain ⟨s', rfl⟩ := List.length_eq_one_iff.1 hlength
    rw [String.intercalate_singleton, String.intercalate_singleton]
    exact hone s s' rfl rfl
  · exact absurd (by simp) htwo

end Agree

end TypeText

/-! ## Paths -/

/-- What is found for paths are paths, and an enumeration is found by its name. -/
structure Names.Clean (n : Names) : Prop where
  structs : ∀ written path, n.structPath? written = some path → TypeText.IsPath path
  enumerations : ∀ written path, n.enumeration? written = some path → TypeText.IsPath path
  names : ∀ written path, n.enumeration? written = some path →
    (ModulePath.segments path).getLast? = (ModulePath.segments written).getLast?

namespace Loading

open Source

variable {files : List ParsedFile} {package : String}

/-- The name of a generic argument. -/
def argumentName (files : List ParsedFile) (package : String) (a : Argument) : String :=
  (Lowering.oneSketch (namesIn files package) a).name

/-- The types among arguments are the types among their sketches. -/
lemma types_oneSketch (n : Names) (items : List Argument) :
    (items.map (Lowering.oneSketch n)).filterMap ArgumentSketch.type?
      = (items.filterMap Argument.type?).map (Lowering.sketch n) := by
  rw [List.filterMap_map, List.map_filterMap]
  refine List.filterMap_congr fun a _ => ?_
  rw [Function.comp_apply]
  cases a <;> rw [Lowering.oneSketch] <;> rfl

/-- What stands around one type has its name alone. -/
lemma name_singleton (t : Ty) :
    ", ".intercalate (([t].take 1).map (nameIn files package)) = nameIn files package t :=
  String.intercalate_singleton

/-- A wrapper is known by one type at least. -/
lemma take_ne_nil_of_wrapped {last : String} {types : List Ty} {k : Nat}
    (hk : Lowering.wrapped? last types.length = some k) : types.take k ≠ [] := by
  have hpos : k ≠ 0 := by
    rintro rfl
    obtain _ | ⟨e, _ | ⟨v, more⟩⟩ := types <;> simp [Lowering.wrapped?] at hk
  intro hnil
  rcases List.take_eq_nil_iff.1 hnil with h | rfl
  · exact hpos h
  · simp [Lowering.wrapped?] at hk

section

variable {p : Path} {s : Segment} (hlast : p.last? = some s)

include hlast

lemma nameIn_path :
    nameIn files package (.path p)
      = (Sketch.atPath (namesIn files package) p.displayName s.name
          (s.arguments.items.map (Lowering.oneSketch (namesIn files package)))).type.name := by
  rw [nameIn, Lowering.sketch, Lowering.pathSketches_eq_map _ hlast]
  simp only [hlast]

/-- The path of a wrapper is known by as many types as the wrapper has. -/
lemma nameIn_path_wrapped {k : Nat}
    (hk : Lowering.wrapped? s.name s.arguments.types.length = some k) :
    nameIn files package (.path p) = TypeText.withArguments p.displayName
      (", ".intercalate ((s.arguments.types.take k).map (nameIn files package))) := by
  rw [nameIn_path hlast, Sketch.atPath, types_oneSketch, ← Arguments.types_eq]
  cases htypes : s.arguments.types with
  | nil => exact absurd hk (by simp [htypes, Lowering.wrapped?])
  | cons e more =>
      cases more with
      | nil =>
          rw [htypes, List.length_singleton, Lowering.wrapped?,
            Option.ite_none_right_eq_some, Bool.or_eq_true] at hk
          obtain ⟨hname, hone⟩ := hk
          obtain rfl := Option.some.inj hone
          rw [name_singleton, List.map_singleton]
          dsimp only
          split
          · rfl
          · rename_i hpointer
            rw [if_pos (hname.resolve_left hpointer)]
            rfl
      | cons v more =>
          rw [htypes, List.length_cons, List.length_cons, Lowering.wrapped?,
            Option.ite_none_right_eq_some] at hk
          obtain ⟨hname, htwo⟩ := hk
          obtain rfl := Option.some.inj htwo
          rw [List.map_cons, List.map_cons]
          dsimp only
          rw [if_pos hname]
          simp [Sketch.mapBetween, nameIn, toString, String.append_assoc]

/-- Any other path is known by what it leads to. -/
lemma nameIn_path_named (hk : Lowering.wrapped? s.name s.arguments.types.length = none) :
    nameIn files package (.path p)
      = (Sketch.named (namesIn files package) p.displayName
          (s.arguments.items.map (Lowering.oneSketch (namesIn files package)))).type.name := by
  rw [nameIn_path hlast, Sketch.atPath, types_oneSketch, ← Arguments.types_eq]
  cases htypes : s.arguments.types with
  | nil => rfl
  | cons e more =>
      cases more with
      | nil =>
          rw [htypes, List.length_singleton, Lowering.wrapped?, ite_eq_right_iff] at hk
          have hname : ¬ _ := fun h => absurd (hk h) (by simp)
          rw [Bool.or_eq_true, not_or] at hname
          rw [List.map_singleton]
          dsimp only
          rw [if_neg hname.1, if_neg hname.2]
      | cons v more =>
          rw [htypes, List.length_cons, List.length_cons, Lowering.wrapped?,
            ite_eq_right_iff] at hk
          rw [List.map_cons, List.map_cons]
          dsimp only
          rw [if_neg fun h => absurd (hk h) (by simp)]

end

lemma nameIn_parenthesized (t : Ty) :
    nameIn files package (.parenthesized t) = nameIn files package t := by
  rw [nameIn, nameIn, Lowering.sketch]

/-- A slice is known by what its elements are known by, in square brackets. -/
lemma brackets_nameIn_slice (e : Ty) :
    TypeText.Brackets (nameIn files package e) (nameIn files package (.slice e)) := by
  have hname : nameIn files package (.slice e) = s!"[{nameIn files package e}]" := by
    rw [nameIn, nameIn, Lowering.sketch]
    rfl
  exact hname ▸ TypeText.brackets_slice _

lemma brackets_nameIn_array (e : Ty) (n : List Piece) :
    TypeText.Brackets (nameIn files package e) (nameIn files package (.array e n)) := by
  have hname : nameIn files package (.array e n)
      = s!"[{nameIn files package e}; {TypeName.ofLexemes (pieceLexemes n)}]" := by
    rw [nameIn, nameIn, Lowering.sketch]
    rfl
  exact hname ▸ TypeText.brackets_array _ _

/-- A tuple is known by a text in parentheses. -/
lemma isBracketed_tuple (es : List Ty) (trailing : Bool) :
    TypeText.IsBracketed (nameIn files package (.tuple es trailing)) := by
  have hhead : '(' ∈ (nameIn files package (.tuple es trailing)).toList.head? := by
    cases es with
    | nil =>
        rw [nameIn, Lowering.sketch, Sketch.leaf]
        simp
    | cons t es =>
        rw [nameIn, Lowering.sketch, Sketch.leaf]
        rw [Ty.displayName, Ty.shorten, Ty.lexemes, TypeName.ofLexemes, String.toList_ofList]
        rfl
  exact ⟨'(', hhead, .inr rfl⟩

/-- A reference is known by its sign and what it leads to, the word for texts meaning texts. -/
lemma nameIn_reference_words {l : Option String} (hl : ∀ n ∈ l, IsWord n) (m : Bool) (t : Ty) :
    nameIn files package (.reference l m t)
      = referenceSign l m ++ if Lowering.isString t then "str" else nameIn files package t := by
  rw [nameIn_reference]
  split
  · rename_i hstring
    rw [Lowering.eq_of_isString hstring,
      Lowering.displayName_reference_str fun n hn => (hl n hn).isLifetimeName]
    apply String.toList_injective
    rw [TypeForm.toList_name_reference, TypeText.toList_reference]
    rfl
  · rfl

/-! ## Names of paths with arguments -/

section

variable {n : Names} (clean : n.Clean) {written : String} (hwritten : TypeText.IsPath written)

include clean hwritten

/-- What a path is called that leads to no structure. -/
lemma isPath_base : TypeText.IsPath ((n.enumeration? written).getD written) := by
  cases hpath : n.enumeration? written with
  | none => exact hwritten
  | some path => exact clean.enumerations written path hpath

lemma composed_named {sketches : List ArgumentSketch}
    (h : ∀ a ∈ sketches, TypeText.IsArgument a.name) :
    TypeText.Composed (Sketch.named n written sketches).type.name := by
  rw [Sketch.named]
  split
  · rename_i path hpath
    exact .path (clean.structs written path hpath)
  · have hbase := isPath_base clean hwritten
    dsimp only
    split
    · exact .path hbase
    · rename_i hne
      refine .ofNames hbase (fun hnil => hne ?_) fun t ht => ?_
      · rw [List.map_eq_nil_iff.1 hnil]
        rfl
      · obtain ⟨a, ha, rfl⟩ := List.mem_map.1 ht
        exact h a ha

lemma agree_named {sketches sketches' : List ArgumentSketch}
    (hempty : sketches.isEmpty = sketches'.isEmpty)
    (h : TypeText.Agree (", ".intercalate (sketches.map ArgumentSketch.name))
      (", ".intercalate (sketches'.map ArgumentSketch.name))) :
    TypeText.Agree (Sketch.named n written sketches).type.name
      (Sketch.named n written sketches').type.name := by
  rw [Sketch.named, Sketch.named, ← hempty]
  split
  · exact .refl _
  · dsimp only
    split
    · exact .refl _
    · exact .applied (isPath_base clean hwritten) h

end

/-! ## Types that are spelled with words -/

lemma isArgument_argumentName {a : Argument} (ha : a.WellSpelled)
    (htype : ∀ t, a = .type t → TypeText.Composed (nameIn files package t)) :
    TypeText.IsArgument (argumentName files package a) := by
  cases a with
  | type t => exact .inl (htype t rfl)
  | lifetime l =>
      rw [argumentName, Lowering.oneSketch, ArgumentSketch.name, TypeName.ofLexemes,
        Argument.lexemes]
      exact .inr ⟨_, String.toList_ofList⟩
  | other ps => exact ha.elim

section

variable {p : Path} (hp : p.WellSpelled)

include hp

lemma isWord_of_wellSpelled : ∀ s ∈ p.segments, IsWord s.name := by
  obtain ⟨r, segments⟩ := p
  intro s hs
  obtain ⟨n, a⟩ := s
  exact (segmentsWellSpelled_iff.1 hp.1 _ hs).1

lemma exists_last_of_wellSpelled : ∃ s, p.last? = some s := by
  obtain ⟨r, segments⟩ := p
  exact ⟨_, List.getLast?_eq_some_getLast hp.2.1⟩

lemma items_of_wellSpelled {s : Segment} (hs : p.last? = some s) :
    ∀ a ∈ s.arguments.items, a.WellSpelled := by
  obtain ⟨r, segments⟩ := p
  obtain ⟨n, a⟩ := s
  obtain ⟨-, -, ha⟩ := segmentsWellSpelled_iff.1 hp.1 _ (List.mem_of_getLast? hs)
  cases a with
  | none => exact List.forall_mem_nil _
  | angled turbofish items trailing => exact itemsWellSpelled_iff.1 ha.1
  | called ps => exact ha.elim

end

/-- The word for texts is canonical, and no other type becomes it. -/
lemma isString_canonical (t : Ty) : Lowering.isString t.canonical = Lowering.isString t := by
  cases t with
  | path p =>
      have hlast : ∀ (r : Bool) (ss : List Segment),
          (Source.Path.mk r (ss.map Segment.canonical)).isName "str"
            = (Source.Path.mk r ss).isName "str" := by
        rintro r (_ | ⟨⟨n, a⟩, _ | ⟨s, ss⟩⟩) <;> cases r
        case cons.nil.false =>
          simp [Path.isName, Segment.canonical, Segment.shortenInner, Segment.arranged,
            Arguments.isNone_shorten, Arguments.isNone_arranged]
        all_goals rfl
      have hshorten : p.shorten.isName "str" = p.isName "str" := by
        obtain ⟨r, segments⟩ := p
        rcases segments with _ | ⟨a, _ | ⟨b, _ | ⟨⟨n, c⟩, _ | ⟨d, rest⟩⟩⟩⟩
        case cons.cons.cons.nil =>
          cases hprelude : (Source.Path.mk r [a, b, .mk n c]).isPrelude with
          | true =>
              have hname : n ≠ "str" := by
                rintro rfl
                simp [Path.isPrelude, Path.segments, Segment.name, preludeTypes] at hprelude
              cases r <;> simp [Path.shorten, Path.segments, hprelude, Path.isName, hname]
          | false => simp [Path.shorten, Path.segments, hprelude]
        all_goals rfl
      rw [Ty.canonical_path, Lowering.isString, Lowering.isString, p.canonical_eq, hlast,
        ← hshorten]
      cases p.shorten
      rfl
  | reference _ _ _ | slice _ | array _ _ | tuple _ _ | parenthesized _ => simp [Lowering.isString]
  | qualified _ _ _ | traitObject _ | implTrait _ | other _ => rfl

section

variable (clean : (namesIn files package).Clean)

include clean

/-- The name of a path with arguments. -/
lemma composed_path {p : Path} (hp : p.WellSpelled)
    (ih : ∀ u : Ty, u.Inside (.path p) → TypeText.Composed (nameIn files package u)) :
    TypeText.Composed (nameIn files package (.path p)) := by
  obtain ⟨s, hs⟩ := exists_last_of_wellSpelled hp
  have hwritten := Path.isPath_displayName hs (isWord_of_wellSpelled hp)
  have hmem : s ∈ p.segments := List.mem_of_getLast? hs
  have hargument : ∀ a ∈ s.arguments.items, TypeText.IsArgument (argumentName files package a) :=
    fun a ha => isArgument_argumentName (items_of_wellSpelled hp hs a ha)
      fun t ht => ih t (.argument hmem (ht ▸ ha))
  have htype : ∀ t ∈ s.arguments.types, TypeText.Composed (nameIn files package t) := fun t ht =>
    ih t (.argument hmem (Arguments.mem_types.1 ht))
  cases hk : Lowering.wrapped? s.name s.arguments.types.length with
  | some k =>
      rw [nameIn_path_wrapped hs hk]
      refine .ofNames hwritten (fun hnil => take_ne_nil_of_wrapped hk (List.map_eq_nil_iff.1 hnil))
        fun t ht => ?_
      obtain ⟨u, hu, rfl⟩ := List.mem_map.1 ht
      exact .inl (htype u (List.mem_of_mem_take hu))
  | none =>
      rw [nameIn_path_named hs hk]
      refine composed_named clean hwritten fun a ha => ?_
      obtain ⟨b, hb, rfl⟩ := List.mem_map.1 ha
      exact hargument b hb

/-- **The name of a type that is spelled with words** is set together from paths, references and
brackets. -/
theorem composed_nameIn {t : Ty} (ht : t.WellSpelled) :
    TypeText.Composed (nameIn files package t) := by
  refine ht.induction (P := fun t => TypeText.Composed (nameIn files package t)) fun t ht ih => ?_
  cases t with
  | path p => exact composed_path clean ht ih
  | reference l m t =>
      rw [nameIn_reference_words ht.1]
      refine .reference (fun n hn => (ht.1 n hn).isLifetimeName) ?_
      split
      · exact .path ⟨by simp, by simp [TypeText.marks]⟩
      · exact ih t .referenced
  | slice e => exact .bracketed (brackets_nameIn_slice e).isBracketed
  | array e n => exact .bracketed (brackets_nameIn_array e n).isBracketed
  | tuple es trailing => exact .bracketed (isBracketed_tuple es trailing)
  | parenthesized t =>
      rw [nameIn_parenthesized]
      exact ih t .parenthesized
  | qualified _ _ _ | traitObject _ | implTrait _ | other _ => exact ht.elim

lemma isArgument_of_wellSpelled {a : Argument} (ha : a.WellSpelled) :
    TypeText.IsArgument (argumentName files package a) :=
  isArgument_argumentName ha fun _ ht =>
    composed_nameIn clean (ht ▸ ha : (Argument.type _).WellSpelled)

/-! ### Canonical types -/

/-- The names of the arguments of a path and of the canonical one. -/
lemma agree_arguments {s : Segment} (hitems : ∀ a ∈ s.arguments.items, a.WellSpelled)
    (ih : ∀ t, .type t ∈ s.arguments.items →
      TypeText.Agree (nameIn files package t) (nameIn files package t.canonical)) :
    TypeText.Agree
      (", ".intercalate (s.arguments.items.map (argumentName files package)))
      (", ".intercalate (s.canonical.arguments.items.map (argumentName files package))) := by
  rw [s.items_canonical]
  refine .names ?_ (fun t ht => ?_) (fun t ht => ?_) fun t t' ht ht' => ?_
  · rw [List.length_map, List.length_map, length_lifetimesFirst, List.length_map]
  · obtain ⟨a, ha, rfl⟩ := List.mem_map.1 ht
    exact isArgument_of_wellSpelled clean (hitems a ha)
  · obtain ⟨a, ha, rfl⟩ := List.mem_map.1 ht
    obtain ⟨b, hb, rfl⟩ := List.mem_map.1 (mem_lifetimesFirst.1 ha)
    exact isArgument_of_wellSpelled clean (hitems b hb).shorten.arranged
  · obtain ⟨a, ha, rfl⟩ := List.map_eq_singleton_iff.1 ht
    rw [ha, List.map_singleton, lifetimesFirst_singleton, List.map_singleton] at ht'
    obtain rfl := List.singleton_inj.1 ht'
    rw [ha] at hitems ih
    cases a with
    | type t =>
        rw [Argument.canonical_type]
        exact ih t (List.mem_singleton_self _)
    | lifetime n =>
        rw [Argument.canonical_lifetime]
        exact .refl _
    | other ps => exact (hitems _ (List.mem_singleton_self _)).elim

/-- The name of a path and of the canonical one. -/
lemma agree_path {p : Path} (hp : p.WellSpelled)
    (ih : ∀ u : Ty, u.Inside (.path p) →
      TypeText.Agree (nameIn files package u) (nameIn files package u.canonical)) :
    TypeText.Agree (nameIn files package (.path p)) (nameIn files package (.path p.canonical)) := by
  obtain ⟨s, hs⟩ := exists_last_of_wellSpelled hp
  have hwritten := Path.isPath_displayName hs (isWord_of_wellSpelled hp)
  have hmem : s ∈ p.segments := List.mem_of_getLast? hs
  have hitems := items_of_wellSpelled hp hs
  have hs' : p.canonical.last? = some s.canonical := by rw [Path.last?_canonical, hs]; rfl
  have hwrapped : Lowering.wrapped? s.canonical.name s.canonical.arguments.types.length
      = Lowering.wrapped? s.name s.arguments.types.length := by
    rw [Segment.name_canonical, Segment.types_canonical, List.length_map]
  have hinside : ∀ t ∈ s.arguments.types, t.Inside (.path p) := fun t ht =>
    .argument hmem (Arguments.mem_types.1 ht)
  cases hk : Lowering.wrapped? s.name s.arguments.types.length with
  | some k =>
      rw [nameIn_path_wrapped hs hk, nameIn_path_wrapped hs' (hwrapped.trans hk),
        Path.displayName_canonical, Segment.types_canonical]
      have hwell : ∀ t ∈ s.arguments.types.take k, t.WellSpelled := fun t ht =>
        (hinside t (List.mem_of_mem_take ht)).wellSpelled hp
      rw [← List.map_take, List.map_map]
      refine .applied hwritten (.names ?_ (fun t ht => ?_) (fun t ht => ?_) fun t t' ht ht' => ?_)
      · rw [List.length_map, List.length_map]
      · obtain ⟨u, hu, rfl⟩ := List.mem_map.1 ht
        exact .inl (composed_nameIn clean (hwell u hu))
      · obtain ⟨u, hu, rfl⟩ := List.mem_map.1 ht
        exact .inl (composed_nameIn clean (hwell u hu).canonical)
      · obtain ⟨u, hu, rfl⟩ := List.map_eq_singleton_iff.1 ht
        rw [hu] at ht'
        obtain rfl := List.singleton_inj.1 ht'
        exact ih u (hinside u (List.mem_of_mem_take (hu ▸ List.mem_singleton_self u)))
  | none =>
      rw [nameIn_path_named hs hk, nameIn_path_named hs' (hwrapped.trans hk),
        Path.displayName_canonical]
      refine agree_named clean hwritten ?_ ?_
      · rw [List.isEmpty_map, List.isEmpty_map, Bool.eq_iff_iff, List.isEmpty_iff_length_eq_zero,
          List.isEmpty_iff_length_eq_zero, s.items_canonical, length_lifetimesFirst,
          List.length_map]
      · rw [List.map_map, List.map_map]
        exact agree_arguments clean hitems fun t ht => ih t (.argument hmem ht)

/-- **A leading name is that of the canonical type as well.** -/
theorem agree_canonical {t : Ty} (ht : t.WellSpelled) :
    TypeText.Agree (nameIn files package t) (nameIn files package t.canonical) := by
  refine ht.induction
    (P := fun t => TypeText.Agree (nameIn files package t) (nameIn files package t.canonical))
    fun t ht ih => ?_
  cases t with
  | path p =>
      rw [Ty.canonical_path]
      exact agree_path clean ht ih
  | reference l m t =>
      rw [Ty.canonical_reference, nameIn_reference_words ht.1, nameIn_reference_words ht.1,
        isString_canonical]
      split
      · exact .refl _
      · exact .reference (fun n hn => (ht.1 n hn).isLifetimeName) (composed_nameIn clean ht.2)
          (composed_nameIn clean ht.2.canonical) (ih t .referenced)
  | slice e =>
      rw [Ty.canonical_slice]
      exact .of_brackets (brackets_nameIn_slice _).isBracketed
        (brackets_nameIn_slice _).isBracketed
  | array e n =>
      rw [Ty.canonical_array]
      exact .of_brackets (brackets_nameIn_array _ _).isBracketed
        (brackets_nameIn_array _ _).isBracketed
  | tuple es trailing =>
      rw [Ty.canonical_tuple]
      exact .of_brackets (isBracketed_tuple _ _) (isBracketed_tuple _ _)
  | parenthesized t =>
      rw [Ty.canonical_parenthesized, nameIn_parenthesized, nameIn_parenthesized]
      exact ih t .parenthesized
  | qualified _ _ _ | traitObject _ | implTrait _ | other _ => exact ht.elim

end

end Loading

end FieldCopy
