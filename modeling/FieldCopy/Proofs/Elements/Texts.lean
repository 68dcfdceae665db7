import Mathlib
import FieldCopy.Proofs.Conflation.Finding

/-!
# Texts that are set together like names of types

The name of a type is set together from paths, the signs of references, and brackets.  A name that
is built from paths, references and the angle brackets of wrappers is that of a type from which
pointers lead to a path (`TypeText.Leading`).  What else a name may be is only looked at as far as
it can be mistaken for such a name (`TypeText.Composed`).

**Main statement.**  `TypeText.Leading.eq_of_append`: where a leading name ends is told by the name,
whatever else the text may be read as.
-/

namespace FieldCopy

open Lowering (referenceSign)

namespace TypeText

/-- The marks that set the parts of names together and apart. -/
def marks : List Char := ['<', '>', ',', ';', '[', ']', '(', ')', '&', '\'', ' ']

/-- A text that can be the path of a type. -/
structure IsPath (p : String) : Prop where
  nonempty : p.toList ≠ []
  plain : ∀ c ∈ p.toList, c ∉ marks

/-- A path with arguments behind it. -/
abbrev withArguments (p arguments : String) : String := s!"{p}<{arguments}>"

/-- A path that ends with one of some words. -/
structure IsWrapper (words : List String) (p : String) : Prop where
  isPath : IsPath p
  last : ∃ w ∈ words, (ModulePath.segments p).getLast? = some w

/-- The name of a type from which pointers lead to a path. -/
inductive Leading : String → Prop where
  | path {p : String} (hp : IsPath p) : Leading p
  | reference {l : Option String} {m : Bool} {inner : String}
      (hl : ∀ n ∈ l, TypeForm.IsLifetimeName n.toList) (h : Leading inner) :
      Leading (referenceSign l m ++ inner)
  | wrapper {p inner : String} (hp : IsWrapper Lowering.pointerNames p) (h : Leading inner) :
      Leading s!"{p}<{inner}>"

/-- A text that begins with a square or a round bracket. -/
def IsBracketed (s : String) : Prop := ∃ c ∈ s.toList.head?, c = '[' ∨ c = '('

/-- A name in square brackets, in front of what can follow it. -/
def Brackets (inner s : String) : Prop :=
  ∃ rest, s.toList = '[' :: (inner.toList ++ rest) ∧ Extent.Follows .argument rest

/-- The name of a type from which pointers lead to a slice, the elements of which have a name as
required. -/
inductive Elemental (P : String → Prop) : String → Prop where
  | reference {l : Option String} {m : Bool} {inner : String}
      (hl : ∀ n ∈ l, TypeForm.IsLifetimeName n.toList) (h : Elemental P inner) :
      Elemental P (referenceSign l m ++ inner)
  | wrapper {p inner : String} (hp : IsWrapper Lowering.pointerNames p) (h : Elemental P inner) :
      Elemental P s!"{p}<{inner}>"
  | list {p inner : String} (hp : IsWrapper Lowering.sliceNames p) (h : P inner) :
      Elemental P s!"{p}<{inner}>"
  | bracketed {inner s : String} (hs : Brackets inner s) (h : P inner) : Elemental P s

/-- What the name of a type may be: in angle brackets may stand more than one name, or a lifetime,
and what begins with another bracket is not looked into. -/
inductive Composed : String → Prop where
  | path {p : String} (hp : IsPath p) : Composed p
  | reference {l : Option String} {m : Bool} {inner : String}
      (hl : ∀ n ∈ l, TypeForm.IsLifetimeName n.toList) (h : Composed inner) :
      Composed (referenceSign l m ++ inner)
  | applied {p inner : String} (more : List String) (hp : IsPath p) (h : Composed inner) :
      Composed (withArguments p (", ".intercalate (inner :: more)))
  | lifetime {p inner : String} (hp : IsPath p) (h : ∃ rest, inner.toList = '\'' :: rest) :
      Composed s!"{p}<{inner}>"
  | bracketed {s : String} (h : IsBracketed s) : Composed s

/-! ## Fronts of texts -/

/-- Texts up to the first of some characters are the same if what begins with them is. -/
lemma eq_of_fronts {stops n n' rest rest' : List Char} (hn : ∀ c ∈ n, c ∉ stops)
    (hn' : ∀ c ∈ n', c ∉ stops) (hrest : ∀ c ∈ rest.head?, c ∈ stops)
    (hrest' : ∀ c ∈ rest'.head?, c ∈ stops) (h : n ++ rest = n' ++ rest') :
    n = n' ∧ rest = rest' := by
  induction n generalizing n' with
  | nil =>
      cases n' with
      | nil => exact ⟨rfl, h⟩
      | cons c n' =>
          have hstop : c ∈ stops := hrest c (by simp [show rest = c :: n' ++ rest' from h])
          exact absurd hstop (hn' c List.mem_cons_self)
  | cons c n ih =>
      cases n' with
      | nil =>
          have hstop : c ∈ stops := hrest' c (by simp [show rest' = c :: n ++ rest from h.symm])
          exact absurd hstop (hn c List.mem_cons_self)
      | cons c' n' =>
          obtain ⟨rfl, htail⟩ := List.cons.inj h
          obtain ⟨rfl, rfl⟩ := ih (fun d hd => hn d (List.mem_cons_of_mem _ hd))
            (fun d hd => hn' d (List.mem_cons_of_mem _ hd)) htail
          exact ⟨rfl, rfl⟩

lemma mem_marks_of_end : ∀ c ∈ '<' :: Extent.ends .argument, c ∈ marks := by
  simp [Extent.ends, marks]

lemma follows_marks {x : List Char} (hx : Extent.Follows .argument x) : ∀ c ∈ x.head?, c ∈ marks :=
  fun c hc => mem_marks_of_end c (List.mem_cons_of_mem _ (hx c hc))

lemma toList_reference (l : Option String) (m : Bool) (inner : String) :
    (referenceSign l m ++ inner).toList
      = '&' :: (TypeForm.lifetimeText l ++ (TypeForm.mutableText m ++ inner.toList)) := by
  cases l <;> cases m <;>
    simp [referenceSign, TypeForm.lifetimeText, TypeForm.mutableText, toString]

lemma toList_applied (p inner : String) :
    (s!"{p}<{inner}>").toList = p.toList ++ '<' :: (inner.toList ++ ['>']) := by
  simp [toString]

lemma toList_applied_append (p inner : String) (x : List Char) :
    (s!"{p}<{inner}>").toList ++ x = p.toList ++ '<' :: (inner.toList ++ '>' :: x) := by
  simp [toString]

/-- What stands behind the first of some names. -/
def further (more : List String) : List Char := (more.map fun s => ", ".toList ++ s.toList).flatten

lemma toList_names (first : String) (more : List String) :
    (", ".intercalate (first :: more)).toList = first.toList ++ further more := by
  induction more generalizing first with
  | nil => simp [further]
  | cons s more ih =>
      rw [String.intercalate_cons_cons, String.toList_append, String.toList_append, ih]
      simp [further]

/-- What stands behind the first of some names can follow it. -/
lemma follows_further (more : List String) {x : List Char} (hx : Extent.Follows .argument x) :
    Extent.Follows .argument (further more ++ x) := by
  cases more with
  | nil => simpa [further] using hx
  | cons s more =>
      intro c hc
      obtain rfl : ',' = c := by simpa [further] using hc
      decide

namespace IsPath

variable {p : String}

/-- A path does not begin with a mark. -/
lemma ne_cons (hp : IsPath p) {c : Char} (hc : c ∈ marks) (x rest : List Char) :
    p.toList ++ x ≠ c :: rest := by
  intro h
  cases htext : p.toList with
  | nil => exact hp.nonempty htext
  | cons d t =>
      rw [htext, List.cons_append] at h
      obtain ⟨rfl, -⟩ := List.cons.inj h
      exact hp.plain d (by simp [htext]) hc

lemma eq_of_append {p' : String} (hp : IsPath p) (hp' : IsPath p') {x y : List Char}
    (hx : ∀ c ∈ x.head?, c ∈ marks) (hy : ∀ c ∈ y.head?, c ∈ marks)
    (h : p.toList ++ x = p'.toList ++ y) : p = p' ∧ x = y := by
  obtain ⟨hpath, rfl⟩ := eq_of_fronts hp.plain hp'.plain hx hy h
  exact ⟨String.toList_injective hpath, rfl⟩

/-- A path does not begin like a reference. -/
lemma ne_reference (hp : IsPath p) {l : Option String} {m : Bool} {inner : String}
    {x y : List Char} : p.toList ++ x ≠ (referenceSign l m ++ inner).toList ++ y := by
  rw [toList_reference, List.cons_append]
  exact hp.ne_cons (by decide) _ _

end IsPath

namespace IsBracketed

variable {s : String} {x y : List Char}

/-- A text does not begin both with a bracket and like a path. -/
lemma ne_path (h : IsBracketed s) {p : String} (hp : IsPath p) : p.toList ++ x ≠ s.toList ++ y := by
  obtain ⟨c, hc, hbracket⟩ := h
  obtain ⟨rest, hrest⟩ := List.head?_eq_some_iff.1 hc
  rw [hrest, List.cons_append]
  rcases hbracket with rfl | rfl <;> exact hp.ne_cons (by decide) _ _

/-- A text does not begin both with a bracket and like a reference. -/
lemma ne_reference (h : IsBracketed s) {l : Option String} {m : Bool} {inner : String} :
    (referenceSign l m ++ inner).toList ++ x ≠ s.toList ++ y := by
  obtain ⟨c, hc, hbracket⟩ := h
  obtain ⟨rest, hrest⟩ := List.head?_eq_some_iff.1 hc
  rw [toList_reference, hrest, List.cons_append, List.cons_append]
  intro heq
  obtain ⟨rfl, -⟩ := List.cons.inj heq
  exact absurd hbracket (by decide)

end IsBracketed

/-- An angle bracket behind a path is a mark. -/
lemma head_angle (rest : List Char) : ∀ c ∈ ('<' :: rest).head?, c ∈ marks := by
  intro c hc
  obtain rfl : '<' = c := by simpa using hc
  decide

/-- What stands in angle brackets is the same if the whole is. -/
lemma eq_of_applied {p p' inner inner' : String} (hp : IsPath p) (hp' : IsPath p')
    (h : withArguments p inner = withArguments p' inner') : p = p' ∧ inner = inner' := by
  have htexts := congrArg String.toList h
  rw [toList_applied, toList_applied] at htexts
  obtain ⟨rfl, hrest⟩ := hp.eq_of_append hp' (head_angle _) (head_angle _) htexts
  exact ⟨rfl, String.toList_injective (List.append_cancel_right (List.cons.inj hrest).2)⟩

/-- A path is nothing around another name. -/
lemma IsPath.ne_applied {p p' : String} (hp : IsPath p) (inner : String) :
    p ≠ withArguments p' inner := by
  rintro rfl
  refine hp.plain '<' ?_ (by decide)
  rw [toList_applied]
  exact List.mem_append_right _ List.mem_cons_self

/-- A path with something in angle brackets is no reference. -/
lemma IsPath.applied_ne_reference {p : String} (hp : IsPath p) {l : Option String} {m : Bool}
    {inner inner' : String} : s!"{p}<{inner}>" ≠ referenceSign l m ++ inner' := by
  intro h
  have htexts := congrArg (fun s => s.toList ++ []) h
  rw [toList_applied_append] at htexts
  exact hp.ne_reference htexts

/-- A text that begins with a bracket is no path with something in angle brackets. -/
lemma IsBracketed.ne_applied {s : String} (h : IsBracketed s) {p : String} (hp : IsPath p)
    {inner : String} : s!"{p}<{inner}>" ≠ s := by
  intro heq
  have htexts := congrArg (fun s => s.toList ++ []) heq
  rw [toList_applied_append] at htexts
  exact h.ne_path hp htexts

/-! ## Names behind a reference -/

namespace Composed

variable {s : String}

lemma one {p : String} (hp : IsPath p) (h : Composed s) : Composed s!"{p}<{s}>" := by
  have hone : s = ", ".intercalate (s :: []) := by simp
  rw [hone]
  exact .applied [] hp (hone ▸ h)

/-- What a path and an angle bracket begin with does not read as the front of a reference. -/
lemma beginsAsTarget_path {p : String} (hp : IsPath p) {x : List Char}
    (hx : ∀ c ∈ x.head?, c ∈ '<' :: Extent.ends .argument) :
    TypeForm.BeginsAsTarget (p.toList ++ x) := by
  refine ⟨fun ⟨rest, h⟩ => hp.ne_cons (c := '\'') (by decide) x rest h.symm, fun h => ?_⟩
  have hfront : "mut ".toList <+: p.toList :=
    TypeForm.prefix_of_prefix_append h fun c hc hmem => by
      have hend := hx c hc
      simp only [String.reduceToList, List.mem_cons, List.not_mem_nil, or_false] at hmem
      rcases hmem with rfl | rfl | rfl | rfl <;> exact absurd hend (by decide)
  exact hp.plain ' ' (hfront.subset (by decide)) (by decide)

/-- A name does not read as the front of a reference. -/
lemma beginsAsTarget (h : Composed s) {x : List Char} (hx : Extent.Follows .argument x) :
    TypeForm.BeginsAsTarget (s.toList ++ x) := by
  have hangle : ∀ rest : List Char, ∀ c ∈ ('<' :: rest).head?, c ∈ '<' :: Extent.ends .argument :=
    fun rest c hc => List.mem_cons.2 (.inl (Option.some.inj hc).symm)
  cases h with
  | path hp => exact beginsAsTarget_path hp fun c hc => List.mem_cons_of_mem _ (hx c hc)
  | @reference l m inner hl h =>
      rw [toList_reference, List.cons_append]
      exact ⟨by simp, by simp⟩
  | applied more hp h =>
      rw [toList_applied_append]
      exact beginsAsTarget_path hp (hangle _)
  | lifetime hp h =>
      rw [toList_applied_append]
      exact beginsAsTarget_path hp (hangle _)
  | bracketed h =>
      obtain ⟨c, hc, hbracket⟩ := h
      obtain ⟨rest, hrest⟩ := List.head?_eq_some_iff.1 hc
      rw [hrest, List.cons_append]
      rcases hbracket with rfl | rfl <;> exact ⟨by simp, by simp⟩

/-- **What stands behind the sign of a reference, and the sign, are told by the name.** -/
lemma eq_of_reference {l l' : Option String} {m m' : Bool} {s s' : String}
    (hl : ∀ n ∈ l, TypeForm.IsLifetimeName n.toList)
    (hl' : ∀ n ∈ l', TypeForm.IsLifetimeName n.toList) (hs : Composed s) (hs' : Composed s')
    {x y : List Char} (hx : Extent.Follows .argument x) (hy : Extent.Follows .argument y)
    (h : (referenceSign l m ++ s).toList ++ x = (referenceSign l' m' ++ s').toList ++ y) :
    l = l' ∧ m = m' ∧ s.toList ++ x = s'.toList ++ y := by
  rw [toList_reference, toList_reference, List.cons_append, List.cons_append] at h
  simp only [List.append_assoc] at h
  have ht := hs.beginsAsTarget hx
  have ht' := hs'.beginsAsTarget hy
  obtain ⟨rfl, hmutable⟩ := TypeForm.eq_of_lifetimeText hl hl' (TypeForm.not_lifetime_of_target ht)
    (TypeForm.not_lifetime_of_target ht') (List.cons.inj h).2
  obtain ⟨rfl, htarget⟩ := TypeForm.eq_of_mutableText ht ht' hmutable
  exact ⟨rfl, rfl, htarget⟩

lemma eq_of_sign {l l' : Option String} {m m' : Bool} {s s' : String}
    (hl : ∀ n ∈ l, TypeForm.IsLifetimeName n.toList)
    (hl' : ∀ n ∈ l', TypeForm.IsLifetimeName n.toList) (hs : Composed s) (hs' : Composed s')
    (h : referenceSign l m ++ s = referenceSign l' m' ++ s') : s = s' := by
  have htexts := congrArg (fun s => s.toList ++ []) h
  have hrest := (eq_of_reference hl hl' hs hs' (Extent.follows_nil _) (Extent.follows_nil _)
    htexts).2.2
  exact String.toList_injective (List.append_cancel_right hrest)

/-- The name of a type does not begin like a lifetime. -/
lemma not_lifetime (h : Composed s) (rest : List Char) : s.toList ≠ '\'' :: rest := by
  intro htext
  have hbegins := (h.beginsAsTarget (Extent.follows_nil _)).1
  rw [List.append_nil, htext] at hbegins
  exact hbegins (by simp)

/-! ### Names that begin like others -/

variable {x y : List Char}

/-- A name that begins like a path is this path. -/
lemma eq_of_path (h : Composed s) {p : String} (hp : IsPath p) (hx : Extent.Follows .argument x)
    (hy : Extent.Follows .argument y) (heq : p.toList ++ x = s.toList ++ y) : p = s ∧ x = y := by
  have hmarks := follows_marks hx
  cases h with
  | path hp' => exact hp.eq_of_append hp' hmarks (follows_marks hy) heq
  | reference _ _ => exact absurd heq hp.ne_reference
  | applied _ hp' _ | lifetime hp' _ =>
      rw [toList_applied_append] at heq
      obtain ⟨-, rfl⟩ := hp.eq_of_append hp' hmarks (head_angle _) heq
      exact absurd (hx '<' rfl) (by decide)
  | bracketed h => exact absurd heq (h.ne_path hp)

/-- A name that begins like a reference is one. -/
lemma exists_of_reference (h : Composed s) {l : Option String} {m : Bool} {inner : String}
    (heq : (referenceSign l m ++ inner).toList ++ x = s.toList ++ y) :
    ∃ l' m' inner', (∀ n ∈ l', TypeForm.IsLifetimeName n.toList) ∧ Composed inner'
      ∧ s = referenceSign l' m' ++ inner' := by
  cases h with
  | path hp => exact absurd heq.symm hp.ne_reference
  | @reference l' m' inner' hl h => exact ⟨l', m', inner', hl, h, rfl⟩
  | applied _ hp _ | lifetime hp _ =>
      rw [toList_applied_append] at heq
      exact absurd heq.symm hp.ne_reference
  | bracketed h => exact absurd heq h.ne_reference

/-- A name that begins like a path and an angle bracket has names or a lifetime behind it. -/
lemma exists_of_applied (h : Composed s) {p inner : String} (hp : IsPath p)
    (hy : Extent.Follows .argument y) (heq : (s!"{p}<{inner}>").toList ++ x = s.toList ++ y) :
    ∃ inner', s = withArguments p inner' ∧ inner.toList ++ '>' :: x = inner'.toList ++ '>' :: y
      ∧ ((∃ first more, inner' = ", ".intercalate (first :: more) ∧ Composed first)
        ∨ ∃ rest, inner'.toList = '\'' :: rest) := by
  rw [toList_applied_append] at heq
  have inside : ∀ {p' inner' : String}, IsPath p' →
      p.toList ++ '<' :: (inner.toList ++ '>' :: x) = (withArguments p' inner').toList ++ y →
        p = p' ∧ inner.toList ++ '>' :: x = inner'.toList ++ '>' :: y := by
    intro p' inner' hp' heq
    rw [toList_applied_append] at heq
    obtain ⟨rfl, hangle⟩ := hp.eq_of_append hp' (head_angle _) (head_angle _) heq
    exact ⟨rfl, (List.cons.inj hangle).2⟩
  cases h with
  | path hp' =>
      obtain ⟨-, rfl⟩ := hp.eq_of_append hp' (head_angle _) (follows_marks hy) heq
      exact absurd (hy '<' rfl) (by decide)
  | reference _ _ => exact absurd heq hp.ne_reference
  | @applied p' first more hp' h =>
      obtain ⟨rfl, hinside⟩ := inside hp' heq
      exact ⟨_, rfl, hinside, .inl ⟨first, more, rfl, h⟩⟩
  | @lifetime p' inner' hp' h =>
      obtain ⟨rfl, hinside⟩ := inside hp' heq
      exact ⟨_, rfl, hinside, .inr h⟩
  | bracketed h => exact absurd heq (h.ne_path hp)

end Composed

/-! ## Leading names -/

namespace Leading

lemma composed {s : String} (h : Leading s) : Composed s := by
  induction h with
  | path hp => exact .path hp
  | reference hl _ ih => exact .reference hl ih
  | @wrapper p inner hp _ ih =>
      exact .one hp.isPath ih

/-- **Where a leading name ends is told by the name.** -/
theorem eq_of_append {s s' : String} (h : Leading s) (h' : Composed s') {x y : List Char}
    (hx : Extent.Follows .argument x) (hy : Extent.Follows .argument y)
    (heq : s.toList ++ x = s'.toList ++ y) : s = s' ∧ x = y := by
  induction h generalizing s' x y with
  | path hp => exact h'.eq_of_path hp hx hy heq
  | reference hl hinner ih =>
      obtain ⟨l', m', inner', hl', h, rfl⟩ := h'.exists_of_reference heq
      obtain ⟨rfl, rfl, hrest⟩ := Composed.eq_of_reference hl hl' hinner.composed h hx hy heq
      obtain ⟨rfl, rfl⟩ := ih h hx hy hrest
      exact ⟨rfl, rfl⟩
  | wrapper hp hinner ih =>
      have hclose : ∀ z, Extent.Follows .argument ('>' :: z) := Extent.follows_cons (by decide)
      obtain ⟨inner', rfl, hinside, ⟨first, more, rfl, hfirst⟩ | ⟨rest, hrest⟩⟩ :=
        h'.exists_of_applied hp.isPath hy heq
      · rw [toList_names, List.append_assoc] at hinside
        obtain ⟨rfl, hends⟩ := ih hfirst (hclose x) (follows_further more (hclose y)) hinside
        -- A comma does not close the brackets, so there is no further name.
        cases more with
        | nil => exact ⟨by simp, (List.cons.inj hends).2⟩
        | cons t more => exact absurd (congrArg List.head? hends) (by simp [further])
      · have hbegins := hinner.composed.beginsAsTarget (hclose x)
        rw [hinside, hrest] at hbegins
        exact absurd (by simp) hbegins.1

/-- A leading name with something in angle brackets is that of a pointer, and has a leading name
there. -/
lemma of_applied {p inner : String} (hp : IsPath p) (h : Leading s!"{p}<{inner}>") :
    IsWrapper Lowering.pointerNames p ∧ Leading inner := by
  generalize hs : s!"{p}<{inner}>" = s at h
  cases h with
  | path hp' => exact absurd hs.symm (hp'.ne_applied inner)
  | reference hl h => exact absurd hs hp.applied_ne_reference
  | wrapper hp' h =>
      obtain ⟨rfl, rfl⟩ := eq_of_applied hp hp'.isPath hs
      exact ⟨hp', h⟩

/-- A leading name behind the sign of a reference. -/
lemma of_reference {l : Option String} {m : Bool} {inner : String}
    (hl : ∀ n ∈ l, TypeForm.IsLifetimeName n.toList) (hinner : Composed inner)
    (h : Leading (referenceSign l m ++ inner)) : Leading inner := by
  generalize hs : referenceSign l m ++ inner = s at h
  cases h with
  | path hp =>
      have htexts := congrArg (fun s => s.toList ++ []) hs
      exact absurd htexts.symm hp.ne_reference
  | reference hl' h => rwa [Composed.eq_of_sign hl hl' hinner h.composed hs]
  | wrapper hp h => exact absurd hs.symm hp.isPath.applied_ne_reference

/-- More than one name is no leading name. -/
lemma not_names {first second : String} {more : List String} (hfirst : Composed first) :
    ¬ Leading (", ".intercalate (first :: second :: more)) := by
  intro h
  have htexts := toList_names first (second :: more)
  rw [← List.append_nil (String.toList _), ← List.append_nil (further _)] at htexts
  have hends := (h.eq_of_append hfirst (Extent.follows_nil _)
    (follows_further _ (Extent.follows_nil _)) htexts).2
  exact absurd hends (by simp [further])

/-- What begins with a bracket is no leading name. -/
lemma not_bracketed {s : String} (h : Leading s) : ¬ IsBracketed s := by
  intro hbracket
  cases h with
  | path hp => exact hbracket.ne_path hp (x := []) (y := []) rfl
  | reference hl h => exact hbracket.ne_reference (x := []) (y := []) rfl
  | wrapper hp h => exact hbracket.ne_applied hp.isPath rfl

end Leading

/-! ## Names of slices -/

lemma not_isWrapper_pointer {p : String} (h : IsWrapper Lowering.sliceNames p) :
    ¬ IsWrapper Lowering.pointerNames p := by
  rintro ⟨-, w, hw, hlast⟩
  obtain ⟨-, w', hw', hlast'⟩ := h
  obtain rfl := Option.some.inj (hlast.symm.trans hlast')
  simp only [Lowering.pointerNames, Lowering.sliceNames, List.mem_cons, List.not_mem_nil,
    or_false] at hw hw'
  rcases hw' with rfl | rfl <;> exact absurd hw (by decide)

lemma brackets_slice (inner : String) : Brackets inner s!"[{inner}]" :=
  ⟨[']'], by simp [toString], Extent.follows_cons (by decide) _⟩

lemma brackets_array (inner length : String) : Brackets inner s!"[{inner}; {length}]" :=
  ⟨';' :: ' ' :: (length.toList ++ [']']), by simp [toString], Extent.follows_cons (by decide) _⟩

lemma Brackets.isBracketed {inner s : String} (h : Brackets inner s) : IsBracketed s := by
  obtain ⟨rest, hrest, -⟩ := h
  exact ⟨'[', by rw [hrest]; rfl, .inl rfl⟩

namespace Elemental

variable {P : String → Prop} {s : String}

/-- A path is no name of a slice. -/
lemma not_path (hp : IsPath s) : ¬ Elemental P s := by
  intro h
  cases h with
  | reference hl h => exact hp.ne_reference (x := []) (y := []) rfl
  | wrapper _ _ | list _ _ => exact hp.ne_applied _ rfl
  | bracketed hs h => exact hs.isBracketed.ne_path hp (x := []) (y := []) rfl

/-- What stands in angle brackets is a slice, or the elements of one. -/
lemma of_applied {p : String} (hp : IsPath p) (h : Elemental P s!"{p}<{s}>") :
    IsWrapper Lowering.pointerNames p ∧ Elemental P s ∨ IsWrapper Lowering.sliceNames p ∧ P s := by
  generalize hs : s!"{p}<{s}>" = name at h
  cases h with
  | reference hl h => exact absurd hs hp.applied_ne_reference
  | wrapper hp' h =>
      obtain ⟨rfl, rfl⟩ := eq_of_applied hp hp'.isPath hs
      exact .inl ⟨hp', h⟩
  | list hp' h =>
      obtain ⟨rfl, rfl⟩ := eq_of_applied hp hp'.isPath hs
      exact .inr ⟨hp', h⟩
  | bracketed hbracket h => exact absurd hs (hbracket.isBracketed.ne_applied hp)

section

variable (leading : ∀ s, P s → Leading s)

include leading

lemma composed (h : Elemental P s) : Composed s := by
  induction h with
  | reference hl _ ih => exact .reference hl ih
  | wrapper hp _ ih => exact .one hp.isPath ih
  | list hp h => exact .one hp.isPath (leading _ h).composed
  | bracketed hs h => exact .bracketed hs.isBracketed

/-- The name of a slice behind the sign of a reference. -/
lemma of_reference {l : Option String} {m : Bool} (hl : ∀ n ∈ l, TypeForm.IsLifetimeName n.toList)
    (hs : Composed s) (h : Elemental P (referenceSign l m ++ s)) : Elemental P s := by
  generalize hname : referenceSign l m ++ s = name at h
  cases h with
  | reference hl' h => rwa [Composed.eq_of_sign hl hl' hs (h.composed leading) hname]
  | wrapper hp h | list hp h => exact absurd hname.symm hp.isPath.applied_ne_reference
  | bracketed hbracket h =>
      exact absurd (congrArg (fun s => s.toList ++ []) hname) hbracket.isBracketed.ne_reference

/-- What stands in square brackets is the name of the elements. -/
lemma of_brackets {name : String} (hs : Composed s) (hname : Brackets s name)
    (h : Elemental P name) : P s := by
  cases h with
  | reference hl h => exact absurd rfl (hname.isBracketed.ne_reference (x := []) (y := []))
  | wrapper hp h | list hp h => exact absurd rfl (hname.isBracketed.ne_applied hp.isPath)
  | bracketed hbracket h =>
      obtain ⟨rest, hrest, hfollows⟩ := hname
      obtain ⟨rest', hrest', hfollows'⟩ := hbracket
      have hinside := (List.cons.inj (hrest'.symm.trans hrest)).2
      obtain ⟨rfl, -⟩ := (leading _ h).eq_of_append hs hfollows' hfollows hinside
      exact h

/-- **The name of a slice leads to no path.** -/
theorem not_leading (h : Elemental P s) : ¬ Leading s := by
  induction h with
  | reference hl h ih => exact fun hleading => ih (hleading.of_reference hl (h.composed leading))
  | wrapper hp h ih => exact fun hleading => ih (hleading.of_applied hp.isPath).2
  | list hp h => exact fun hleading => not_isWrapper_pointer hp (hleading.of_applied hp.isPath).1
  | bracketed hs h => exact fun hleading => hleading.not_bracketed hs.isBracketed

end

end Elemental

end TypeText

end FieldCopy
