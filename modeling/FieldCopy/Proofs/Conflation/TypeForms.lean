import Mathlib
import FieldCopy.Loading.Lowering
import FieldCopy.Proofs.Conflation.Extents

/-!
# Forms of types and their names

A type of the catalog is known by its name.  The name is built along the form of the type: a path
with arguments, a reference, a slice, an array, or a text that is kept as written.

**Reading names.**  A form is readable (`TypeForm.Readable`) if the names of its paths are names,
the texts in it can be told from the rest, and all brackets in them are closed.

**Main statement.**  `TypeForm.name_injective`: readable forms with the same name are the same.
-/

namespace FieldCopy

open Lowering (referenceSign)

/-- A part of a type that is kept as written. -/
structure Kept where
  text : String
  /-- The paths of the declared types that it refers to. -/
  declared : List String
  deriving DecidableEq

attribute [ext] Kept

/-- The form of a type. -/
inductive TypeForm where
  | path (name : String) (arguments : List TypeForm)
  | reference (lifetime : Option String) (mutable : Bool) (target : TypeForm)
  | slice (element : TypeForm)
  | array (element : TypeForm) (length : Kept)
  | kept (part : Kept)

namespace TypeForm

/-- A text that is kept as written and refers to no declared type. -/
def written (text : String) : TypeForm := kept ⟨text, []⟩

mutual

/-- The name under which a type of this form is known. -/
def name : TypeForm → String
  | path n arguments =>
      if arguments.isEmpty then n
      else
        let inner := ", ".intercalate (names arguments)
        s!"{n}<{inner}>"
  | reference l m t => referenceSign l m ++ t.name
  | slice e => s!"[{e.name}]"
  | array e n => s!"[{e.name}; {n.text}]"
  | kept part => part.text

/-- The names of types of these forms. -/
def names : List TypeForm → List String
  | [] => []
  | f :: rest => f.name :: names rest

end

/-! ## Readable forms -/

/-- The marks that are no part of names. -/
def marks : List Char :=
  ['<', '>', ',', ';', '[', ']', '(', ')', '{', '}', '&', '\'', '"', ' ', '-', '*', '!', '?', '+',
    '=']

/-- Words that stand in types and are no names. -/
def keywords : List String := ["_", "for", "true", "false"]

/-- A text that can be the name of a path. -/
structure IsPathName (n : List Char) : Prop where
  nonempty : n ≠ []
  marks : ∀ c ∈ n, c ∉ marks
  digit : ∀ c ∈ n.head?, c.isDigit = false
  keyword : ∀ k ∈ keywords, k.toList ≠ n

lemma all_marks_iff {n : List Char} :
    (n.all fun c => !TypeForm.marks.contains c) = true ↔ ∀ c ∈ n, c ∉ TypeForm.marks := by
  simp

lemma all_head_iff {n : List Char} :
    (n.head?.all fun c => !c.isDigit) = true ↔ ∀ c ∈ n.head?, c.isDigit = false := by
  cases n <;> simp

instance (n : List Char) : Decidable (IsPathName n) :=
  decidable_of_iff
    (n ≠ [] ∧ (n.all fun c => !TypeForm.marks.contains c) = true
      ∧ (n.head?.all fun c => !c.isDigit) = true ∧ ∀ k ∈ keywords, k.toList ≠ n)
    ⟨fun h => ⟨h.1, all_marks_iff.1 h.2.1, all_head_iff.1 h.2.2.1, h.2.2.2⟩,
      fun h => ⟨h.nonempty, all_marks_iff.2 h.marks, all_head_iff.2 h.digit, h.keyword⟩⟩

/-- A text that can be the name of a lifetime. -/
structure IsLifetimeName (n : List Char) : Prop where
  nonempty : n ≠ []
  marks : ∀ c ∈ n, c ∉ marks ∧ c ≠ ':'

/-- The longest front of a text without marks. -/
def word (s : List Char) : List Char := s.takeWhile fun c => !marks.contains c

/-- What is behind the longest front of a text without marks. -/
def behindWord (s : List Char) : List Char := s.dropWhile fun c => !marks.contains c

/-- A text begins as the name of a path does. -/
def BeginsAsPath (s : List Char) : Prop :=
  IsPathName (word s) ∧ ∀ c ∈ (behindWord s).head?, c ∈ '<' :: Extent.ends .argument

/-- A part that can be told from paths, references and slices, and whose end can be told. -/
structure Kept.IsReadable (k : Kept) : Prop where
  declared : k.declared = []
  closes : Extent.Closes .argument k.text.toList
  path : ¬ BeginsAsPath k.text.toList
  mark : ∀ c ∈ k.text.toList.head?, c ≠ '&' ∧ c ≠ '['

/-- A form whose name does not begin as what stands in a reference in front of its target. -/
def BeginsPlain : TypeForm → Prop
  | kept k => ¬ ['\''] <+: k.text.toList ∧ ¬ "mut ".toList <+: k.text.toList
  | _ => True

mutual

/-- A form that can be read off its name. -/
def Readable : TypeForm → Prop
  | path n arguments => IsPathName n.toList ∧ AllReadable arguments
  | reference l _ t =>
      (∀ n ∈ l, IsLifetimeName n.toList) ∧ t.BeginsPlain ∧ t.Readable
  | slice e => e.Readable
  | array e n => e.Readable ∧ n.declared = [] ∧ Extent.Closes .length n.text.toList
  | kept k => Kept.IsReadable k

/-- All of these forms can be read off their names. -/
def AllReadable : List TypeForm → Prop
  | [] => True
  | f :: rest => f.Readable ∧ AllReadable rest

end

/-- What stands behind the element of a slice, or of an array with a length. -/
def behindElement : Option Kept → List Char
  | none => [']']
  | some n => ';' :: ' ' :: (n.text.toList ++ [']'])

lemma toList_name_slice (e : TypeForm) :
    (slice e).name.toList = '[' :: (e.name.toList ++ behindElement none) := by
  simp [name, behindElement, toString]

lemma toList_name_array (e : TypeForm) (n : Kept) :
    (array e n).name.toList = '[' :: (e.name.toList ++ behindElement (some n)) := by
  simp [name, behindElement, toString]

/-! ## Fronts of names -/

section

variable {n rest : List Char}

/-- A text without marks in front of a mark is the word there. -/
lemma word_append (hn : ∀ c ∈ n, c ∉ marks) (hrest : ∀ c ∈ rest.head?, c ∈ marks) :
    word (n ++ rest) = n ∧ behindWord (n ++ rest) = rest := by
  have hplain : ∀ c ∈ n, (!marks.contains c) = true := fun c hc => by simpa using hn c hc
  have hend : rest.takeWhile (fun c => !marks.contains c) = []
      ∧ rest.dropWhile (fun c => !marks.contains c) = rest := by
    cases rest with
    | nil => exact ⟨rfl, rfl⟩
    | cons c rest =>
        have hc : ¬ (!marks.contains c) = true := by simpa using hrest c rfl
        exact ⟨List.takeWhile_cons_of_neg hc, List.dropWhile_cons_of_neg hc⟩
  rw [word, behindWord, List.takeWhile_append_of_pos hplain, List.dropWhile_append_of_pos hplain,
    hend.1, hend.2, List.append_nil]
  exact ⟨rfl, rfl⟩

lemma eq_of_words {n' rest' : List Char} (hn : ∀ c ∈ n, c ∉ marks) (hn' : ∀ c ∈ n', c ∉ marks)
    (hrest : ∀ c ∈ rest.head?, c ∈ marks) (hrest' : ∀ c ∈ rest'.head?, c ∈ marks)
    (h : n ++ rest = n' ++ rest') : n = n' ∧ rest = rest' := by
  obtain ⟨hword, hbehind⟩ := word_append hn hrest
  obtain ⟨hword', hbehind'⟩ := word_append hn' hrest'
  exact ⟨hword.symm.trans (h ▸ hword'), hbehind.symm.trans (h ▸ hbehind')⟩

/-- What a text begins with does not reach into what follows and begins with something else. -/
lemma prefix_of_prefix_append {p : List Char} (h : p <+: n ++ rest)
    (hrest : ∀ c ∈ rest.head?, c ∉ p) : p <+: n := by
  obtain ⟨more, h⟩ := h
  rcases List.append_eq_append_iff.1 h with ⟨front, rfl, -⟩ | ⟨front, rfl, rfl⟩
  · exact List.prefix_append p front
  · cases front with
    | nil => simp
    | cons c front => exact absurd (List.mem_append_right n List.mem_cons_self) (hrest c rfl)

end

lemma mem_marks_of_end : ∀ c ∈ '<' :: Extent.ends .argument, c ∈ marks := by
  simp [Extent.ends, marks]

lemma follows_marks {x : List Char} (hx : Extent.Follows .argument x) :
    ∀ c ∈ x.head?, c ∈ marks := fun c hc => mem_marks_of_end c (List.mem_cons_of_mem _ (hx c hc))

/-- What stands behind the first argument. -/
def furtherText : List TypeForm → List Char
  | [] => ['>']
  | f :: rest => ',' :: ' ' :: (f.name.toList ++ furtherText rest)

/-- What stands behind the name of a path. -/
def argumentsText : List TypeForm → List Char
  | [] => []
  | f :: rest => '<' :: (f.name.toList ++ furtherText rest)

lemma toList_intercalate_names (f : TypeForm) : ∀ rest : List TypeForm,
    (", ".intercalate (names (f :: rest))).toList ++ ['>'] = f.name.toList ++ furtherText rest
  | [] => by simp [names, furtherText]
  | g :: rest => by
      have hrest := toList_intercalate_names g rest
      simp only [names, String.intercalate_cons_cons, String.toList_append, List.append_assoc]
        at hrest ⊢
      rw [hrest]
      rfl

lemma toList_name_path (n : String) : ∀ arguments : List TypeForm,
    (path n arguments).name.toList = n.toList ++ argumentsText arguments
  | [] => by simp [name, argumentsText]
  | f :: rest => by
      rw [argumentsText, ← toList_intercalate_names]
      simp [name, toString]

lemma head?_argumentsText_append (arguments : List TypeForm) {x : List Char}
    (hx : Extent.Follows .argument x) :
    ∀ c ∈ (argumentsText arguments ++ x).head?, c ∈ '<' :: Extent.ends .argument := by
  cases arguments with
  | nil => exact fun c hc => List.mem_cons_of_mem _ (hx c hc)
  | cons f rest =>
      intro c hc
      obtain rfl : '<' = c := by simpa [argumentsText] using hc
      exact List.mem_cons_self

/-! ## Kinds of names -/

/-- What the front of a name tells about a form. -/
inductive Kind where
  | path
  | reference
  | bracket
  | kept
  deriving DecidableEq

/-- The kind of a form. -/
def kind : TypeForm → Kind
  | path _ _ => .path
  | reference _ _ _ => .reference
  | slice _ | array _ _ => .bracket
  | kept _ => .kept

/-- A text begins as the names of forms of some kind do. -/
def Begins (s : List Char) : Kind → Prop
  | .path => BeginsAsPath s
  | .reference => s.head? = some '&'
  | .bracket => s.head? = some '['
  | .kept => ¬ BeginsAsPath s ∧ ∀ c ∈ s.head?, c ≠ '&' ∧ c ≠ '['

lemma not_beginsAsPath_of_mark {c : Char} (hc : c ∈ marks) (s : List Char) :
    ¬ BeginsAsPath (c :: s) := by
  intro h
  have hword : word (c :: s) = [] := List.takeWhile_cons_of_neg (by simpa using hc)
  exact h.1.nonempty hword

/-- A text begins in one way. -/
lemma Begins.unique {s : List Char} {k k' : Kind} (h : Begins s k) (h' : Begins s k') : k = k' := by
  have hmark : ∀ c ∈ marks, s.head? = some c → ¬ BeginsAsPath s := by
    intro c hc hs
    cases s with
    | nil => exact absurd hs (by simp)
    | cons d s =>
        obtain rfl : d = c := by simpa using hs
        exact not_beginsAsPath_of_mark hc s
  have hreference := hmark '&' (by decide)
  have hbracket := hmark '[' (by decide)
  cases k <;> cases k' <;> simp_all [Begins]

/-- What follows a text does not make it begin as a path. -/
lemma beginsAsPath_of_append {t x : List Char} (hx : Extent.Follows .argument x)
    (h : BeginsAsPath (t ++ x)) : BeginsAsPath t := by
  have hparts : t = word t ++ behindWord t := List.takeWhile_append_dropWhile.symm
  have hword : ∀ c ∈ word t, c ∉ marks := fun c hc => by simpa using List.mem_takeWhile_imp hc
  cases hbehind : behindWord t with
  | nil =>
      rw [hbehind, List.append_nil] at hparts
      rw [hparts] at h
      obtain ⟨hw, -⟩ := word_append hword (follows_marks hx)
      exact ⟨hw ▸ h.1, by simp [hbehind]⟩
  | cons c rest =>
      have hc : c ∈ marks := by
        have hnot := List.head?_dropWhile_not (fun c => !marks.contains c) t
        rw [← behindWord, hbehind] at hnot
        simpa using hnot
      rw [hparts, hbehind, List.append_assoc] at h
      have hrest : ∀ d ∈ (c :: rest ++ x).head?, d ∈ marks := by simpa using hc
      obtain ⟨hw, hb⟩ := word_append hword hrest
      refine ⟨hw ▸ h.1, fun d hd => h.2 d ?_⟩
      rw [hbehind] at hd
      rw [hb]
      exact hd

/-- The name of a readable form begins as its kind does, whatever follows. -/
lemma begins_name {f : TypeForm} (hf : f.Readable) {x : List Char}
    (hx : Extent.Follows .argument x) : Begins (f.name.toList ++ x) f.kind := by
  cases f with
  | path n arguments =>
      have hhead := head?_argumentsText_append arguments hx
      obtain ⟨hword, hbehind⟩ := word_append hf.1.marks fun c hc => mem_marks_of_end c (hhead c hc)
      rw [toList_name_path, List.append_assoc]
      exact ⟨hword.symm ▸ hf.1, hbehind.symm ▸ hhead⟩
  | reference l m t => simp [name, referenceSign, Begins, kind]
  | slice e => simp [name, Begins, kind, toString]
  | array e n => simp [name, Begins, kind, toString]
  | kept k =>
      refine ⟨fun h => hf.path (beginsAsPath_of_append hx h), fun c hc => ?_⟩
      have hk : (kept k).name.toList = k.text.toList := rfl
      rw [hk] at hc
      cases htext : k.text.toList with
      | nil =>
          rw [htext, List.nil_append] at hc
          have hend := hx c hc
          constructor <;> rintro rfl <;> exact absurd hend (by decide)
      | cons d rest =>
          rw [htext] at hc
          exact hf.mark c (by rw [htext]; exact hc)

/-! ## References -/

/-- A text begins as the target of a reference may. -/
def BeginsAsTarget (s : List Char) : Prop := ¬ ['\''] <+: s ∧ ¬ "mut ".toList <+: s

/-- The name of a target begins as that of a target. -/
lemma beginsAsTarget {f : TypeForm} (hf : f.Readable) (hplain : f.BeginsPlain) {x : List Char}
    (hx : Extent.Follows .argument x) : BeginsAsTarget (f.name.toList ++ x) := by
  have hends : ∀ p ∈ [['\''], "mut ".toList], ∀ c ∈ '<' :: Extent.ends .argument, c ∉ p := by
    simp [Extent.ends]
  cases f with
  | path n arguments =>
      have hhead := head?_argumentsText_append arguments hx
      rw [toList_name_path, List.append_assoc]
      have hname : ∀ p ∈ [['\''], "mut ".toList], ∀ c ∈ p, c ∈ marks →
          ¬ p <+: n.toList ++ (argumentsText arguments ++ x) := by
        intro p hp c hc hmark hprefix
        have hn := prefix_of_prefix_append hprefix fun d hd => hends p hp d (hhead d hd)
        exact hf.1.marks c (hn.subset hc) hmark
      exact ⟨hname _ (by simp) '\'' (by simp) (by decide),
        hname _ (by simp) ' ' (by simp) (by decide)⟩
  | reference l m t => simp [name, referenceSign, BeginsAsTarget]
  | slice e => simp [name, BeginsAsTarget, toString]
  | array e n => simp [name, BeginsAsTarget, toString]
  | kept k =>
      have hkept : ∀ p ∈ [['\''], "mut ".toList], p <+: k.text.toList ++ x → p <+: k.text.toList :=
        fun p hp h => prefix_of_prefix_append h fun c hc =>
          hends p hp c (List.mem_cons_of_mem _ (hx c hc))
      exact ⟨mt (hkept _ (by simp)) hplain.1, mt (hkept _ (by simp)) hplain.2⟩

/-- A lifetime in a reference. -/
def lifetimeText : Option String → List Char
  | none => []
  | some l => '\'' :: (l.toList ++ [' '])

/-- The word for a reference through which its target can be changed. -/
def mutableText (mutable : Bool) : List Char := if mutable then "mut ".toList else []

lemma toList_name_reference (l : Option String) (m : Bool) (t : TypeForm) :
    (reference l m t).name.toList
      = '&' :: (lifetimeText l ++ (mutableText m ++ t.name.toList)) := by
  cases l <;> cases m <;> simp [name, referenceSign, lifetimeText, mutableText, toString]

lemma eq_of_mutableText {m m' : Bool} {s s' : List Char} (hs : BeginsAsTarget s)
    (hs' : BeginsAsTarget s') (h : mutableText m ++ s = mutableText m' ++ s') :
    m = m' ∧ s = s' := by
  cases m <;> cases m'
  case false.false | true.true => simpa [mutableText] using h
  case false.true => exact absurd ⟨s', h.symm⟩ hs.2
  case true.false => exact absurd ⟨s, h⟩ hs'.2

/-- What stands behind a lifetime is no lifetime. -/
lemma not_lifetime_of_target {m : Bool} {s : List Char} (hs : BeginsAsTarget s) :
    ¬ ['\''] <+: mutableText m ++ s := by
  cases m with
  | false => exact hs.1
  | true => simp [mutableText]

lemma eq_of_lifetimeText {l l' : Option String} {s s' : List Char}
    (hl : ∀ n ∈ l, IsLifetimeName n.toList) (hl' : ∀ n ∈ l', IsLifetimeName n.toList)
    (hs : ¬ ['\''] <+: s) (hs' : ¬ ['\''] <+: s')
    (h : lifetimeText l ++ s = lifetimeText l' ++ s') : l = l' ∧ s = s' := by
  cases l with
  | none =>
      cases l' with
      | none => exact ⟨rfl, h⟩
      | some n' => exact absurd ⟨n'.toList ++ [' '] ++ s', by simpa [lifetimeText] using h.symm⟩ hs
  | some n =>
      cases l' with
      | none => exact absurd ⟨n.toList ++ [' '] ++ s, by simpa [lifetimeText] using h⟩ hs'
      | some n' =>
          have hspace : ∀ r : List Char, ∀ c ∈ (' ' :: r).head?, c ∈ marks := by
            intro r c hc
            obtain rfl : ' ' = c := by simpa using hc
            decide
          have hwords : n.toList ++ ' ' :: s = n'.toList ++ ' ' :: s' := by
            simpa [lifetimeText] using h
          obtain ⟨hn, hrest⟩ := eq_of_words (fun c hc => ((hl n rfl).marks c hc).1)
            (fun c hc => ((hl' n' rfl).marks c hc).1) (hspace s) (hspace s') hwords
          exact ⟨congrArg some (String.toList_injective hn), (List.cons.inj hrest).2⟩

/-! ## Names tell forms apart -/

/-- What follows an element of a slice or of an array. -/
lemma follows_behindElement (n : Option Kept) (x : List Char) :
    Extent.Follows .argument (behindElement n ++ x) := by
  cases n <;> exact Extent.follows_cons (by simp [Extent.ends]) _

/-- The length of an array can be read off what stands behind the element. -/
lemma eq_of_behindElement {n n' : Option Kept} {x y : List Char}
    (hn : ∀ k ∈ n, k.declared = [] ∧ Extent.Closes .length k.text.toList)
    (hn' : ∀ k ∈ n', k.declared = [] ∧ Extent.Closes .length k.text.toList)
    (h : behindElement n ++ x = behindElement n' ++ y) : n = n' ∧ x = y := by
  cases n with
  | none =>
      cases n' with
      | none => exact ⟨rfl, (List.cons.inj h).2⟩
      | some k' => exact absurd (List.cons.inj h).1 (by decide)
  | some k =>
      cases n' with
      | none => exact absurd (List.cons.inj h).1 (by decide)
      | some k' =>
          have htexts : k.text.toList ++ ']' :: x = k'.text.toList ++ ']' :: y := by
            simpa [behindElement] using h
          obtain ⟨htext, hend⟩ := Extent.eq_of_append (hn k rfl).2 (hn' k' rfl).2
            (Extent.follows_cons (by simp [Extent.ends]) x)
            (Extent.follows_cons (by simp [Extent.ends]) y) htexts
          have hkept : k = k' :=
            Kept.ext (String.toList_injective htext) ((hn k rfl).1.trans (hn' k' rfl).1.symm)
          exact ⟨congrArg some hkept, (List.cons.inj hend).2⟩

/-- What follows an argument. -/
lemma follows_furtherText (fs : List TypeForm) (x : List Char) :
    Extent.Follows .argument (furtherText fs ++ x) := by
  cases fs <;> exact Extent.follows_cons (by simp [Extent.ends]) _

mutual

/-- **Where the name of a readable form ends, and which form it is,** is told by the name. -/
theorem eq_of_name_append : ∀ (f g : TypeForm) {x y : List Char}, f.Readable → g.Readable →
    Extent.Follows .argument x → Extent.Follows .argument y →
      f.name.toList ++ x = g.name.toList ++ y → f = g ∧ x = y
  | .path n arguments, g, x, y, hf, hg, hx, hy, h => by
      have hkind := (begins_name hf hx).unique (h ▸ begins_name hg hy)
      cases g with
      | path n' arguments' =>
          have hhead := head?_argumentsText_append arguments hx
          have hhead' := head?_argumentsText_append arguments' hy
          rw [toList_name_path, toList_name_path, List.append_assoc, List.append_assoc] at h
          obtain ⟨hname, harguments⟩ := eq_of_words hf.1.marks hg.1.marks
            (fun c hc => mem_marks_of_end c (hhead c hc))
            (fun c hc => mem_marks_of_end c (hhead' c hc)) h
          obtain rfl := String.toList_injective hname
          obtain ⟨rfl, rfl⟩ := eq_of_argumentsText_append arguments arguments' hf.2 hg.2 hx hy
            harguments
          exact ⟨rfl, rfl⟩
      | _ => exact absurd hkind (by simp [kind])
  | .reference l m t, g, x, y, hf, hg, hx, hy, h => by
      have hkind := (begins_name hf hx).unique (h ▸ begins_name hg hy)
      cases g with
      | reference l' m' t' =>
          rw [toList_name_reference, toList_name_reference, List.cons_append, List.cons_append,
            List.append_assoc, List.append_assoc, List.append_assoc, List.append_assoc] at h
          have ht := beginsAsTarget hf.2.2 hf.2.1 hx
          have ht' := beginsAsTarget hg.2.2 hg.2.1 hy
          obtain ⟨rfl, hmutable⟩ := eq_of_lifetimeText hf.1 hg.1 (not_lifetime_of_target ht)
            (not_lifetime_of_target ht') (List.cons.inj h).2
          obtain ⟨rfl, htarget⟩ := eq_of_mutableText ht ht' hmutable
          obtain ⟨rfl, rfl⟩ := eq_of_name_append t t' hf.2.2 hg.2.2 hx hy htarget
          exact ⟨rfl, rfl⟩
      | _ => exact absurd hkind (by simp [kind])
  | .slice e, g, x, y, hf, hg, hx, hy, h => by
      have hkind := (begins_name hf hx).unique (h ▸ begins_name hg hy)
      cases g with
      | slice e' =>
          rw [toList_name_slice, toList_name_slice, List.cons_append, List.cons_append,
            List.append_assoc, List.append_assoc] at h
          obtain ⟨rfl, hbehind⟩ := eq_of_name_append e e' hf hg (follows_behindElement _ x)
            (follows_behindElement _ y) (List.cons.inj h).2
          exact ⟨rfl, (eq_of_behindElement (by simp) (by simp) hbehind).2⟩
      | array e' n' =>
          rw [toList_name_slice, toList_name_array, List.cons_append, List.cons_append,
            List.append_assoc, List.append_assoc] at h
          obtain ⟨-, hbehind⟩ := eq_of_name_append e e' hf hg.1 (follows_behindElement _ x)
            (follows_behindElement _ y) (List.cons.inj h).2
          have hlength := (eq_of_behindElement (by simp) (by simpa using hg.2) hbehind).1
          exact absurd hlength (by simp)
      | _ => exact absurd hkind (by simp [kind])
  | .array e n, g, x, y, hf, hg, hx, hy, h => by
      have hkind := (begins_name hf hx).unique (h ▸ begins_name hg hy)
      cases g with
      | slice e' =>
          rw [toList_name_slice, toList_name_array, List.cons_append, List.cons_append,
            List.append_assoc, List.append_assoc] at h
          obtain ⟨-, hbehind⟩ := eq_of_name_append e e' hf.1 hg (follows_behindElement _ x)
            (follows_behindElement _ y) (List.cons.inj h).2
          have hlength := (eq_of_behindElement (by simpa using hf.2) (by simp) hbehind).1
          exact absurd hlength (by simp)
      | array e' n' =>
          rw [toList_name_array, toList_name_array, List.cons_append, List.cons_append,
            List.append_assoc, List.append_assoc] at h
          obtain ⟨rfl, hbehind⟩ := eq_of_name_append e e' hf.1 hg.1 (follows_behindElement _ x)
            (follows_behindElement _ y) (List.cons.inj h).2
          obtain ⟨hlength, rfl⟩ :=
            eq_of_behindElement (by simpa using hf.2) (by simpa using hg.2) hbehind
          exact ⟨congrArg (array e) (Option.some.inj hlength), rfl⟩
      | _ => exact absurd hkind (by simp [kind])
  | .kept k, g, x, y, hf, hg, hx, hy, h => by
      have hkind := (begins_name hf hx).unique (h ▸ begins_name hg hy)
      cases g with
      | kept k' =>
          obtain ⟨htext, rfl⟩ := Extent.eq_of_append hf.closes hg.closes hx hy h
          exact ⟨congrArg kept (Kept.ext (String.toList_injective htext)
            (hf.declared.trans hg.declared.symm)), rfl⟩
      | _ => exact absurd hkind (by simp [kind])

/-- The same for all that stands behind the name of a path. -/
theorem eq_of_argumentsText_append : ∀ (fs gs : List TypeForm) {x y : List Char},
    AllReadable fs → AllReadable gs → Extent.Follows .argument x → Extent.Follows .argument y →
      argumentsText fs ++ x = argumentsText gs ++ y → fs = gs ∧ x = y
  | [], [], _, _, _, _, _, _, h => ⟨rfl, h⟩
  | [], _ :: _, _, _, _, _, hx, _, h => by
      rw [argumentsText, List.nil_append] at h
      exact absurd (hx '<' (by simp [h, argumentsText])) (by simp [Extent.ends])
  | _ :: _, [], _, _, _, _, _, hy, h => by
      rw [argumentsText, argumentsText, List.nil_append] at h
      exact absurd (hy '<' (by simp [← h])) (by simp [Extent.ends])
  | f :: rest, g :: rest', x, y, hf, hg, _, _, h => by
      rw [argumentsText, argumentsText, List.cons_append, List.cons_append, List.append_assoc,
        List.append_assoc] at h
      obtain ⟨rfl, hfurther⟩ := eq_of_name_append f g hf.1 hg.1 (follows_furtherText rest x)
        (follows_furtherText rest' y) (List.cons.inj h).2
      obtain ⟨rfl, rfl⟩ := eq_of_furtherText_append rest rest' hf.2 hg.2 hfurther
      exact ⟨rfl, rfl⟩

/-- The same for all arguments behind the first. -/
theorem eq_of_furtherText_append : ∀ (fs gs : List TypeForm) {x y : List Char},
    AllReadable fs → AllReadable gs → furtherText fs ++ x = furtherText gs ++ y → fs = gs ∧ x = y
  | [], [], _, _, _, _, h => ⟨rfl, (List.cons.inj h).2⟩
  | [], _ :: _, _, _, _, _, h => absurd (List.cons.inj h).1 (by decide)
  | _ :: _, [], _, _, _, _, h => absurd (List.cons.inj h).1 (by decide)
  | f :: rest, g :: rest', x, y, hf, hg, h => by
      rw [furtherText, furtherText] at h
      have hnames : f.name.toList ++ (furtherText rest ++ x)
          = g.name.toList ++ (furtherText rest' ++ y) := by simpa using h
      obtain ⟨rfl, hfurther⟩ := eq_of_name_append f g hf.1 hg.1 (follows_furtherText rest x)
        (follows_furtherText rest' y) hnames
      obtain ⟨rfl, rfl⟩ := eq_of_furtherText_append rest rest' hf.2 hg.2 hfurther
      exact ⟨rfl, rfl⟩

end

/-- **Readable forms with the same name are the same.** -/
theorem name_injective {f g : TypeForm} (hf : f.Readable) (hg : g.Readable)
    (h : f.name = g.name) : f = g :=
  (eq_of_name_append f g hf hg (Extent.follows_nil _) (Extent.follows_nil _) (by rw [h])).1

end TypeForm

end FieldCopy
