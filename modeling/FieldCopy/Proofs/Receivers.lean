import Mathlib
import FieldCopy.Proofs.Elements
import FieldCopy.Proofs.Elements.Texts
import FieldCopy.Proofs.Hygiene

/-!
# The type that a function is a method of

A function with a receiver is a method of the type behind the receiver's reference.  Which type that
is, and how the receiver is taken, is read off the receiver's type as it is written: the signs of
references are dropped from the front of the text, and then the word for mutability.

**Texts of references.**  Behind the sign stand a lifetime and the word for mutability, if they are
written (`Source.Borrow.between`).  A space is kept behind them only in front of a name, not in
front of a path that starts at the root or with a type in angle brackets (`Source.Opens`).

**Reading.**  `MethodHead.read` is what comes of such a text.  A lifetime is not dropped, and
without the space the word for mutability is not seen.

**Main statement.**  `SourceUnit.head_iff`: a function is a method of the type that its receiver
refers to, and takes it as written, exactly if no lifetime is written and a type behind a mutable
reference begins with a name.  `SourceUnit.exists_misread_receiver` has a lifetime and a root.
-/

namespace FieldCopy

open Source

namespace Source

/-! ## References to paths -/

/-- A path, also one that begins with a type in angle brackets. -/
def Ty.IsPath : Ty → Prop
  | .path _ | .qualified _ _ _ => True
  | _ => False

/-- Whether the name of a type begins with a name: it is a path that does not start at the root. -/
def Ty.beginsWithName (t : Ty) : Bool :=
  match t.shorten with
  | .path p => !p.rooted
  | _ => false

/-- A reference in front of a type. -/
structure Borrow where
  lifetime : Option String
  mutable : Bool

/-- A type with or without a reference in front. -/
def Ty.borrowed (t : Ty) : Option Borrow → Ty
  | none => t
  | some b => .reference b.lifetime b.mutable t

/-- The space that is kept in front of a name. -/
def gap (named : Bool) : List Char := if named then [' '] else []

/-- What stands between the sign of a reference and the type behind it. -/
def Borrow.between (b : Borrow) (named : Bool) : List Char :=
  match b.lifetime, b.mutable with
  | none, false => []
  | none, true => "mut".toList ++ gap named
  | some n, false => '\'' :: (n.toList ++ gap named)
  | some n, true => '\'' :: (n.toList ++ (gap true ++ ("mut".toList ++ gap named)))

/-! ## How paths open -/

/-- How tokens open: with a word, or with a mark that no space is kept in front of. -/
inductive Opens : Bool → List Lexeme → Prop where
  | word {w : String} {l : List Lexeme} (hw : IsWord w) : Opens true (.word w () :: l)
  | mark {c : Char} {joint : Bool} {l : List Lexeme} (hc : c = ':' ∨ c = '<') :
      Opens false (.mark c joint () :: l)

/-- The tokens do not open with the word for mutability. -/
def OpensPlain (l : List Lexeme) : Prop := l.head? ≠ some (.word "mut" ())

lemma Path.opens {p : Path} (hne : p.segments ≠ []) (words : ∀ s ∈ p.segments, IsWord s.name) :
    Opens (!p.rooted) p.lexemes := by
  obtain ⟨rooted, segments⟩ := p
  obtain ⟨⟨n, a⟩, rest, rfl⟩ := List.exists_cons_of_ne_nil hne
  have hword : IsWord n := words _ List.mem_cons_self
  cases rooted with
  | true => exact .mark (.inl rfl)
  | false =>
      rw [Path.lexemes, segmentLexemes, Segment.lexemes]
      cases segmentLexemes rest <;> exact .word hword

lemma Path.opensPlain {p : Path} (hne : p.segments ≠ [])
    (words : ∀ s ∈ p.segments, s.name ≠ "mut") : OpensPlain p.lexemes := by
  obtain ⟨rooted, segments⟩ := p
  obtain ⟨⟨n, a⟩, rest, rfl⟩ := List.exists_cons_of_ne_nil hne
  have hword : n ≠ "mut" := words _ List.mem_cons_self
  cases rooted with
  | true => exact fun h => absurd (Option.some.inj h) (by simp)
  | false =>
      rw [OpensPlain, Path.lexemes, segmentLexemes, Segment.lexemes]
      cases segmentLexemes rest <;> simpa using hword

/-- The names of a shortened path are among those of the path. -/
lemma Path.exists_of_shortened {p : Path} :
    ∀ s ∈ p.shortenInner.shorten.segments, ∃ s' ∈ p.segments, s.name = s'.name := by
  intro s hs
  have hmem := Path.mem_segments_of_shorten s hs
  obtain ⟨rooted, segments⟩ := p
  rw [Path.shortenInner, shortenSegments_eq_map] at hmem
  obtain ⟨s', hs', rfl⟩ := List.mem_map.1 hmem
  exact ⟨s', hs', s'.name_shortenInner⟩

/-- Shortening a path leaves names. -/
lemma Path.shortened_ne_nil {p : Path} (hne : p.segments ≠ []) :
    p.shortenInner.shorten.segments ≠ [] := by
  have hlast := p.shortenInner.last?_shorten
  intro hnil
  rw [Path.last?, hnil, List.getLast?_nil, Path.last?] at hlast
  obtain ⟨rooted, segments⟩ := p
  rw [Path.shortenInner, shortenSegments_eq_map] at hlast
  exact hne (List.map_eq_nil_iff.1 (List.getLast?_eq_none_iff.1 hlast.symm))

/-- **The name of a parsed path opens** with a name or a mark, and not with the word for
mutability. -/
lemma Ty.opens {t : Ty} (ht : t.IsPath) (hs : t.Spoken) :
    Opens t.beginsWithName t.shorten.lexemes ∧ OpensPlain t.shorten.lexemes := by
  cases t with
  | path p =>
      obtain ⟨rooted, segments⟩ := p
      obtain ⟨hsegments, hne⟩ := hs
      have hspoken := segmentsSpoken_iff.1 hsegments
      have hshort := Path.shortened_ne_nil (p := .mk rooted segments) hne
      rw [Ty.beginsWithName, Ty.shorten, Ty.lexemes]
      refine ⟨Path.opens hshort fun s hs => ?_, Path.opensPlain hshort fun s hs => ?_⟩
      · obtain ⟨s', hs', hname⟩ := Path.exists_of_shortened s hs
        exact hname ▸ (hspoken s' hs').name
      · obtain ⟨⟨n, a⟩, hs', hname⟩ := Path.exists_of_shortened s hs
        rw [hname]
        rintro rfl
        obtain ⟨-, hpath, -⟩ := hspoken _ hs'
        exact absurd hpath (by simp [IsPathWord, Ahead.reserved])
  | qualified s d p =>
      rw [Ty.beginsWithName, Ty.shorten]
      cases p.shortenInner.shorten
      rw [Ty.lexemes]
      exact ⟨.mark (.inr rfl), fun h => absurd (Option.some.inj h) (by simp)⟩
  | _ => exact ht.elim

namespace Opens

variable {named : Bool} {l : List Lexeme}

/-- The first character of tokens that open so. -/
lemma head (h : Opens named l) : ∃ c s, Token.textAll l = c :: s ∧ c ∉ [' ', '&', '\'']
    ∧ TypeName.gluesInFront c = !named := by
  cases h with
  | @word w l hw =>
      obtain ⟨c, s, hcs⟩ := List.exists_cons_of_ne_nil (Scan.ne_nil_of_isWord hw)
      have hc : c ∈ w.toList := hcs ▸ List.mem_cons_self
      have hglues : c ∉ ['<', '>', ',', ';', ')', ']', ':'] := hw.not_mem rfl c hc
      refine ⟨c, _, by rw [Token.textAll, Token.textOne, hcs]; rfl, hw.not_mem rfl c hc, ?_⟩
      simpa [TypeName.gluesInFront, and_assoc] using hglues
  | mark hc =>
      rcases hc with rfl | rfl
      · exact ⟨':', _, rfl, by decide, rfl⟩
      · exact ⟨'<', _, rfl, by decide, rfl⟩

/-- What stands in front does not matter. -/
lemma compactFrom_eq (h : Opens named l) (before : Option Char) :
    TypeName.compactFrom before (Token.textAll l) = TypeName.compactChars (Token.textAll l) := by
  obtain ⟨c, s, hcs, hc, -⟩ := h.head
  have hne : c ≠ ' ' := fun heq => hc (heq ▸ List.mem_cons_self)
  rw [TypeName.compactChars, hcs, Scan.compactFrom_of_ne hne, Scan.compactFrom_of_ne hne]

/-- Behind a word a space is kept in front of a name. -/
lemma compactFrom_word (h : Opens named l) {w : String} (hw : IsWord w) (before : Option Char) :
    TypeName.compactFrom before (Token.textAll (.word w () :: l))
      = w.toList ++ (gap named ++ TypeName.compactChars (Token.textAll l)) := by
  obtain ⟨c, s, hcs, hc, hglues⟩ := h.head
  obtain ⟨front, z, hz⟩ :=
    (List.eq_nil_or_concat' w.toList).resolve_left (Scan.ne_nil_of_isWord hw)
  have hmem : z ∈ w.toList := hz ▸ List.mem_append_right _ (List.mem_singleton_self z)
  have hbehind := (Scan.not_glues_of_isSpelling (Scan.isSpelling_of_mem_word hw z hmem)).1
  have hkeeps : TypeName.keepsSpace (some z) (some c) = named := by
    have hplain : z ∉ [',', ';', '>'] := hw.not_mem rfl z hmem
    simp only [List.mem_cons, List.not_mem_nil, or_false, not_or] at hplain
    simp [TypeName.keepsSpace, hplain, hbehind, hglues]
  have htext : Token.textAll (.word w () :: l) = w.toList ++ ' ' :: Token.textAll l := by
    have hempty : l.isEmpty = false := by cases h <;> rfl
    simp [Token.textAll, Token.textOne, Token.isJoint, hempty]
  have hspace : ' ' ∉ w.toList := fun hmem =>
    hw.not_mem (l := [' ']) rfl ' ' hmem (List.mem_singleton_self _)
  have hlast : w.toList.getLast?.or before = some z := by
    rw [hz, List.getLast?_concat, Option.some_or]
  rw [htext, Scan.compactFrom_append hspace, hlast, TypeName.compactFrom, if_pos rfl, hcs,
    List.head?_cons, hkeeps, ← hcs, h.compactFrom_eq, h.compactFrom_eq]
  cases named <;> rfl

/-- The text of tokens does not begin with the word for mutability if they do not open with it. -/
lemma not_mut (h : Opens named l) (hplain : OpensPlain l) :
    ¬ "mut ".toList <+: TypeName.compactChars (Token.textAll l) := by
  cases h with
  | @word w l hw =>
      rintro ⟨rest, hrest⟩
      obtain ⟨front, z, hz⟩ :=
        (List.eq_nil_or_concat' w.toList).resolve_left (Scan.ne_nil_of_isWord hw)
      have hmem : z ∈ w.toList := hz ▸ List.mem_append_right _ (List.mem_singleton_self z)
      have hbehind := (Scan.not_glues_of_isSpelling (Scan.isSpelling_of_mem_word hw z hmem)).1
      have hspace : ' ' ∉ w.toList := fun hmem =>
        hw.not_mem (l := [' ']) rfl ' ' hmem (List.mem_singleton_self _)
      have htext := Scan.textAll_cons (t := .word w ()) rfl l []
      rw [List.append_nil, Token.textOne] at htext
      rw [TypeName.compactChars, htext, Scan.compactFrom_append hspace, hz,
        List.getLast?_concat, Option.some_or] at hrest
      have hcloses : Scan.Closes [] := by simp [Scan.Closes]
      have hends := Scan.ends_compactFrom hbehind l hcloses
      have hmarks : ∀ d ∈ w.toList, d ∉ Scan.endMarks := hw.not_mem rfl
      have hmut : ∀ d ∈ ['m', 'u', 't'], d ∉ Scan.endMarks := by simp [Scan.endMarks]
      have hblank : ∀ d ∈ (' ' :: rest).head?, d ∈ Scan.endMarks := by
        rintro d ⟨⟩
        decide
      rw [hz] at hmarks
      obtain ⟨hfront, -⟩ := TypeText.eq_of_fronts hmut hmarks hblank hends hrest
      have hword : w = "mut" := String.toList_injective (hz.trans hfront.symm)
      exact hplain (by rw [List.head?_cons, hword])
  | mark hc =>
      rcases hc with rfl | rfl
      · exact fun hprefix => absurd hprefix (by simp [Token.textAll, Token.textOne,
          TypeName.compactChars, Scan.compactFrom_of_ne])
      · exact fun hprefix => absurd hprefix (by simp [Token.textAll, Token.textOne,
          TypeName.compactChars, Scan.compactFrom_of_ne])

end Opens

/-! ## Texts of references -/

/-- Behind the sign of a reference no space is kept. -/
lemma compactChars_sign {l : List Lexeme} (hl : l ≠ []) :
    TypeName.compactChars (Token.textAll (Token.marks "&" ++ l))
      = '&' :: TypeName.compactFrom (some '&') (Token.textAll l) := by
  obtain ⟨t, rest, rfl⟩ := List.exists_cons_of_ne_nil hl
  have htext : Token.textAll (Token.marks "&" ++ t :: rest)
      = '&' :: ' ' :: Token.textAll (t :: rest) := by
    simp [Token.marks, Token.marksOf, Token.textAll, Token.textOne, Token.isJoint]
  have hkeeps : ∀ after, TypeName.keepsSpace (some '&') after = false := by
    intro after
    simp [TypeName.keepsSpace, TypeName.gluesBehind]
  rw [htext, TypeName.compactChars, Scan.compactFrom_of_ne (by decide), TypeName.compactFrom,
    if_pos rfl, hkeeps]
  rfl

lemma compactFrom_lifetime (n : String) (l : List Lexeme) (before : Option Char) :
    TypeName.compactFrom before (Token.textAll (Token.lifetime n ++ l))
      = '\'' :: TypeName.compactFrom (some '\'') (Token.textAll (.word n () :: l)) := by
  have htext : Token.textAll (Token.lifetime n ++ l) = '\'' :: Token.textAll (.word n () :: l) := by
    simp [Token.lifetime, Token.textAll, Token.textOne, Token.isJoint]
  rw [htext, Scan.compactFrom_of_ne (by decide)]

/-- **The text of a reference to a path.** -/
lemma Ty.toList_displayName_borrowed {t : Ty} {named : Bool} (h : Opens named t.shorten.lexemes)
    (b : Borrow) (hb : ∀ n ∈ b.lifetime, IsWord n) :
    (t.borrowed (some b)).displayName.toList
      = '&' :: (b.between named ++ t.displayName.toList) := by
  have hne : t.shorten.lexemes ≠ [] := by
    intro hnil
    rw [hnil] at h
    cases h
  obtain ⟨l, m⟩ := b
  rw [Ty.borrowed, Ty.displayName, Ty.displayName, TypeName.ofLexemes, TypeName.ofLexemes,
    String.toList_ofList, String.toList_ofList, Ty.shorten]
  cases l with
  | none =>
      rw [Ty.lexemes, List.append_assoc, List.append_assoc]
      cases m with
      | false =>
          rw [compactChars_sign (by simpa using hne)]
          exact congrArg _ (h.compactFrom_eq _)
      | true =>
          rw [compactChars_sign (by simp)]
          exact congrArg _ ((h.compactFrom_word isWord_mut _).trans (List.append_assoc _ _ _).symm)
  | some n =>
      have hn : IsWord n := hb n rfl
      rw [Ty.lexemes, List.append_assoc, List.append_assoc]
      cases m with
      | false =>
          rw [compactChars_sign (by simp [Token.lifetime])]
          simp only [Bool.false_eq_true, if_false, List.nil_append]
          rw [compactFrom_lifetime, h.compactFrom_word hn]
          simp [Borrow.between]
      | true =>
          have hmut : Opens true (.word "mut" () :: t.shorten.lexemes) := .word isWord_mut
          rw [compactChars_sign (by simp [Token.lifetime])]
          simp only [if_true, List.cons_append, List.nil_append]
          rw [compactFrom_lifetime, hmut.compactFrom_word hn, TypeName.compactChars,
            h.compactFrom_word isWord_mut]
          simp [Borrow.between]

/-- How the text of a path begins: with no space, sign or quote, and not with the word for
mutability. -/
structure PathText (named : Bool) (s : List Char) : Prop where
  head : ∃ c rest, s = c :: rest ∧ c ∉ [' ', '&', '\'']
  mutability : ¬ "mut ".toList <+: s

lemma Opens.pathText {named : Bool} {l : List Lexeme} (h : Opens named l) (hplain : OpensPlain l) :
    PathText named (TypeName.ofLexemes l).toList := by
  rw [TypeName.ofLexemes, String.toList_ofList]
  refine ⟨?_, h.not_mut hplain⟩
  obtain ⟨c, s, hcs, hc, -⟩ := h.head
  have hne : c ≠ ' ' := fun heq => hc (heq ▸ List.mem_cons_self)
  rw [hcs, TypeName.compactChars, Scan.compactFrom_of_ne hne]
  exact ⟨c, _, rfl, hc⟩

namespace PathText

variable {named : Bool} {s : List Char}

lemma sign (h : PathText named s) : ¬ "&".toList <+: s := by
  obtain ⟨c, rest, rfl, hc⟩ := h.head
  intro hprefix
  have hsign : '&' = c := (List.cons_prefix_cons.1 hprefix).1
  exact hc (hsign ▸ by decide)

lemma quote (h : PathText named s) (rest : List Char) : s ≠ '\'' :: rest := by
  obtain ⟨c, rest, rfl, hc⟩ := h.head
  intro heq
  exact hc (by simp [(List.cons.inj heq).1])

/-- What stands in front of a path that is not read as mutable does not begin as a sign or as the
word for mutability. -/
lemma between (h : PathText named s) (b : Borrow)
    (hb : ¬ (b.lifetime = none ∧ b.mutable = true ∧ named = true)) :
    ¬ "&".toList <+: b.between named ++ s ∧ ¬ "mut ".toList <+: b.between named ++ s := by
  obtain ⟨l, m⟩ := b
  cases l with
  | none =>
      cases m with
      | false => exact ⟨h.sign, h.mutability⟩
      | true =>
          obtain rfl : named = false := by simpa using hb
          obtain ⟨c, rest, rfl, hc⟩ := h.head
          have hne : ' ' ≠ c := fun heq => hc (heq ▸ List.mem_cons_self)
          simp [Borrow.between, gap, hne]
  | some n => cases m <;> simp [Borrow.between]

end PathText

end Source

/-! ## Heads of functions -/

/-- How a receiver is taken whose type has such a reference in front. -/
def SelfForm.ofBorrow : Option Borrow → SelfForm
  | none => .value
  | some b => if b.mutable then .mutableReference else .reference

/-- What is read off the text of a path, with or without a reference in front. -/
def MethodHead.read (t : Ty) : Option Borrow → MethodHead
  | none => ⟨t.displayName, .value⟩
  | some b =>
      if b.lifetime = none ∧ b.mutable = true ∧ t.beginsWithName = true then
        ⟨t.displayName, .mutableReference⟩
      else ⟨String.ofList (b.between t.beginsWithName ++ t.displayName.toList), .reference⟩

namespace Conversion

open Text

variable {s : String} {text : List Char}

/-- A text without a sign in front is the type itself. -/
lemma ownerText_value (hsign : ¬ "&".toList <+: s.toList) (hmut : ¬ "mut ".toList <+: s.toList) :
    ownerText s = s ∧ selfForm s = .value := by
  have hreference : ¬ "&mut ".toList <+: s.toList := fun h =>
    hsign (List.IsPrefix.trans ⟨"mut ".toList, rfl⟩ h)
  constructor
  · rw [ownerText, dropRepeated_of_not_prefix hsign, dropRepeated_of_not_prefix hmut,
      String.ofList_toList]
  · rw [selfForm, if_neg (by simpa using hreference), if_neg (by simpa using hsign)]

/-- Behind the sign of a reference stands the type, unless the word for mutability is next. -/
lemma ownerText_reference (hs : s.toList = "&".toList ++ text) (hsign : ¬ "&".toList <+: text)
    (hmut : ¬ "mut ".toList <+: text) :
    ownerText s = String.ofList text ∧ selfForm s = .reference := by
  have hreference : ¬ "&mut ".toList <+: s.toList := by
    rw [hs]
    exact fun h => hmut (List.cons_prefix_cons.1 h).2
  constructor
  · rw [ownerText, hs, dropRepeated_append (by simp), dropRepeated_of_not_prefix hsign,
      dropRepeated_of_not_prefix hmut]
  · rw [selfForm, if_neg (by simpa using hreference), hs]
    rfl

/-- Behind the word for mutability stands the type. -/
lemma ownerText_mutable (hs : s.toList = "&".toList ++ ("mut ".toList ++ text))
    (hmut : ¬ "mut ".toList <+: text) :
    ownerText s = String.ofList text ∧ selfForm s = .mutableReference := by
  have hsign : ¬ "&".toList <+: "mut ".toList ++ text := fun h =>
    absurd (List.cons_prefix_cons.1 h).1 (by decide)
  constructor
  · rw [ownerText, hs, dropRepeated_append (by simp), dropRepeated_of_not_prefix hsign,
      dropRepeated_append (by simp), dropRepeated_of_not_prefix hmut]
  · rw [selfForm, hs]
    rfl

variable {t : Ty} {b : Option Borrow} (ht : t.IsPath) (hspoken : (t.borrowed b).Spoken)

include ht hspoken

/-- **What is read off a path**, with or without a reference in front. -/
lemma read_borrowed :
    (⟨ownerText (t.borrowed b).displayName, selfForm (t.borrowed b).displayName⟩ : MethodHead)
      = .read t b := by
  cases b with
  | none =>
      obtain ⟨hopens, hplain⟩ := Ty.opens ht hspoken
      have hpath := hopens.pathText hplain
      obtain ⟨howner, hform⟩ := ownerText_value hpath.sign hpath.mutability
      exact congrArg₂ MethodHead.mk howner hform
  | some b =>
      obtain ⟨hopens, hplain⟩ := Ty.opens ht hspoken.2
      have hpath := hopens.pathText hplain
      have htext := Ty.toList_displayName_borrowed hopens b hspoken.1
      rw [MethodHead.read]
      split
      · rename_i h
        obtain ⟨l, m⟩ := b
        obtain ⟨rfl, rfl, hnamed⟩ := h
        rw [hnamed] at htext
        obtain ⟨howner, hform⟩ := ownerText_mutable htext hpath.mutability
        exact congrArg₂ MethodHead.mk (howner.trans (String.ofList_toList ..)) hform
      · rename_i h
        obtain ⟨hsign, hmut⟩ := hpath.between b h
        obtain ⟨howner, hform⟩ := ownerText_reference htext hsign hmut
        exact congrArg₂ MethodHead.mk howner hform

/-- What is read off is right exactly if there is no lifetime, and a name behind the word for
mutability. -/
lemma read_eq_iff :
    MethodHead.read t b = ⟨t.displayName, .ofBorrow b⟩
      ↔ ∀ r ∈ b, r.lifetime = none ∧ (r.mutable = true → t.beginsWithName = true) := by
  rcases b with _ | ⟨l, m⟩
  · simp [MethodHead.read, SelfForm.ofBorrow]
  obtain ⟨hopens, hplain⟩ := Ty.opens ht hspoken.2
  have hpath := hopens.pathText hplain
  have howner : ∀ rest, String.ofList ('\'' :: rest) ≠ t.displayName := fun rest heq =>
    hpath.quote rest (by rw [← Ty.displayName, ← heq, String.toList_ofList])
  cases l with
  | none => cases m <;> cases hnamed : t.beginsWithName <;>
      simp [MethodHead.read, SelfForm.ofBorrow, Borrow.between, hnamed]
  | some n =>
      refine iff_of_false (fun h => ?_) (by simp)
      rw [MethodHead.read, if_neg (by simp)] at h
      cases m <;> exact howner _ (MethodHead.mk.inj h).1

end Conversion

namespace SourceUnit

open Generation

/-- **Which type a function is a method of.**  The receiver is written as a type in the head of a
function.  If that is a path with or without a reference in front, the function is a method of what
is read off the text.  That is the path, taken as it is written, exactly if no lifetime is written
and the path begins with a name where the reference is mutable. -/
theorem head_iff {input : SourceFile} {includes : List SourceFile} {files : List ParsedFile}
    (parsed : (input :: includes).mapM SourceFile.parse = .ok files) (interfaceName : String) :
    ∃ unit, load (some input) includes interfaceName = .ok unit
      ∧ ∀ v ∈ unit.conversions, ∀ r, v.endpoints.receiver = some r →
        (∃ t ∈ Loading.headTypes files, r.IsOf files unit.catalog t)
          ∧ ∀ (t : Ty) (b : Option Borrow), t.IsPath → t.borrowed b ∈ Loading.headTypes files →
            r.IsOf files unit.catalog (t.borrowed b) →
              (v.code unit.catalog (callShapes unit.entries)).head = some (.read t b)
                ∧ ((v.code unit.catalog (callShapes unit.entries)).head
                    = some ⟨t.displayName, .ofBorrow b⟩
                  ↔ ∀ r ∈ b, r.lifetime = none ∧ (r.mutable = true → t.beginsWithName = true)) := by
  have hspoken := spoken_of_mapM_parse parsed
  obtain ⟨first, rest, rfl, hload⟩ := exists_load_of_parsed parsed interfaceName
  refine ⟨_, hload, fun v hv r hr => ⟨?_, ?_⟩⟩
  · obtain ⟨i, hi, hm⟩ := method_of_mem hv
    have hmem := (chosen_of_mem hv).receiver r hr
    obtain ⟨t, ht, hof⟩ := isOf_ofParsed input.name interfaceName first rest i hi _ hm r
      (List.mem_append_left _ hmem)
    exact ⟨t, List.mem_append_left _ ht, hof⟩
  · intro t b ht hhead hof
    obtain ⟨f, hf, hhead⟩ := List.mem_flatMap.1 hhead
    obtain ⟨i, hi, hhead⟩ := List.mem_flatMap.1 hhead
    have hwords := ((hspoken f hf i hi).types.ends _ hhead).spoken
    have hread : v.head = some (.read t b) := by
      rw [← Conversion.read_borrowed ht hwords, ← hof.written]
      exact congrArg (Option.map _) hr
    refine ⟨hread, ?_⟩
    change v.head = _ ↔ _
    rw [hread, Option.some.injEq]
    exact Conversion.read_eq_iff ht hwords

/-- A file with methods whose receivers refer to a pet in several ways. -/
def borrowingFile : SourceFile :=
  ⟨"borrowing.rs", "",
    "struct Pet\x7bage:u8\x7d
struct Card\x7bage:u8\x7d
trait Copy\x7b///:recv pet
fn card(pet:&Pet)->Card;
///:recv pet
fn lent<'a>(pet:&'a mut Pet)->Card;
///:recv pet
fn rooted(pet:&mut ::Pet)->Card;\x7d"⟩

/-- The path of the pet, with or without a root. -/
def petPath (rooted : Bool) : Ty := .path (.mk rooted [.mk "Pet" .none])

/-- Whether a type is such a reference to the path of the pet. -/
def isLentPet (rooted : Bool) (b : Borrow) : Ty → Bool
  | .reference l m (.path (.mk r [.mk n .none])) =>
      l == b.lifetime && m == b.mutable && r == rooted && n == "Pet"
  | _ => false

lemma eq_of_isLentPet {rooted : Bool} {b : Borrow} {t : Ty} (h : isLentPet rooted b t = true) :
    t = (petPath rooted).borrowed (some b) := by
  unfold isLentPet at h
  split at h
  · simp only [Bool.and_eq_true, beq_iff_eq] at h
    obtain ⟨⟨⟨rfl, rfl⟩, rfl⟩, rfl⟩ := h
    rfl
  · exact absurd h (by simp)

/-- A function whose receiver is such a reference to the pet has this head. -/
def HeadFor (files : List ParsedFile) (unit : SourceUnit) (rooted : Bool) (b : Borrow)
    (head : MethodHead) : Prop :=
  ∃ v ∈ unit.conversions, ∃ r ∈ v.endpoints.receiver,
    (r.written = ((petPath rooted).borrowed (some b)).displayName
      ∧ (Loading.typeIn files "" ((petPath rooted).borrowed (some b)) unit.catalog).1 = r.type)
    ∧ (v.code unit.catalog (callShapes unit.entries)).head = some head

instance (files : List ParsedFile) (unit : SourceUnit) (rooted : Bool) (b : Borrow)
    (head : MethodHead) : Decidable (HeadFor files unit rooted b head) :=
  inferInstanceAs (Decidable (∃ v ∈ unit.conversions, ∃ r ∈ v.endpoints.receiver, _ ∧ _))

set_option maxRecDepth 4000 in
/-- What the file is loaded to. -/
lemma load_borrowingFile :
    ∃ a, parsedAndLoaded borrowingFile "Copy" = .ok a
      ∧ ((Loading.headTypes a.1).any (isLentPet false ⟨none, false⟩) = true
        ∧ HeadFor a.1 a.2 false ⟨none, false⟩ ⟨"Pet", .reference⟩)
      ∧ ((Loading.headTypes a.1).any (isLentPet false ⟨some "a", true⟩) = true
        ∧ HeadFor a.1 a.2 false ⟨some "a", true⟩ ⟨"'a mut Pet", .reference⟩)
      ∧ (Loading.headTypes a.1).any (isLentPet true ⟨none, true⟩) = true
        ∧ HeadFor a.1 a.2 true ⟨none, true⟩ ⟨"mut::Pet", .reference⟩ := by
  have hitems : Source.parseItems? borrowingFile.text = _ := Source.parseItems?_ofList _
  rw [parsedAndLoaded_eq, SourceFile.parse, hitems]
  exact exists_ok_of_any (by decide +kernel)

lemma mem_headTypes {files : List ParsedFile} {rooted : Bool} {b : Borrow}
    (h : (Loading.headTypes files).any (isLentPet rooted b) = true) :
    (petPath rooted).borrowed (some b) ∈ Loading.headTypes files := by
  obtain ⟨t, ht, hlent⟩ := List.any_eq_true.1 h
  exact eq_of_isLentPet hlent ▸ ht

/-- A borrowed pet becomes a receiver that is borrowed. -/
theorem borrowed_pet_head :
    ∃ files unit, [borrowingFile].mapM SourceFile.parse = .ok files
      ∧ load (some borrowingFile) [] "Copy" = .ok unit
      ∧ ∃ v ∈ unit.conversions, ∃ r, v.endpoints.receiver = some r
        ∧ r.IsOf files unit.catalog ((petPath false).borrowed (some ⟨none, false⟩))
        ∧ (v.code unit.catalog (callShapes unit.entries)).head = some ⟨"Pet", .reference⟩ := by
  obtain ⟨⟨files, unit⟩, ha, ⟨hhead, v, hv, r, hr, ⟨hwritten, hnumber⟩, -⟩, -⟩ := load_borrowingFile
  obtain ⟨hparsed, hunit⟩ := of_parsedAndLoaded ha
  obtain ⟨unit', hunit', hheads⟩ := head_iff hparsed "Copy"
  obtain rfl : unit' = unit := Except.ok.inj (hunit'.symm.trans hunit)
  have hof : r.IsOf files unit'.catalog ((petPath false).borrowed (some ⟨none, false⟩)) :=
    ⟨hwritten, hnumber⟩
  obtain ⟨-, hread⟩ := (hheads v hv r hr).2 (petPath false) _ trivial (mem_headTypes hhead) hof
  exact ⟨files, unit', hparsed, hunit, v, hv, r, hr, hof, hread.2 (by simp)⟩

/-- **A lifetime stays in front of the type, and so does the word for mutability in front of a
root.** -/
theorem exists_misread_receiver :
    ∃ files unit, [borrowingFile].mapM SourceFile.parse = .ok files
      ∧ load (some borrowingFile) [] "Copy" = .ok unit
      ∧ (∃ v ∈ unit.conversions, ∃ r, v.endpoints.receiver = some r
        ∧ (petPath false).borrowed (some ⟨some "a", true⟩) ∈ Loading.headTypes files
        ∧ r.IsOf files unit.catalog ((petPath false).borrowed (some ⟨some "a", true⟩))
        ∧ (v.code unit.catalog (callShapes unit.entries)).head = some ⟨"'a mut Pet", .reference⟩)
      ∧ ∃ v ∈ unit.conversions, ∃ r, v.endpoints.receiver = some r
        ∧ (petPath true).borrowed (some ⟨none, true⟩) ∈ Loading.headTypes files
        ∧ r.IsOf files unit.catalog ((petPath true).borrowed (some ⟨none, true⟩))
        ∧ (v.code unit.catalog (callShapes unit.entries)).head = some ⟨"mut::Pet", .reference⟩ := by
  obtain ⟨⟨files, unit⟩, ha, -, ⟨hlent, v, hv, r, hr, hof, hhead⟩,
    hrooted, v', hv', r', hr', hof', hhead'⟩ := load_borrowingFile
  obtain ⟨hparsed, hunit⟩ := of_parsedAndLoaded ha
  exact ⟨files, unit, hparsed, hunit,
    ⟨v, hv, r, hr, mem_headTypes hlent, ⟨hof.1, hof.2⟩, hhead⟩,
    v', hv', r', hr', mem_headTypes hrooted, ⟨hof'.1, hof'.2⟩, hhead'⟩

end SourceUnit

end FieldCopy
