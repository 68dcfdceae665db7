import Mathlib
import FieldCopy.Proofs.Canonical.Numbers
import FieldCopy.Proofs.Loading.TypeTexts

/-!
# Scanning compact texts

The compact text of some tokens has the same tokens.  A space is removed only in front of a
character or behind one that keeps its neighbour apart from it, so no two tokens become one.

**Tokens of types** (`Lexable`) are words, numbers, the marks of types, lifetimes and groups of such
tokens.

**Main statement.**  `Lexable.scan?`: the compact text of such tokens is scanned as these tokens.
-/

namespace FieldCopy.Source

open Source.TypeName (compactFrom gluesBehind gluesInFront keepsSpace)

/-- Tokens of types, spelled with words. -/
inductive Lexable : List Lexeme → Prop where
  | nil : Lexable []
  | word {w : String} {l : List Lexeme} (hw : IsWord w) (hl : Lexable l) :
      Lexable (.word w () :: l)
  | mark {c : Char} {l : List Lexeme} (hc : c ∈ Scan.typeMarks) (hl : Lexable l) :
      Lexable (.mark c false () :: l)
  | colons {l : List Lexeme} (hl : Lexable l) :
      Lexable (.mark ':' true () :: .mark ':' false () :: l)
  | lifetime {w : String} {l : List Lexeme} (hw : IsWord w) (hl : Lexable l) :
      Lexable (.mark '\'' true () :: .word w () :: l)
  | number {d : String} {l : List Lexeme} (hd : IsInteger d) (hl : Lexable l) :
      Lexable (.literal d () :: l)
  | group {d : Delimiter} {inner l : List Lexeme} (hd : d ≠ .brace) (hinner : Lexable inner)
      (hl : Lexable l) : Lexable (.group d inner () :: l)

lemma Lexable.append {l l' : List Lexeme} (h : Lexable l) (h' : Lexable l') :
    Lexable (l ++ l') := by
  induction h with
  | nil => exact h'
  | word hw _ ih => exact .word hw ih
  | mark hc _ ih => exact .mark hc ih
  | colons _ ih => exact .colons ih
  | lifetime hw _ ih => exact .lifetime hw ih
  | number hd _ ih => exact .number hd ih
  | group hd hinner _ _ ih => exact .group hd hinner ih

namespace Scan

/-! ## Removing spaces -/

/-- A group may be closed in front of this text. -/
def Closes (s : List Char) : Prop := ∀ c ∈ s.head?, c ∈ [')', ']']

/-- The space between a token and the next one. -/
def space (l : List Lexeme) : List Char := if l.isEmpty then [] else [' ']

/-- Compact, the text of some tokens still begins with them, whatever stands in front. -/
def KeepsTokens (l : List Lexeme) : Prop :=
  ∀ before tail, Closes tail → ∃ before',
    Begins (compactFrom before (Token.textAll l ++ tail)) l (compactFrom before' tail)

lemma compactFrom_of_ne {c : Char} (hc : c ≠ ' ') (before : Option Char) (s : List Char) :
    compactFrom before (c :: s) = c :: compactFrom (some c) s := by
  rw [compactFrom, if_neg hc]

/-- A text without spaces stays as it is. -/
lemma compactFrom_append {s : List Char} (hs : ' ' ∉ s) (before : Option Char) (t : List Char) :
    compactFrom before (s ++ t) = s ++ compactFrom (s.getLast?.or before) t := by
  induction s generalizing before with
  | nil => rfl
  | cons c s ih =>
      have hc : c ≠ ' ' := fun h => hs (h ▸ List.mem_cons_self)
      rw [List.cons_append, compactFrom_of_ne hc, ih (fun h => hs (List.mem_cons_of_mem c h)),
        List.cons_append, List.getLast?_cons]
      cases s.getLast? <;> rfl

/-- A space stays or is removed. -/
lemma compactFrom_space (before : Option Char) (s : List Char) :
    compactFrom before (' ' :: s) = ' ' :: compactFrom (some ' ') s
      ∨ compactFrom before (' ' :: s) = compactFrom before s
        ∧ (before.any gluesBehind || s.head?.any gluesInFront) = true := by
  rw [compactFrom, if_pos rfl]
  split_ifs with hkeeps
  · exact .inl rfl
  · rw [keepsSpace] at hkeeps
    exact .inr ⟨rfl, by revert hkeeps; grind⟩

/-- The tokens behind one are kept as well. -/
lemma KeepsTokens.behind {l : List Lexeme} (h : KeepsTokens l) (before : Option Char)
    {tail : List Char} (htail : Closes tail) : ∃ before',
      Begins (compactFrom before (space l ++ Token.textAll l ++ tail)) l
        (compactFrom before' tail) := by
  cases hl : l.isEmpty with
  | true => simpa [space, hl] using h before tail htail
  | false =>
      simp only [space, hl, Bool.false_eq_true, if_false, List.cons_append, List.nil_append]
      rcases compactFrom_space before (Token.textAll l ++ tail) with heq | ⟨heq, -⟩
      · obtain ⟨before', hbegins⟩ := h (some ' ') tail htail
        rw [heq]
        exact ⟨before', (begins_space _).trans hbegins⟩
      · rw [heq]
        exact h before tail htail

/-- A word or a number ends at what is left of the space behind it. -/
lemma ends_compactFrom {c : Char} (hc : gluesBehind c = false) (l : List Lexeme)
    {tail : List Char} (htail : Closes tail) :
    Ends (compactFrom (some c) (space l ++ Token.textAll l ++ tail)) := by
  have hends : ∀ {d s}, d ∈ endMarks → d ≠ ' ' → Ends (compactFrom (some c) (d :: s)) := by
    intro d s hd hne
    rw [compactFrom_of_ne hne]
    rintro e ⟨⟩
    exact hd
  cases hl : l.isEmpty with
  | true =>
      obtain rfl := List.isEmpty_iff.1 hl
      cases tail with
      | nil => simp [space, Token.textAll, compactFrom, Ends]
      | cons d tail =>
          have hd : d ∈ [')', ']'] := htail d rfl
          simp only [List.mem_cons, List.not_mem_nil, or_false] at hd
          rcases hd with rfl | rfl
          · exact hends (by decide) (by decide)
          · exact hends (by decide) (by decide)
  | false =>
      simp only [space, hl, Bool.false_eq_true, if_false, List.cons_append, List.nil_append]
      rcases compactFrom_space (some c) (Token.textAll l ++ tail) with heq | ⟨heq, hglues⟩
      · rw [heq]
        rintro e ⟨⟩
        decide
      · rw [heq]
        rw [Option.any_some, hc, Bool.false_or] at hglues
        cases hs : Token.textAll l ++ tail with
        | nil => simp [compactFrom, Ends]
        | cons d s =>
            rw [hs, List.head?_cons, Option.any_some] at hglues
            have hd : d ∈ endMarks ∧ d ≠ ' ' := by
              simp only [gluesInFront, Bool.or_eq_true, decide_eq_true_eq] at hglues
              rcases hglues with (((((h | h) | h) | h) | h) | h) | h <;> subst h <;>
                exact ⟨by decide, by decide⟩
            exact hends hd.1 hd.2

/-! ## Tokens -/

/-- A character of a word or a number: one of an identifier, or the sign of a raw one. -/
def isSpelling (c : Char) : Prop := isNameChar c = true ∨ c = '#'

lemma not_glues_of_isSpelling {c : Char} (hc : isSpelling c) :
    gluesBehind c = false ∧ c ≠ ' ' := by
  rcases hc with hc | rfl
  · simp [gluesBehind, nameChar_ne hc (d := ' ') rfl, nameChar_ne hc (d := '<') rfl,
      nameChar_ne hc (d := '&') rfl, nameChar_ne hc (d := '(') rfl, nameChar_ne hc (d := '[') rfl,
      nameChar_ne hc (d := ':') rfl, nameChar_ne hc (d := '\'') rfl]
  · exact ⟨rfl, by decide⟩

lemma isSpelling_of_mem_word {w : String} (hw : IsWord w) : ∀ c ∈ w.toList, isSpelling c := by
  have hchars : ∀ {c t}, isIdentifierStart c = true → (∀ d ∈ t, isIdentifierPart d = true) →
      ∀ d ∈ c :: t, isSpelling d := fun hc ht =>
    List.forall_mem_cons.2
      ⟨.inl (isNameChar_of_start hc), fun d hd => .inl (isNameChar_of_part (ht d hd))⟩
  rcases word_cases hw with ⟨c, t, hwt, hc, ht⟩ | ⟨c, t, hwt, hc, ht, -⟩
  · rw [hwt]
    exact hchars hc ht
  · rw [hwt]
    exact List.forall_mem_cons.2 ⟨.inl rfl, List.forall_mem_cons.2 ⟨.inr rfl, hchars hc ht⟩⟩

/-- What ends in a word or a number, and the tokens behind it. -/
lemma begins_compactFrom (front : List Char) {t : List Char} {ts l : List Lexeme}
    (hfront : ' ' ∉ front) (ht : ∀ c ∈ t, isSpelling c) (hne : t ≠ [])
    (hbegins : ∀ {rest}, Ends rest → Begins (front ++ t ++ rest) ts rest)
    (hl : KeepsTokens l) (before : Option Char) {tail : List Char} (htail : Closes tail) :
    ∃ before', Begins (compactFrom before (front ++ t ++ (space l ++ Token.textAll l ++ tail)))
      (ts ++ l) (compactFrom before' tail) := by
  obtain ⟨middle, c, rfl⟩ := (List.eq_nil_or_concat' t).resolve_left hne
  have hspace : ' ' ∉ front ++ (middle ++ [c]) := by
    rw [List.mem_append, not_or]
    exact ⟨hfront, fun h => (not_glues_of_isSpelling (ht _ h)).2 rfl⟩
  have hglues := (not_glues_of_isSpelling (ht c (by simp))).1
  have hlast : (front ++ (middle ++ [c])).getLast? = some c := by
    rw [← List.append_assoc, List.getLast?_concat]
  rw [compactFrom_append hspace, hlast, Option.some_or]
  obtain ⟨before', hrest⟩ := hl.behind (some c) htail
  exact ⟨before', (hbegins (ends_compactFrom hglues l htail)).trans hrest⟩

/-- The text of a token and those behind it. -/
lemma textAll_cons {t : Lexeme} (ht : t.isJoint = false) (l : List Lexeme) (tail : List Char) :
    Token.textAll (t :: l) ++ tail = t.textOne ++ (space l ++ Token.textAll l ++ tail) := by
  rw [Token.textAll, ht, Bool.false_or, ← space]
  simp only [List.append_assoc]

lemma textAll_cons_joint {t : Lexeme} (ht : t.isJoint = true) (l : List Lexeme)
    (tail : List Char) :
    Token.textAll (t :: l) ++ tail = t.textOne ++ (Token.textAll l ++ tail) := by
  rw [Token.textAll, ht, Bool.true_or, if_pos rfl]
  simp only [List.append_nil, List.append_assoc]

lemma keepsTokens_word {w : String} {l : List Lexeme} (hw : IsWord w) (hl : KeepsTokens l) :
    KeepsTokens (.word w () :: l) := by
  intro before tail htail
  rw [textAll_cons rfl]
  exact begins_compactFrom [] List.not_mem_nil (isSpelling_of_mem_word hw) (ne_nil_of_isWord hw)
    (begins_word hw) hl before htail

lemma keepsTokens_number {d : String} {l : List Lexeme} (hd : IsInteger d) (hl : KeepsTokens l) :
    KeepsTokens (.literal d () :: l) := by
  intro before tail htail
  obtain ⟨-, hchars, c, t, hct, -⟩ := whole_append hd.whole ends_nil
  rw [textAll_cons rfl]
  exact begins_compactFrom [] List.not_mem_nil (fun c hc => .inl (hchars c hc))
    (by simp [hct]) (begins_number hd) hl before htail

lemma keepsTokens_mark {c : Char} {l : List Lexeme} (hc : c ∈ typeMarks) (hl : KeepsTokens l) :
    KeepsTokens (.mark c false () :: l) := by
  intro before tail htail
  have hne : c ≠ ' ' := by
    rintro rfl
    exact absurd hc (by decide)
  obtain ⟨before', hrest⟩ := hl.behind (some c) htail
  rw [textAll_cons rfl, Token.textOne, List.singleton_append, compactFrom_of_ne hne]
  exact ⟨before', (begins_mark hc (by simp)).trans hrest⟩

lemma keepsTokens_colons {l : List Lexeme} (hl : KeepsTokens l) :
    KeepsTokens (.mark ':' true () :: .mark ':' false () :: l) := by
  intro before tail htail
  obtain ⟨before', hrest⟩ := hl.behind (some ':') htail
  rw [textAll_cons_joint rfl, textAll_cons rfl, Token.textOne, Token.textOne,
    List.singleton_append, List.singleton_append, compactFrom_of_ne (by decide),
    compactFrom_of_ne (by decide)]
  exact ⟨before', (begins_mark (by decide) fun _ => rfl).trans
    ((begins_mark (by decide) (by simp)).trans hrest)⟩

lemma keepsTokens_lifetime {w : String} {l : List Lexeme} (hw : IsWord w) (hl : KeepsTokens l) :
    KeepsTokens (.mark '\'' true () :: .word w () :: l) := by
  intro before tail htail
  rw [textAll_cons_joint rfl, textAll_cons rfl, ← List.append_assoc]
  exact begins_compactFrom ['\''] (by decide) (isSpelling_of_mem_word hw)
    (ne_nil_of_isWord hw) (begins_lifetime hw) hl before htail

lemma keepsTokens_group {d : Delimiter} {inner l : List Lexeme} (hd : d ≠ .brace)
    (hinner : KeepsTokens inner) (hl : KeepsTokens l) :
    KeepsTokens (.group d inner () :: l) := by
  intro before tail htail
  obtain ⟨o, c, ho, hc, hopen, hclose, hmem⟩ : ∃ o c, Token.openingText d = [o]
      ∧ (∀ b, Token.closingText b d = [c]) ∧ o ≠ ' ' ∧ c ≠ ' ' ∧ c ∈ [')', ']'] := by
    cases d
    · exact ⟨'(', ')', rfl, fun _ => rfl, by decide, by decide, by decide⟩
    · exact ⟨'[', ']', rfl, fun _ => rfl, by decide, by decide, by decide⟩
    · exact absurd rfl hd
  obtain ⟨before', hrest⟩ := hl.behind (some c) htail
  obtain ⟨middle, hcontent⟩ := hinner (some o) (c :: (space l ++ Token.textAll l ++ tail))
    (by rintro e ⟨⟩; exact hmem)
  rw [compactFrom_of_ne hclose] at hcontent
  have hclosing : c :: compactFrom (some c) (space l ++ Token.textAll l ++ tail)
      = Token.closingText false d ++ compactFrom (some c) (space l ++ Token.textAll l ++ tail) := by
    rw [hc, List.singleton_append]
  rw [hclosing] at hcontent
  have hgroup := begins_group hd hcontent
  refine ⟨before', ?_⟩
  rw [textAll_cons rfl, Token.textOne, ho, hc]
  simp only [List.append_assoc, List.cons_append, compactFrom_of_ne hopen]
  rw [ho, List.singleton_append] at hgroup
  simp only [List.append_assoc] at hgroup hrest
  exact hgroup.trans hrest

end Scan

/-- **Compact, the text of tokens of types still has these tokens.** -/
theorem Lexable.keepsTokens {l : List Lexeme} (h : Lexable l) : Scan.KeepsTokens l := by
  induction h with
  | nil => exact fun before tail _ => ⟨before, Scan.Begins.refl _⟩
  | word hw _ ih => exact Scan.keepsTokens_word hw ih
  | mark hc _ ih => exact Scan.keepsTokens_mark hc ih
  | colons _ ih => exact Scan.keepsTokens_colons ih
  | lifetime hw _ ih => exact Scan.keepsTokens_lifetime hw ih
  | number hd _ ih => exact Scan.keepsTokens_number hd ih
  | group hd _ _ hinner ih => exact Scan.keepsTokens_group hd hinner ih

/-- Neither a space nor a byte order mark is first. -/
lemma Lexable.head_ne {l : List Lexeme} (h : Lexable l) :
    ∀ c ∈ (Token.textAll l).head?, c ≠ ' ' ∧ c ≠ '\ufeff' := by
  have hfirst : ∀ {t : Lexeme} {l c s}, t.textOne = c :: s → c ≠ ' ' ∧ c ≠ '\ufeff' →
      ∀ d ∈ (Token.textAll (t :: l)).head?, d ≠ ' ' ∧ d ≠ '\ufeff' := by
    intro t l c s ht hc d hd
    rw [Token.textAll, ht] at hd
    obtain rfl : c = d := by simpa using hd
    exact hc
  cases h with
  | nil => simp [Token.textAll]
  | @word w l hw hl =>
      obtain ⟨c, t, hct⟩ := List.exists_cons_of_ne_nil (Scan.ne_nil_of_isWord hw)
      obtain ⟨hseparator, hmark⟩ := hw.visible c (by rw [hct]; rfl)
      refine hfirst (by rw [Token.textOne, hct]) ⟨?_, hmark⟩
      rintro rfl
      exact absurd hseparator (by decide)
  | @mark c l hc hl =>
      refine hfirst (by rw [Token.textOne]) ?_
      constructor
      · rintro rfl
        exact absurd hc (by decide)
      · rintro rfl
        exact absurd hc (by decide)
  | colons hl => exact hfirst (by rw [Token.textOne]) (by decide)
  | lifetime hw hl => exact hfirst (by rw [Token.textOne]) (by decide)
  | @number d l hd hl =>
      obtain ⟨-, -, c, t, hct, hc⟩ := Scan.whole_append hd.whole Scan.ends_nil
      refine hfirst (by rw [Token.textOne, hct]) ?_
      constructor
      · rintro rfl
        exact absurd hc (by decide)
      · rintro rfl
        exact absurd hc (by decide)
  | @group d inner l hd hinner hl =>
      cases d
      · exact hfirst (by rw [Token.textOne]; rfl) (by decide)
      · exact hfirst (by rw [Token.textOne]; rfl) (by decide)
      · exact absurd rfl hd

/-- **The compact text of tokens of types is scanned as these tokens.** -/
theorem Lexable.scan? {l : List Lexeme} (h : Lexable l) :
    ∃ ts, Token.scan? (TypeName.ofLexemes l).toList = some ts ∧ Shown ts l := by
  obtain ⟨before', hbegins⟩ := h.keepsTokens none [] (by simp [Scan.Closes])
  rw [List.append_nil] at hbegins
  rw [TypeName.ofLexemes, String.toList_ofList]
  refine hbegins.scan? fun c hc => ?_
  have hhead := h.head_ne
  cases hs : Token.textAll l with
  | nil => simp [hs, compactFrom] at hc
  | cons d s =>
      obtain ⟨hspace, hmark⟩ := hhead d (by rw [hs]; rfl)
      rw [hs, Scan.compactFrom_of_ne hspace] at hc
      obtain rfl : d = c := by simpa using hc
      exact hmark

/-! ## Spelled types -/

lemma lexable_mark {c : Char} (hc : c ∈ Scan.typeMarks) : Lexable [.mark c false ()] :=
  .mark hc .nil

lemma lexable_colons : Lexable colons := .colons .nil

lemma lexable_lifetime {w : String} (hw : IsWord w) : Lexable (Token.lifetime w) :=
  .lifetime hw .nil

lemma lexable_commaLexemes (trailing : Bool) {ls : List (List Lexeme)}
    (h : ∀ l ∈ ls, Lexable l) : Lexable (commaLexemes trailing ls) := by
  have hcomma : Lexable (Token.marks ",") := lexable_mark (by decide)
  induction ls with
  | nil => exact .nil
  | cons l ls ih =>
      obtain ⟨hl, hls⟩ := List.forall_mem_cons.1 h
      cases ls with
      | nil =>
          rw [commaLexemes]
          refine hl.append ?_
          split_ifs
          · exact hcomma
          · exact .nil
      | cons k ls =>
          rw [commaLexemes]
          · exact (hl.append hcomma).append (ih hls)
          · simp

lemma lexable_intersperse {ls : List (List Lexeme)} (h : ∀ l ∈ ls, Lexable l) :
    Lexable (ls.intersperse colons).flatten := by
  induction ls with
  | nil => exact .nil
  | cons l ls ih =>
      obtain ⟨hl, hls⟩ := List.forall_mem_cons.1 h
      cases ls with
      | nil => simpa using hl
      | cons k ls =>
          rw [List.intersperse_cons_cons, List.flatten_cons, List.flatten_cons]
          exact hl.append (lexable_colons.append (ih hls))

lemma isWord_mut : IsWord "mut" where
  name := rfl
  visible := by
    rintro c ⟨⟩
    exact ⟨rfl, by decide⟩

mutual

/-- **Types that are spelled with words have tokens of types.** -/
theorem Ty.lexable : ∀ {t : Ty}, t.WellSpelled → Lexable t.spelled
  | .path p, h => by
      rw [Ty.spelled]
      exact Path.lexable (p := p) h
  | .reference l m t, h => by
      have hand : Lexable (Token.marks "&") := lexable_mark (by decide)
      have hmut : Lexable (if m then [.word "mut" ()] else []) := by
        cases m
        · exact .nil
        · exact .word isWord_mut .nil
      cases l with
      | none =>
          rw [Ty.spelled]
          exact ((hand.append .nil).append hmut).append (Ty.lexable h.2)
      | some n =>
          rw [Ty.spelled]
          exact ((hand.append (lexable_lifetime (h.1 n rfl))).append hmut).append (Ty.lexable h.2)
  | .slice e, h => by
      rw [Ty.spelled]
      exact .group (by decide) (Ty.lexable (t := e) h) .nil
  | .array e n, h => by
      obtain ⟨he, d, rfl, hd⟩ := h
      have hsemicolon : Lexable (Token.marks ";") := lexable_mark (by decide)
      rw [Ty.spelled]
      exact .group (by decide)
        (((Ty.lexable he).append hsemicolon).append (.number hd .nil)) .nil
  | .tuple es trailing, h => by
      rw [Ty.spelled]
      exact .group (by decide) (lexable_commaLexemes trailing (spelledTypes_lexable h.1)) .nil
  | .parenthesized t, h => by
      rw [Ty.spelled]
      exact .group (by decide) (Ty.lexable (t := t) h) .nil

lemma Path.lexable : ∀ {p : Path}, p.WellSpelled → Lexable p.spelled
  | .mk r segments, h => by
      rw [Path.spelled]
      have hroot : Lexable (if r then colons else []) := by
        cases r
        · exact .nil
        · exact lexable_colons
      exact hroot.append (lexable_intersperse (spelledSegments_lexable h.1))

lemma Segment.lexable : ∀ {s : Segment}, s.WellSpelled → Lexable s.spelled
  | .mk n a, h => by
      rw [Segment.spelled]
      exact .word h.1 (Arguments.lexable h.2.2)

lemma Arguments.lexable : ∀ {a : Arguments}, a.WellSpelled → Lexable a.spelled
  | .none, _ => by
      rw [Arguments.spelled]
      exact .nil
  | .angled turbofish items trailing, h => by
      rw [Arguments.spelled]
      have hcolons : Lexable (if turbofish then colons else []) := by
        cases turbofish
        · exact .nil
        · exact lexable_colons
      exact ((hcolons.append (lexable_mark (by decide))).append
        (lexable_commaLexemes trailing (spelledItems_lexable h.1))).append
          (lexable_mark (by decide))

lemma Argument.lexable : ∀ {a : Argument}, a.WellSpelled → Lexable a.spelled
  | .lifetime n, h => by
      rw [Argument.spelled]
      exact lexable_lifetime h
  | .type t, h => by
      rw [Argument.spelled]
      exact Ty.lexable (t := t) h

lemma spelledTypes_lexable : ∀ {ts : List Ty}, typesWellSpelled ts →
    ∀ l ∈ spelledTypes ts, Lexable l
  | [], _ => by simp [spelledTypes]
  | t :: rest, h => by
      rw [spelledTypes]
      exact List.forall_mem_cons.2 ⟨Ty.lexable h.1, spelledTypes_lexable h.2⟩

lemma spelledSegments_lexable : ∀ {ss : List Segment}, segmentsWellSpelled ss →
    ∀ l ∈ spelledSegments ss, Lexable l
  | [], _ => by simp [spelledSegments]
  | s :: rest, h => by
      rw [spelledSegments]
      exact List.forall_mem_cons.2 ⟨Segment.lexable h.1, spelledSegments_lexable h.2⟩

lemma spelledItems_lexable : ∀ {items : List Argument}, itemsWellSpelled items →
    ∀ l ∈ spelledItems items, Lexable l
  | [], _ => by simp [spelledItems]
  | a :: rest, h => by
      rw [spelledItems]
      exact List.forall_mem_cons.2 ⟨Argument.lexable h.1, spelledItems_lexable h.2⟩

end

end FieldCopy.Source
