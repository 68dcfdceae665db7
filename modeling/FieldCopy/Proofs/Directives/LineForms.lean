import Mathlib
import FieldCopy.Proofs.Directives.Acceptance

/-!
# The form of a line with a directive

Reading a line cuts blanks, slashes and words off its front.  What is stated here speaks of the line
as a whole: which parts it is made of.

**Words.**  `Text.HasWords` tells how a text is made of words with blanks around them.  A text has
exactly one list of words, `Text.words` (`Text.hasWords_iff`).

**Forms.**  A `LineForm` is a line in its parts.  Its directive and what follows that are what
`Annotation.split?` finds (`LineForm.split?_text`), and a line without a form is malformed.  Two
forms of one line are the same, but for where blanks without a marker between them are cut
(`LineForm.same_of_text_eq`).

**Main statement.**  `Annotation.reading_exact`: which lines are malformed, and what all others are
read as.
-/

namespace FieldCopy

/-! ## Words -/

namespace Text

open Annotation (behindWord)

/-- A text of blanks only. -/
def AllBlank (s : List Char) : Prop := ∀ c ∈ s, isBlank c = true

/-- A text that is not empty and has no blanks. -/
structure IsWord (w : List Char) : Prop where
  nonempty : w ≠ []
  solid : ∀ c ∈ w, isBlank c = false

/-- A text is empty or begins with a blank, so that a word in front of it ends there. -/
def EndsWord (s : List Char) : Prop := ∀ c ∈ s.head?, isBlank c = true

/-- A text is empty or begins with something else than a blank. -/
def BeginsSolid (s : List Char) : Prop := ∀ c ∈ s.head?, isBlank c = false

/-- A text consists of these words, with blanks between them and around them. -/
inductive HasWords : List Char → List (List Char) → Prop where
  | none {blanks : List Char} (blank : AllBlank blanks) : HasWords blanks []
  | word {blanks w s : List Char} {ws : List (List Char)} (blank : AllBlank blanks)
      (word : IsWord w) (ends : EndsWord s) (rest : HasWords s ws) :
      HasWords (blanks ++ (w ++ s)) (w :: ws)

section

variable {p : Char → Bool} {a s : List Char}

/-- Where a run of characters ends is told by the first character that is not one of them. -/
lemma takeWhile_append_of (ha : ∀ c ∈ a, p c = true) (hs : ∀ c ∈ s.head?, p c = false) :
    (a ++ s).takeWhile p = a := by
  rw [List.takeWhile_append_of_pos ha]
  cases s with
  | nil => simp
  | cons c s => simp [hs c rfl]

lemma dropWhile_append_of (ha : ∀ c ∈ a, p c = true) (hs : ∀ c ∈ s.head?, p c = false) :
    (a ++ s).dropWhile p = s := by
  rw [List.dropWhile_append_of_pos ha]
  cases s with
  | nil => rfl
  | cons c s => rw [List.dropWhile_cons_of_neg (by simp [hs c rfl])]

/-- What is left of a text without a run of characters does not begin with one of them. -/
lemma head?_dropWhile (p : Char → Bool) (s : List Char) :
    ∀ c ∈ (s.dropWhile p).head?, p c = false := by
  intro c hc
  have hnot := List.head?_dropWhile_not p s
  rw [Option.mem_def.1 hc] at hnot
  exact hnot

end

lemma trimStart_append {blanks s : List Char} (hblanks : AllBlank blanks) (hs : BeginsSolid s) :
    trimStart (blanks ++ s) = s := dropWhile_append_of hblanks hs

lemma beginsSolid_trimStart (s : List Char) : BeginsSolid (trimStart s) := head?_dropWhile _ s

/-- The blanks that are cut off. -/
lemma exists_trimStart (s : List Char) : ∃ blanks, AllBlank blanks ∧ blanks ++ trimStart s = s :=
  ⟨s.takeWhile isBlank, fun _ hc => List.mem_takeWhile_imp hc, List.takeWhile_append_dropWhile⟩

lemma exists_trimEnd (s : List Char) : ∃ blanks, AllBlank blanks ∧ trimEnd s ++ blanks = s := by
  obtain ⟨blanks, hblanks, hs⟩ := exists_trimStart s.reverse
  refine ⟨blanks.reverse, fun c hc => hblanks c (List.mem_reverse.1 hc), ?_⟩
  rw [trimEnd, ← List.reverse_append]
  exact List.reverse_eq_iff.2 hs

lemma word_append {w s : List Char} (hw : ∀ c ∈ w, isBlank c = false) (hs : EndsWord s) :
    word (w ++ s) = (w, s) := by
  rw [word, List.span_eq_takeWhile_dropWhile,
    takeWhile_append_of (fun c hc => by rw [hw c hc]; rfl) fun c hc => by rw [hs c hc]; rfl,
    dropWhile_append_of (fun c hc => by rw [hw c hc]; rfl) fun c hc => by rw [hs c hc]; rfl]

/-- The first word of a text and what is behind it. -/
lemma word_spec (s : List Char) :
    (word s).1 ++ (word s).2 = s ∧ (∀ c ∈ (word s).1, isBlank c = false)
      ∧ EndsWord (word s).2 := by
  rw [word, List.span_eq_takeWhile_dropWhile]
  refine ⟨List.takeWhile_append_dropWhile, fun c hc => ?_, fun c hc => ?_⟩
  · simpa using List.mem_takeWhile_imp hc
  · simpa using head?_dropWhile (! isBlank ·) s c hc

/-! ### Cutting a text into words -/

lemma wordsFrom_blanks {blanks : List Char} (h : AllBlank blanks) (s : List Char) :
    wordsFrom [] (blanks ++ s) = wordsFrom [] s := by
  induction blanks with
  | nil => rfl
  | cons c blanks ih =>
      rw [List.cons_append, wordsFrom, if_pos (h c List.mem_cons_self)]
      exact ih fun d hd => h d (List.mem_cons_of_mem c hd)

lemma wordsFrom_solid {w : List Char} (h : ∀ c ∈ w, isBlank c = false) (current s : List Char) :
    wordsFrom current (w ++ s) = wordsFrom (w.reverse ++ current) s := by
  induction w generalizing current with
  | nil => rfl
  | cons c w ih =>
      rw [List.cons_append, wordsFrom, h c List.mem_cons_self, if_neg Bool.false_ne_true,
        ih fun d hd => h d (List.mem_cons_of_mem c hd)]
      simp

lemma wordsFrom_ends {current s : List Char} (hcurrent : current ≠ []) (hs : EndsWord s) :
    wordsFrom current s = current.reverse :: wordsFrom [] s := by
  cases s with
  | nil => simp [wordsFrom, hcurrent]
  | cons c s => simp [wordsFrom, hcurrent, hs c rfl]

lemma words_of_blanks {blanks : List Char} (h : AllBlank blanks) : words blanks = [] := by
  rw [← List.append_nil blanks, words, wordsFrom_blanks h]
  rfl

lemma words_append {blanks w s : List Char} (hblanks : AllBlank blanks) (hw : IsWord w)
    (hs : EndsWord s) : words (blanks ++ (w ++ s)) = w :: words s := by
  have hnonempty : w.reverse ≠ [] := fun h => hw.nonempty (List.reverse_eq_nil_iff.1 h)
  rw [words, wordsFrom_blanks hblanks, wordsFrom_solid hw.solid, List.append_nil,
    wordsFrom_ends hnonempty hs, List.reverse_reverse, words]

lemma HasWords.words_eq {s : List Char} {ws : List (List Char)} (h : HasWords s ws) :
    words s = ws := by
  induction h with
  | none blank => exact words_of_blanks blank
  | word blank hw ends _ ih => rw [words_append blank hw ends, ih]

lemma hasWords_words (s : List Char) : HasWords s (words s) := by
  obtain ⟨blanks, hblanks, hs⟩ := exists_trimStart s
  obtain ⟨hword, hsolid, hends⟩ := word_spec (trimStart s)
  cases hw : (word (trimStart s)).1 with
  | nil =>
      -- What begins with no word and with no blank is empty.
      have hempty : trimStart s = [] := by
        rw [hw, List.nil_append] at hword
        rw [hword] at hends
        cases ht : trimStart s with
        | nil => rfl
        | cons c t =>
            have hc : c ∈ (trimStart s).head? := by rw [ht]; rfl
            exact absurd (hends c hc) (by rw [beginsSolid_trimStart s c hc]; decide)
      rw [hempty, List.append_nil] at hs
      rw [← hs, words_of_blanks hblanks]
      exact .none hblanks
  | cons c w =>
      have hisWord : IsWord (word (trimStart s)).1 :=
        ⟨by rw [hw]; exact List.cons_ne_nil c w, hsolid⟩
      have hlength : (word (trimStart s)).2.length < s.length := by
        have hsize := congrArg List.length hword
        have hsize' := congrArg List.length hs
        rw [List.length_append, hw, List.length_cons] at hsize
        rw [List.length_append] at hsize'
        omega
      have hrest := HasWords.word hblanks hisWord hends (hasWords_words (word (trimStart s)).2)
      rw [← words_append hblanks hisWord hends, hword, hs] at hrest
      exact hrest
termination_by s.length

/-- **A text has one list of words.** -/
theorem hasWords_iff {s : List Char} {ws : List (List Char)} : HasWords s ws ↔ words s = ws :=
  ⟨HasWords.words_eq, fun h => h ▸ hasWords_words s⟩

/-- Blanks at the end of a text do not change its words. -/
lemma HasWords.append_blanks {s : List Char} {ws : List (List Char)} (h : HasWords s ws)
    {blanks : List Char} (hblanks : AllBlank blanks) : HasWords (s ++ blanks) ws := by
  induction h with
  | none blank => exact .none fun c hc => (List.mem_append.1 hc).elim (blank c) (hblanks c)
  | @word before w s ws blank hw ends _ ih =>
      rw [List.append_assoc, List.append_assoc]
      refine .word blank hw (fun c hc => ?_) ih
      cases s with
      | nil => exact hblanks c (List.mem_of_mem_head? hc)
      | cons d s => exact ends c hc

/-! ### What follows the first word -/

/-- A text goes on behind its first word.  What it goes on with is all that follows, but for the
blanks around it. -/
structure GoesOn (s first t : List Char) : Prop where
  cut : ∃ gap blanks, AllBlank gap ∧ gap ≠ [] ∧ AllBlank blanks
    ∧ s = first ++ (gap ++ (t ++ blanks))
  nonempty : t ≠ []
  begins : BeginsSolid t
  ends : BeginsSolid t.reverse

/-- **A text with two words or more goes on behind the first of them** with the others. -/
lemma goesOn_behindWord {s first : List Char} {others : List (List Char)} (hs : BeginsSolid s)
    (hothers : others ≠ []) (h : HasWords s (first :: others)) :
    GoesOn s first (behindWord (trimEnd s))
      ∧ HasWords (behindWord (trimEnd s)) others := by
  obtain ⟨blanks, hblanks, hcut⟩ := exists_trimEnd s
  have hwords : words (trimEnd s) = first :: others := by
    have htrimmed := (hasWords_words (trimEnd s)).append_blanks hblanks
    rw [hcut] at htrimmed
    exact htrimmed.words_eq.symm.trans h.words_eq
  obtain ⟨hword, hsolid, hends⟩ := word_spec (trimEnd s)
  have hfirst : (word (trimEnd s)).1 ≠ [] := by
    intro hnil
    rw [hnil, List.nil_append] at hword
    cases htrimmed : trimEnd s with
    | nil => rw [htrimmed] at hwords; exact absurd hwords (by simp [words, wordsFrom])
    | cons c t =>
        have hc : c ∈ s.head? := by rw [← hcut, htrimmed]; rfl
        have hblank := hends c (by rw [hword, htrimmed]; rfl)
        exact absurd hblank (by rw [hs c hc]; decide)
  have hparts : (word (trimEnd s)).1 :: words (word (trimEnd s)).2 = first :: others := by
    rw [← hwords, ← words_append (List.forall_mem_nil _)
      ⟨hfirst, hsolid⟩ hends, List.nil_append, hword]
  obtain ⟨rfl, hbehind⟩ := List.cons.inj hparts
  obtain ⟨gap, hgap, hafter⟩ := exists_trimStart (word (trimEnd s)).2
  have hrest : HasWords (behindWord (trimEnd s)) others := by
    rw [hasWords_iff, ← hbehind, behindWord, words, words, ← hafter,
      wordsFrom_blanks hgap, hafter]
  have hnonempty : behindWord (trimEnd s) ≠ [] := by
    intro hnil
    rw [hnil] at hrest
    exact hothers hrest.words_eq.symm
  refine ⟨⟨⟨gap, blanks, hgap, ?_, hblanks, ?_⟩, hnonempty, beginsSolid_trimStart _, ?_⟩, hrest⟩
  · -- Without blanks behind it the first word would go on.
    rintro rfl
    rw [List.nil_append] at hafter
    obtain ⟨c, hc⟩ := Option.isSome_iff_exists.1 (List.isSome_head?.2 hnonempty)
    have hblank := hends c (by rw [← hafter]; exact hc)
    exact absurd hblank (by rw [beginsSolid_trimStart _ c hc]; decide)
  · rw [← List.append_assoc gap, behindWord, hafter, ← List.append_assoc, hword, hcut]
  · intro c hc
    refine head?_dropWhile isBlank s.reverse c ?_
    rw [← List.reverse_reverse (List.dropWhile isBlank s.reverse), ← trimEnd, ← hword, ← hafter,
      List.reverse_append, List.reverse_append, List.append_assoc, ← behindWord,
      List.head?_append_of_ne_nil _ fun hnil => hnonempty (List.reverse_eq_nil_iff.1 hnil)]
    exact hc

end Text

/-! ## Lines in their parts -/

open Text
open Annotation (dropMarker split?)

/-- A line with a directive in its parts. -/
structure LineForm where
  /-- The blanks at the front. -/
  lead : List Char
  marker : List Char
  /-- The blanks behind the marker. -/
  gap : List Char
  name : List Char
  /-- The blanks behind the name. -/
  space : List Char
  rest : List Char
  lead_blank : AllBlank lead
  /-- The marker is missing, or two slashes or more. -/
  marker_slashes : marker = [] ∨ ∃ n, marker = List.replicate (n + 2) '/'
  gap_blank : AllBlank gap
  name_word : IsWord name
  space_blank : AllBlank space
  /-- The name goes on to the next blank. -/
  name_ends : EndsWord (space ++ rest)
  rest_solid : BeginsSolid rest
  rest_line : '\n' ∉ rest

namespace LineForm

/-- What stands in front of the colon. -/
def front (f : LineForm) : List Char := f.lead ++ (f.marker ++ f.gap)

/-- The line. -/
def text (f : LineForm) : List Char := f.front ++ ':' :: (f.name ++ (f.space ++ f.rest))

/-- Two forms have the same parts.  Without a marker it is left open where the blanks in front of
the colon are cut in two. -/
structure Same (f g : LineForm) : Prop where
  front : f.front = g.front
  marker : f.marker = g.marker
  lead : f.marker ≠ [] → f.lead = g.lead
  gap : f.marker ≠ [] → f.gap = g.gap
  name : f.name = g.name
  space : f.space = g.space
  rest : f.rest = g.rest

lemma slash_of_mem_marker (f : LineForm) {c : Char} (hc : c ∈ f.marker) : c = '/' := by
  rcases f.marker_slashes with h | ⟨n, h⟩
  · exact absurd (h ▸ hc) List.not_mem_nil
  · exact List.eq_of_mem_replicate (h ▸ hc)

lemma colon_notMem_front (f : LineForm) : ':' ∉ f.front := by
  rw [front, List.mem_append, List.mem_append]
  rintro (h | h | h)
  · exact absurd (f.lead_blank _ h) (by decide)
  · exact absurd (f.slash_of_mem_marker h) (by decide)
  · exact absurd (f.gap_blank _ h) (by decide)

/-! ### Reading a form off its line -/

lemma dropMarker_of_marker {n : Nat} {s : List Char} (hs : ∀ c ∈ s.head?, c ≠ '/') :
    dropMarker (List.replicate (n + 2) '/' ++ s) = s := by
  rw [dropMarker, if_pos (by simp [List.replicate_succ])]
  exact dropWhile_append_of (fun c hc => by simpa using List.eq_of_mem_replicate hc)
    fun c hc => by simpa using hs c hc

lemma dropMarker_of_not_slash {s : List Char} (hs : ∀ c ∈ s.head?, c ≠ '/') :
    dropMarker s = s := by
  rw [dropMarker, if_neg]
  cases s with
  | nil => decide
  | cons c s => simp [(hs c rfl).symm]

/-- A colon is no blank. -/
lemma beginsSolid_colon (s : List Char) : BeginsSolid (':' :: s) := fun c hc => by
  obtain rfl : ':' = c := by simpa using hc
  decide

/-- The blanks and the marker are cut off the front. -/
lemma trimmed_text (f : LineForm) :
    trimStart (dropMarker (trimStart f.text))
      = ':' :: (f.name ++ (f.space ++ f.rest)) := by
  have hcolon := beginsSolid_colon (f.name ++ (f.space ++ f.rest))
  rcases f.marker_slashes with h | ⟨n, h⟩
  · -- Without a marker the first cut takes the blanks on both sides of where one could stand.
    have hblank : AllBlank (f.lead ++ f.gap) := fun c hc =>
      (List.mem_append.1 hc).elim (f.lead_blank c) (f.gap_blank c)
    rw [text, front, h, List.nil_append, trimStart_append hblank hcolon,
      dropMarker_of_not_slash fun c hc => by
        obtain rfl : ':' = c := by simpa using hc
        decide]
    exact trimStart_append (List.forall_mem_nil _) hcolon
  · have hsolid : BeginsSolid (f.marker ++ (f.gap ++ ':' :: (f.name ++ (f.space ++ f.rest)))) := by
      intro c hc
      rw [h, List.replicate_succ, List.cons_append] at hc
      obtain rfl : '/' = c := by simpa using hc
      decide
    have hslash : ∀ c ∈ (f.gap ++ ':' :: (f.name ++ (f.space ++ f.rest))).head?, c ≠ '/' := by
      intro c hc
      cases hgap : f.gap with
      | nil =>
          rw [hgap] at hc
          obtain rfl : ':' = c := by simpa using hc
          decide
      | cons d gap =>
          rw [hgap] at hc
          obtain rfl : d = c := by simpa using hc
          rintro rfl
          exact absurd (f.gap_blank '/' (by rw [hgap]; exact List.mem_cons_self)) (by decide)
    rw [text, front, List.append_assoc, List.append_assoc, trimStart_append f.lead_blank hsolid,
      h, dropMarker_of_marker hslash, trimStart_append f.gap_blank hcolon]

/-- **The name and the rest of a form are what is found in its line.** -/
lemma split?_text (f : LineForm) : split? f.text = some (f.name, f.rest) := by
  have hname : f.name.isEmpty = false := by simpa using f.name_word.nonempty
  have hrest : f.rest.contains '\n' = false := by simpa using f.rest_line
  rw [split?, f.trimmed_text]
  simp only [word_append f.name_word.solid f.name_ends,
    trimStart_append f.space_blank f.rest_solid, hname, hrest, Bool.or_self,
    Bool.false_eq_true, if_false]

/-- What is found in a line belongs to a form of the line. -/
lemma exists_of_split? {s name rest : List Char} (h : split? s = some (name, rest)) :
    ∃ f : LineForm, f.text = s ∧ f.name = name ∧ f.rest = rest := by
  obtain ⟨lead, hlead, hs⟩ := exists_trimStart s
  obtain ⟨marker, hmarker, hmarked⟩ : ∃ marker : List Char,
      (marker = [] ∨ ∃ n, marker = List.replicate (n + 2) '/')
        ∧ marker ++ dropMarker (trimStart s) = trimStart s := by
    rw [dropMarker]
    split
    · rename_i hprefix
      obtain ⟨more, hmore⟩ := List.isPrefixOf_iff_prefix.1 hprefix
      refine ⟨(trimStart s).takeWhile (· = '/'), .inr ⟨(more.takeWhile (· = '/')).length, ?_⟩,
        List.takeWhile_append_dropWhile⟩
      rw [← hmore]
      refine List.eq_replicate_iff.2 ⟨by simp, fun c hc => ?_⟩
      simpa using List.mem_takeWhile_imp hc
    · exact ⟨[], .inl rfl, rfl⟩
  obtain ⟨gap, hgap, hcolon⟩ := exists_trimStart (dropMarker (trimStart s))
  rw [split?] at h
  split at h
  · rename_i named hnamed
    obtain ⟨hword, hsolid, hends⟩ := word_spec named
    obtain ⟨space, hspace, hafter⟩ := exists_trimStart (word named).2
    simp only at h
    split at h
    · exact absurd h (by simp)
    · rename_i hgood
      obtain ⟨rfl, rfl⟩ := Prod.mk.inj (Option.some.inj h)
      simp only [Bool.or_eq_true, not_or, List.isEmpty_iff, List.contains_iff_mem] at hgood
      refine ⟨⟨lead, marker, gap, (word named).1, space, trimStart (word named).2, hlead, hmarker,
        hgap, ⟨hgood.1, hsolid⟩, hspace, hafter.symm ▸ hends, beginsSolid_trimStart _, hgood.2⟩,
        ?_, rfl, rfl⟩
      rw [text, front]
      simp only
      rw [hafter, hword, ← hnamed, List.append_assoc, List.append_assoc, hcolon, hmarked, hs]
  · exact absurd h (by simp)

/-- **A line has one form.** -/
lemma same_of_text_eq {f g : LineForm} (h : f.text = g.text) : Same f g := by
  -- The front reaches to the first colon.
  have hcut : ∀ k : LineForm, k.text.takeWhile (· ≠ ':') = k.front := fun k =>
    takeWhile_append_of
      (fun c hc => decide_eq_true fun hcolon => k.colon_notMem_front (hcolon ▸ hc))
      fun c hc => by
        obtain rfl : ':' = c := by simpa using hc
        decide
  have hfront : f.front = g.front := by rw [← hcut f, ← hcut g, h]
  have hbehind : f.name ++ (f.space ++ f.rest) = g.name ++ (g.space ++ g.rest) := by
    rw [text, text, hfront] at h
    exact List.tail_eq_of_cons_eq (List.append_cancel_left h)
  have hread := (f.split?_text).symm.trans (h ▸ g.split?_text)
  obtain ⟨hname, hrest⟩ := Prod.mk.inj (Option.some.inj hread)
  have hspace : f.space = g.space := by
    rw [hname, hrest] at hbehind
    exact List.append_cancel_right (List.append_cancel_left hbehind)
  -- The slashes of the front are those of the marker.
  have hslashes : ∀ k : LineForm, k.front.filter (· = '/') = k.marker := by
    intro k
    have hlead : k.lead.filter (· = '/') = [] := List.filter_eq_nil_iff.2 fun c hc hslash =>
      absurd (k.lead_blank c hc) (by rw [of_decide_eq_true hslash]; decide)
    have hgap : k.gap.filter (· = '/') = [] := List.filter_eq_nil_iff.2 fun c hc hslash =>
      absurd (k.gap_blank c hc) (by rw [of_decide_eq_true hslash]; decide)
    rw [front, List.filter_append, List.filter_append, hlead, hgap, List.append_nil,
      List.nil_append]
    exact List.filter_eq_self.2 fun c hc => decide_eq_true (k.slash_of_mem_marker hc)
  have hmarker : f.marker = g.marker := by rw [← hslashes f, ← hslashes g, hfront]
  -- The blanks in front of a marker are those that the line begins with.
  have hlead : f.marker ≠ [] → f.lead = g.lead := by
    intro hne
    have hbegins : ∀ k : LineForm, k.marker ≠ [] → k.front.takeWhile isBlank = k.lead := by
      intro k hk
      refine takeWhile_append_of k.lead_blank fun c hc => ?_
      rw [List.head?_append_of_ne_nil _ hk] at hc
      rw [k.slash_of_mem_marker (List.mem_of_mem_head? hc)]
      decide
    rw [← hbegins f hne, ← hbegins g (hmarker ▸ hne), hfront]
  refine ⟨hfront, hmarker, hlead, fun hne => ?_, hname, hspace, hrest⟩
  rw [front, front, hlead hne, hmarker] at hfront
  exact List.append_cancel_left (List.append_cancel_left hfront)

/-- A line with a form holds what the form says, and any other has none. -/
lemma split?_eq_none_iff {s : List Char} :
    split? s = none ↔ ¬ ∃ f : LineForm, f.text = s := by
  constructor
  · rintro h ⟨f, rfl⟩
    exact absurd (h.symm.trans f.split?_text) (by simp)
  · intro h
    cases hs : split? s with
    | none => rfl
    | some found =>
        obtain ⟨name, rest⟩ := found
        obtain ⟨f, hf, -⟩ := exists_of_split? hs
        exact absurd ⟨f, hf⟩ h

end LineForm

/-! ## Reading a line -/

/-- Every name belongs to one form of directives. -/
lemma DirectiveForm.named?_eq_some {form : DirectiveForm} (h : form ∈ all) :
    named? form.name = some form := by
  have hnames : (all.map name).Nodup := by decide
  obtain ⟨front, back, hall⟩ := List.append_of_mem h
  rw [named?, List.find?_eq_some_iff_append]
  refine ⟨beq_self_eq_true _, front, back, hall, fun other hother => ?_⟩
  rw [hall, List.map_append, List.map_cons] at hnames
  have hne : other.name ≠ form.name :=
    (List.nodup_append.1 hnames).2.2 _ (List.mem_map_of_mem hother) _ List.mem_cons_self
  simpa using hne

namespace Annotation

open Attempt

/-- What a form of directives makes of some arguments. -/
def answer (p : Position) (form : DirectiveForm) (a : Arguments) :
    Except Fault (Option Directive) :=
  if form.takes a.words.length then
    match form.read a with
    | .error cause => .error (.misconfigured p cause)
    | .ok d => .ok (some d)
  else .error (.misconfigured p form.wrongCount)

/-- What a line of some form is read as. -/
structure IsReadAs (valid : List String) (line : Annotation) (f : LineForm) : Prop where
  /-- A name that is not taken is passed over. -/
  untaken : (∀ form ∈ DirectiveForm.all, form.name = String.ofList f.name → form.name ∉ valid) →
    Leaves (line.directive valid) (.ok none)
      [⟨.warning, line.position,
        "\":" ++ String.ofList f.name ++ "\" is invalid or unknown notation here"⟩]
  /-- The arguments of a directive are the words behind its name, and the text that they go on
  with behind the first. -/
  taken : ∀ form ∈ DirectiveForm.all, form.name = String.ofList f.name → form.name ∈ valid →
    ∃ ws t, HasWords f.rest ws
      ∧ (∀ first others, ws = first :: others → others ≠ [] →
          GoesOn f.rest first t ∧ HasWords t others)
      ∧ Leaves (line.directive valid)
          (answer line.position form ⟨ws.map String.ofList, String.ofList t⟩) []
  /-- A literal is the text behind the first word. -/
  literal : String.ofList f.name = "literal" → "literal" ∈ valid →
    ∀ first others, HasWords f.rest (first :: others) → others ≠ [] →
      ∃ t, GoesOn f.rest first t ∧ HasWords t others
        ∧ Leaves (line.directive valid)
            (.ok (some (.literal (String.ofList first) (String.ofList t)))) []

variable {valid : List String} {line : Annotation}

lemma directive_of_split?_none (h : split? line.text.toList = none) :
    Leaves (line.directive valid) (.error (.malformed line.position line.text)) [] := by
  rw [directive, h]
  exact .throw _

lemma directive_of_untaken {name rest : List Char}
    (h : split? line.text.toList = some (name, rest))
    (huntaken : ∀ form ∈ DirectiveForm.all, form.name = String.ofList name → form.name ∉ valid) :
    Leaves (line.directive valid) (.ok none)
      [⟨.warning, line.position,
        "\":" ++ String.ofList name ++ "\" is invalid or unknown notation here"⟩] := by
  have hnone : (DirectiveForm.named? (String.ofList name)).filter
      (fun f => valid.contains f.name) = none := by
    rw [Option.filter_eq_none_iff]
    intro form hform
    have hname : form.name = String.ofList name := by simpa using List.find?_some hform
    simpa using huntaken form (List.mem_of_find?_eq_some hform) hname
  rw [directive, h]
  simp only [hnone]
  exact (Leaves.warnAt _ _).bind (.pure none)

lemma directive_of_taken {name rest : List Char}
    (h : split? line.text.toList = some (name, rest)) {form : DirectiveForm}
    (hform : form ∈ DirectiveForm.all) (hname : form.name = String.ofList name)
    (hvalid : form.name ∈ valid) :
    Leaves (line.directive valid) (answer line.position form (arguments rest)) [] := by
  have hsome : (DirectiveForm.named? (String.ofList name)).filter
      (fun f => valid.contains f.name) = some form := by
    rw [← hname, DirectiveForm.named?_eq_some hform]
    simpa using hvalid
  rw [directive, h, answer]
  simp only [hsome]
  cases htakes : form.takes (arguments rest).words.length with
  | false => exact .throw _
  | true =>
      simp only [Bool.not_true, Bool.false_eq_true, if_false, if_true]
      cases form.read (arguments rest) with
      | error cause => exact .throw _
      | ok d => exact (Leaves.log _ _).bind (.pure (some d))

/-- The arguments that a line of some form has. -/
lemma arguments_rest (f : LineForm) :
    arguments f.rest = ⟨(words f.rest).map String.ofList,
      String.ofList (behindWord (trimEnd f.rest))⟩ := by
  obtain ⟨blanks, hblanks, hcut⟩ := exists_trimEnd f.rest
  have hwords := (hasWords_words (trimEnd f.rest)).append_blanks hblanks
  rw [hcut] at hwords
  rw [arguments, hwords.words_eq]

lemma isReadAs (f : LineForm) (hf : f.text = line.text.toList) : IsReadAs valid line f := by
  have hsplit : split? line.text.toList = some (f.name, f.rest) := hf ▸ f.split?_text
  refine ⟨directive_of_untaken hsplit, fun form hform hname hvalid => ?_,
    fun hname hvalid first others hwords hothers => ?_⟩
  · have hread := directive_of_taken hsplit hform hname hvalid
    rw [arguments_rest] at hread
    refine ⟨words f.rest, _, hasWords_words _, fun first others hwords hothers => ?_, hread⟩
    exact goesOn_behindWord f.rest_solid hothers (hasWords_iff.2 hwords)
  · have hliteral : DirectiveForm.named? "literal" = some ⟨"literal", 2, none, "<dst> <literal>",
        fun a => .ok (.literal (a.word 0) a.rest)⟩ := rfl
    have hread := directive_of_taken hsplit (List.mem_of_find?_eq_some hliteral) hname.symm hvalid
    obtain ⟨hgoes, hrest⟩ := goesOn_behindWord f.rest_solid hothers hwords
    refine ⟨_, hgoes, hrest, ?_⟩
    obtain ⟨second, others, rfl⟩ := List.exists_cons_of_ne_nil hothers
    rw [arguments_rest, hwords.words_eq] at hread
    exact hread

/-- **Which lines are malformed, and what all others are read as.** -/
theorem reading_exact (valid : List String) (line : Annotation) :
    ((∃ p text, (line.directive valid).outcome.value = .error (.malformed p text))
        ↔ ¬ ∃ f : LineForm, f.text = line.text.toList)
      ∧ ((¬ ∃ f : LineForm, f.text = line.text.toList) →
          Leaves (line.directive valid) (.error (.malformed line.position line.text)) [])
      ∧ ∀ f : LineForm, f.text = line.text.toList →
          (∀ g : LineForm, g.text = line.text.toList → f.Same g) ∧ IsReadAs valid line f := by
  have hmalformed : (¬ ∃ f : LineForm, f.text = line.text.toList) →
      Leaves (line.directive valid) (.error (.malformed line.position line.text)) [] := fun h =>
    directive_of_split?_none (LineForm.split?_eq_none_iff.2 h)
  refine ⟨⟨?_, fun h => ⟨_, _, (hmalformed h).value⟩⟩, hmalformed, fun f hf =>
    ⟨fun g hg => LineForm.same_of_text_eq (hf.trans hg.symm), isReadAs f hf⟩⟩
  rintro ⟨p, text, hvalue⟩ ⟨f, hf⟩
  have hread : IsReadAs valid line f := isReadAs f hf
  by_cases htaken : ∃ form ∈ DirectiveForm.all, form.name = String.ofList f.name
      ∧ form.name ∈ valid
  · obtain ⟨form, hform, hname, hvalid⟩ := htaken
    obtain ⟨ws, t, -, -, hleaves⟩ := hread.taken form hform hname hvalid
    have hanswer := hleaves.value.symm.trans hvalue
    rw [answer] at hanswer
    split at hanswer
    · split at hanswer <;> exact absurd hanswer (by simp)
    · exact absurd hanswer (by simp)
  · push Not at htaken
    exact absurd ((hread.untaken htaken).value.symm.trans hvalue) (by simp)

end Annotation

end FieldCopy
