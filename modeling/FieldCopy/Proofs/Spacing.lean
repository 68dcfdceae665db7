import Mathlib
import FieldCopy.Source.TypeName

/-!
# Removing spaces

`TypeName.compact` goes through a text once.  Whether a space stays is decided by the character that
was kept last, which may be one of the result only, and by the character that comes next, which is
one of the text.  What is stated here tells what this comes to for the text as a whole.

**Nothing but spaces is lost.**  The result is a part of the text in which every other character
still stands (`compactFrom_sublist`, `filter_compactFrom`).

**Neighbours decide.**  Behind a character that is no space nothing is left of what came before it,
so a text can be cut there (`compactFrom_cut`).  A space between two such characters stays or goes
by these two alone.

**Stability.**  Where no two spaces stand next to each other, the character behind a space is the
same in the text and in the result, so a second pass decides as the first did
(`compactFrom_compactFrom`).
-/

namespace FieldCopy.Source.TypeName

/-- No two spaces stand next to each other. -/
def SingleSpaced (s : List Char) : Prop := s.IsChain fun c d => c ≠ ' ' ∨ d ≠ ' '

variable {before : Option Char} {s : List Char}

lemma compactFrom_solid {c : Char} (hc : c ≠ ' ') (before : Option Char) (rest : List Char) :
    compactFrom before (c :: rest) = c :: compactFrom (some c) rest := by
  rw [compactFrom, if_neg hc]

lemma compactFrom_kept {rest : List Char} (h : keepsSpace before rest.head? = true) :
    compactFrom before (' ' :: rest) = ' ' :: compactFrom (some ' ') rest := by
  rw [compactFrom, if_pos rfl, if_pos h]

lemma compactFrom_dropped {rest : List Char} (h : keepsSpace before rest.head? = false) :
    compactFrom before (' ' :: rest) = compactFrom before rest := by
  rw [compactFrom, if_pos rfl, h, if_neg Bool.false_ne_true]

/-! ## Nothing but spaces is lost -/

lemma compactFrom_sublist (before : Option Char) (s : List Char) :
    (compactFrom before s).Sublist s := by
  induction s generalizing before with
  | nil => exact .slnil
  | cons c rest ih =>
      by_cases hc : c = ' '
      · subst hc
        cases h : keepsSpace before rest.head? with
        | true =>
            rw [compactFrom_kept h]
            exact (ih _).cons_cons ' '
        | false =>
            rw [compactFrom_dropped h]
            exact (ih _).cons ' '
      · rw [compactFrom_solid hc]
        exact (ih _).cons_cons c

lemma filter_compactFrom (before : Option Char) (s : List Char) :
    (compactFrom before s).filter (· ≠ ' ') = s.filter (· ≠ ' ') := by
  induction s generalizing before with
  | nil => rfl
  | cons c rest ih =>
      by_cases hc : c = ' '
      · subst hc
        rw [List.filter_cons_of_neg (by simp)]
        cases h : keepsSpace before rest.head? with
        | true => rw [compactFrom_kept h, List.filter_cons_of_neg (by simp), ih]
        | false => rw [compactFrom_dropped h, ih]
      · rw [compactFrom_solid hc, List.filter_cons_of_pos (by simpa using hc),
          List.filter_cons_of_pos (by simpa using hc), ih]

/-! ## Neighbours decide -/

/-- **A text can be cut behind a character that is no space**: what stands in front of the cut does
not hear of what follows, and what follows hears of this character alone. -/
lemma compactFrom_cut {a : Char} (ha : a ≠ ' ') (back : List Char) (before : Option Char)
    (front : List Char) :
    compactFrom before (front ++ a :: back)
      = compactFrom before (front ++ [a]) ++ compactFrom (some a) back := by
  induction front generalizing before with
  | nil =>
      rw [List.nil_append, List.nil_append, compactFrom_solid ha, compactFrom_solid ha]
      rfl
  | cons c front ih =>
      rw [List.cons_append, List.cons_append]
      by_cases hc : c = ' '
      · subst hc
        -- The character behind the space is the same on both sides of the equation.
        have hnext : (front ++ a :: back).head? = (front ++ [a]).head? := by
          cases front <;> rfl
        cases h : keepsSpace before (front ++ [a]).head? with
        | true =>
            rw [compactFrom_kept (hnext ▸ h), compactFrom_kept h, ih]
            rfl
        | false => rw [compactFrom_dropped (hnext ▸ h), compactFrom_dropped h, ih]
      · rw [compactFrom_solid hc, compactFrom_solid hc, ih]
        rfl

/-- A space in front of a character that is no space. -/
lemma compactFrom_space_solid {b : Char} (hb : b ≠ ' ') (before : Option Char) (back : List Char) :
    compactFrom before (' ' :: b :: back)
      = (if keepsSpace before (some b) then [' '] else []) ++ compactChars (b :: back) := by
  have hback : ∀ before, compactFrom before (b :: back) = compactChars (b :: back) := fun before =>
    (compactFrom_solid hb before back).trans (compactFrom_solid hb none back).symm
  cases h : keepsSpace before (some b) with
  | true =>
      rw [compactFrom_kept h, hback]
      rfl
  | false =>
      rw [compactFrom_dropped h, hback]
      rfl

/-! ## Stability -/

/-- The result goes on as the text does, unless that begins with a space. -/
lemma head?_compactFrom (hs : ∀ c ∈ s.head?, c ≠ ' ') (before : Option Char) :
    (compactFrom before s).head? = s.head? := by
  cases s with
  | nil => rfl
  | cons c rest =>
      rw [compactFrom_solid (hs c rfl)]
      rfl

lemma SingleSpaced.solid_of_space {rest : List Char} (h : SingleSpaced (' ' :: rest)) :
    ∀ c ∈ rest.head?, c ≠ ' ' := by
  intro c hc
  cases rest with
  | nil => exact absurd hc (by simp)
  | cons d rest =>
      obtain rfl : d = c := by simpa using hc
      exact ((List.isChain_cons_cons.1 h).1).resolve_left (by simp)

/-- **Where spaces are single, a second pass removes nothing.** -/
lemma compactFrom_compactFrom (before : Option Char) (hs : SingleSpaced s) :
    compactFrom before (compactFrom before s) = compactFrom before s := by
  induction s generalizing before with
  | nil => rfl
  | cons c rest ih =>
      have hrest : SingleSpaced rest := List.IsChain.tail hs
      by_cases hc : c = ' '
      · subst hc
        -- The second pass looks at the same two characters as the first.
        have hnext := fun before => head?_compactFrom hs.solid_of_space before
        cases h : keepsSpace before rest.head? with
        | true => rw [compactFrom_kept h, compactFrom_kept ((hnext _).symm ▸ h), ih _ hrest]
        | false => rw [compactFrom_dropped h, ih _ hrest]
      · rw [compactFrom_solid hc, compactFrom_solid hc, ih _ hrest]

/-- **Removing spaces is conservative and stable.**  The result is the text without some of its
spaces; where spaces are single a second removal changes nothing; and a space between two other
characters stays or goes by these two alone, whatever stands around them. -/
theorem compact_stable (s : String) :
    ((compact s).toList.Sublist s.toList
        ∧ (compact s).toList.filter (· ≠ ' ') = s.toList.filter (· ≠ ' '))
      ∧ (SingleSpaced s.toList → compact (compact s) = compact s)
      ∧ ∀ (front back : List Char) (a b : Char), a ≠ ' ' → b ≠ ' ' →
          s.toList = front ++ a :: ' ' :: b :: back →
          (compact s).toList = compactChars (front ++ [a])
            ++ ((if keepsSpace (some a) (some b) then [' '] else [])
              ++ compactChars (b :: back)) := by
  simp only [compact, String.toList_ofList]
  refine ⟨⟨compactFrom_sublist none _, filter_compactFrom none _⟩, fun hs => ?_,
    fun front back a b ha hb hcut => ?_⟩
  · exact congrArg String.ofList (compactFrom_compactFrom none hs)
  · calc compactChars s.toList
        = compactChars (front ++ [a]) ++ compactFrom (some a) (' ' :: b :: back) := by
          rw [hcut]
          exact compactFrom_cut ha _ none front
      _ = _ := by rw [compactFrom_space_solid hb]

/-- Two spaces in a row are neighbours of each other, so one of them can stay for a second pass. -/
example : compact "a  :" = "a :" ∧ compact (compact "a  :") = "a:" := by decide

end FieldCopy.Source.TypeName
