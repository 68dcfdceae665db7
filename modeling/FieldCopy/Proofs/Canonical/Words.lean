import Mathlib
import FieldCopy.Proofs.Canonical.Scanning

/-!
# Words of a text

Whatever the scan of a text takes for a word is one: scanned on its own, it is this word and nothing
else (`Token.Worded`).

**Leaves.**  A step of the scan gives no leaf with something else in the place of a word
(`Scan.worded_step`), so all leaves of a text are worded.

**Trees.**  Putting leaves into groups leaves words as they are (`Leaf.worded_nestFrom`).

**Main statement.**  `Token.worded_scan?`.
-/

namespace FieldCopy.Source

/-- Whatever stands for a word in a token is a word. -/
inductive Token.Worded : Token Place → Prop where
  | word {w : String} (p : Place) (hw : IsWord w) : Worded (.word w p)
  | mark (c : Char) (joint : Bool) (p : Place) : Worded (.mark c joint p)
  | literal (d : String) (p : Place) : Worded (.literal d p)
  | group (d : Delimiter) {inner : Tokens} (p : Place) (h : ∀ t ∈ inner, t.Worded) :
      Worded (.group d inner p)

/-- Whatever stands for a word in these tokens is a word. -/
abbrev AllWorded (ts : Tokens) : Prop := ∀ t ∈ ts, t.Worded

namespace AllWorded

variable {t : Token Place} {ts : Tokens}

lemma head (h : AllWorded (t :: ts)) : t.Worded := h t List.mem_cons_self

lemma tail (h : AllWorded (t :: ts)) : AllWorded ts :=
  fun t' ht' => h t' (List.mem_cons_of_mem _ ht')

lemma drop (h : AllWorded ts) (n : Nat) : AllWorded (ts.drop n) := fun t ht =>
  h t (List.mem_of_mem_drop ht)

/-- What a word token says is a word. -/
lemma isWord {w : String} {p : Place} (h : AllWorded (.word w p :: ts)) : IsWord w := by
  cases h.head with
  | word _ hw => exact hw

/-- What is in a group is worded. -/
lemma inner {d : Delimiter} {inner : Tokens} {p : Place} (h : AllWorded (.group d inner p :: ts)) :
    AllWorded inner := by
  cases h.head with
  | group _ _ hinner => exact hinner

end AllWorded

/-! ## Groups -/

namespace Leaf

/-- What stands for a word in a leaf is a word. -/
def Worded : Leaf → Prop
  | .token t => t.Worded
  | .opening _ _ | .closing _ => True

/-- **Grouping leaves words as they are.** -/
lemma worded_nestFrom {leaves : List Leaf} (hleaves : ∀ l ∈ leaves, l.Worded) :
    ∀ {outer : List (Delimiter × Place × Tokens)} {level ts : Tokens},
      (∀ o ∈ outer, AllWorded o.2.2) → AllWorded level →
      nestFrom outer level leaves = some ts → AllWorded ts := by
  induction leaves with
  | nil =>
      intro outer level ts _ hlevel h
      rw [nestFrom] at h
      split at h
      · obtain rfl := Option.some.inj h
        exact fun t ht => hlevel t (List.mem_reverse.1 ht)
      · exact absurd h (by simp)
  | cons l leaves ih =>
      intro outer level ts houter hlevel h
      obtain ⟨hl, hrest⟩ := List.forall_mem_cons.1 hleaves
      cases l with
      | token t =>
          rw [nestFrom] at h
          exact ih hrest houter (List.forall_mem_cons.2 ⟨hl, hlevel⟩) h
      | opening d p =>
          rw [nestFrom] at h
          exact ih hrest (List.forall_mem_cons.2 ⟨hlevel, houter⟩) (List.forall_mem_nil _) h
      | closing d =>
          cases outer with
          | nil => exact absurd h (by simp [nestFrom])
          | cons o outer =>
              obtain ⟨hbefore, hothers⟩ := List.forall_mem_cons.1 houter
              obtain ⟨d', p, before⟩ := o
              rw [nestFrom] at h
              split at h
              · refine ih hrest hothers (List.forall_mem_cons.2 ⟨?_, hbefore⟩) h
                exact .group d p fun t ht => hlevel t (List.mem_reverse.1 ht)
              · exact absurd h (by simp)

end Leaf

/-! ## Leaves -/

namespace Scan

/-- What a table says of a character can be read from the characters of its text. -/
lemma contains_ofText {text : String} {chars : List Char} (htext : text = String.ofList chars)
    {c : Char} {b : Bool}
    (h : CharSet.contains ⟨((chars.splitOnP fun c => c = ' ' || c = '\n').filter
      fun e => !e.isEmpty).map CharSet.entry⟩ c = b) : (CharSet.ofText text).contains c = b := by
  subst htext
  rw [CharSet.ofText, String.toList_ofList]
  exact h

set_option maxRecDepth 100000 in
/-- No identifier begins with a byte order mark. -/
lemma not_start_mark : isIdentifierStart '\ufeff' = false := by
  have htable : identifierStarts.contains '\ufeff' = false := by
    unfold identifierStarts
    refine contains_ofText rfl ?_
    decide +kernel
  rw [isIdentifierStart, htable]
  rfl

lemma identifier?_front {s n rest : List Char} (h : identifier? s = some (n, rest)) :
    ∃ c tail, n = c :: tail ∧ isIdentifierStart c = true
      ∧ (∀ d ∈ tail, isIdentifierPart d = true) ∧ s.head? = some c := by
  cases s with
  | nil => exact absurd h (by simp [identifier?])
  | cons c s =>
      rw [identifier?, List.span_eq_takeWhile_dropWhile] at h
      split at h
      · rename_i hc
        obtain ⟨rfl, rfl⟩ := Prod.mk.inj (Option.some.inj h)
        exact ⟨c, _, rfl, hc, fun d hd => List.mem_takeWhile_imp hd, rfl⟩
      · exact absurd h (by simp)

/-- An identifier is scanned on its own. -/
lemma identifier?_self {c : Char} {tail : List Char} (hc : isIdentifierStart c = true)
    (htail : ∀ d ∈ tail, isIdentifierPart d = true) :
    identifier? (c :: tail) = some (c :: tail, []) := by
  rw [identifier?, if_pos hc, List.span_eq_takeWhile_dropWhile,
    List.takeWhile_eq_self_iff.2 htail, List.dropWhile_eq_nil_iff.2 htail]

/-- An identifier is no raw one. -/
lemma name?_eq_identifier? {c : Char} {tail : List Char}
    (htail : ∀ d ∈ tail, isIdentifierPart d = true) :
    name? (c :: tail) = identifier? (c :: tail) := by
  rw [name?]
  intro rest h
  obtain ⟨-, rfl⟩ := List.cons.inj h
  exact absurd (htail '#' List.mem_cons_self) (by decide)

/-- **A name at the front of a text is a word.** -/
lemma isWord_of_name? {c : Char} {s n rest : List Char} (hc : isSeparator c = false)
    (h : name? (c :: s) = some (n, rest)) : IsWord (String.ofList n) := by
  unfold name? at h
  split at h
  · rename_i s' hs
    obtain ⟨rfl, rfl⟩ := List.cons.inj hs
    split at h
    · rename_i m after hm
      split at h
      · exact absurd h (by simp)
      · rename_i hraw
        obtain ⟨rfl, rfl⟩ := Prod.mk.inj (Option.some.inj h)
        obtain ⟨d, tail, rfl, hd, htail, -⟩ := identifier?_front hm
        refine ⟨?_, ?_⟩
        · rw [String.toList_ofList, name?, identifier?_self hd htail]
          simp only [hraw, Bool.false_eq_true, if_false]
        · rw [String.toList_ofList]
          rintro _ ⟨⟩
          exact ⟨rfl, by decide⟩
    · exact absurd h (by simp)
  · obtain ⟨d, tail, rfl, hd, htail, hhead⟩ := identifier?_front h
    obtain rfl : c = d := Option.some.inj hhead
    refine ⟨?_, ?_⟩
    · rw [String.toList_ofList, name?_eq_identifier? htail, identifier?_self hd htail]
    · rw [String.toList_ofList]
      rintro _ ⟨⟩
      exact ⟨hc, start_ne hd not_start_mark⟩

/-- A text that is scanned as a name is a word. -/
lemma isWord_ofList {c : Char} {s : List Char} (hc : isSeparator c = false)
    (h : name? (c :: s) = some (c :: s, [])) : IsWord (String.ofList (c :: s)) :=
  isWord_of_name? hc h

/-- A documentation comment has one word. -/
lemma worded_documentation (d : Documentation) (p : Place) :
    ∀ l ∈ documentationLeaves d p, l.Worded := by
  have hdoc : IsWord (String.ofList ['d', 'o', 'c']) := isWord_ofList rfl rfl
  intro l hl
  cases hinner : d.isInner <;>
  · simp only [documentationLeaves, hinner, if_true, Bool.false_eq_true, if_false, List.mem_append,
      List.mem_cons, List.not_mem_nil, or_false] at hl
    rcases hl with (rfl | rfl) | rfl | rfl | rfl | rfl | rfl <;>
      first | exact .word p hdoc | exact .mark _ _ p | exact .literal _ p | trivial

/-- **A step of the scan gives words for words.** -/
lemma worded_step {p : Place} {c : Char} {s rest : List Char} {found : List Leaf}
    (hc : isSeparator c = false) (h : step p (c :: s) = some (found, rest)) :
    ∀ l ∈ found, l.Worded := by
  unfold step at h
  split at h
  · rename_i d _
    split at h
    · obtain ⟨rfl, -⟩ := Prod.mk.inj (Option.some.inj h)
      exact worded_documentation d p
    · exact absurd h (by simp)
  · split at h
    case h_7 =>
      split at h
      · obtain ⟨rfl, -⟩ := Prod.mk.inj (Option.some.inj h)
        exact List.forall_mem_singleton.2 (.literal _ p)
      · split at h
        · obtain ⟨rfl, -⟩ := Prod.mk.inj (Option.some.inj h)
          exact List.forall_mem_singleton.2 (.mark _ _ p)
        · split at h
          · exact absurd h (by simp)
          · obtain ⟨⟨n, after⟩, hname, h⟩ := Option.map_eq_some_iff.1 h
            obtain ⟨rfl, -⟩ := Prod.mk.inj h
            exact List.forall_mem_singleton.2 (.word p (isWord_of_name? hc hname))
    all_goals
      obtain ⟨rfl, -⟩ := Prod.mk.inj (Option.some.inj h)
      exact List.forall_mem_singleton.2 trivial

lemma worded_leavesFuel : ∀ {n : Nat} {p : Place} {s : List Char} {leaves : List Leaf},
    leavesFuel n p s = some leaves → ∀ l ∈ leaves, l.Worded
  | 0, p, s, leaves, h => by
      rw [leavesFuel] at h
      split at h
      · obtain rfl := Option.some.inj h
        simp
      · exact absurd h (by simp)
  | n + 1, p, [], leaves, h => by
      obtain rfl := Option.some.inj h
      simp
  | n + 1, p, c :: s, leaves, h => by
      rw [leavesFuel] at h
      split at h
      · exact worded_leavesFuel h
      · split at h
        · exact worded_leavesFuel h
        · rename_i hc
          obtain ⟨⟨found, after⟩, hstep, h⟩ := Option.bind_eq_some_iff.1 h
          obtain ⟨others, hothers, h⟩ := Option.bind_eq_some_iff.1 h
          obtain rfl := Option.some.inj h
          intro l hl
          rcases List.mem_append.1 hl with hl | hl
          · exact worded_step (by simpa using hc) hstep l hl
          · exact worded_leavesFuel hothers l hl

lemma worded_leaves {s : List Char} {ls : List Leaf} (h : leaves s = some ls) :
    ∀ l ∈ ls, l.Worded := by
  unfold leaves at h
  split at h <;> exact worded_leavesFuel h

end Scan

/-- **The words of a text are words.** -/
theorem Token.worded_scan? {s : List Char} {ts : Tokens} (h : Token.scan? s = some ts) :
    AllWorded ts := by
  obtain ⟨leaves, hleaves, hnest⟩ := Option.bind_eq_some_iff.1 h
  exact Leaf.worded_nestFrom (Scan.worded_leaves hleaves) (List.forall_mem_nil _)
    (List.forall_mem_nil _) hnest

end FieldCopy.Source
