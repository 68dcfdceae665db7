import Mathlib
import FieldCopy.Catalog.ModulePath

/-!
# Texts in pieces

The functions that cut a text at a separator are bounded by fuel, which never runs out.  What is
stated here does not mention it.

**Cutting.**  `Text.cutAt_eq_some`: what is cut can be put together again.  `Text.cutAt_append`: a
text without the first character of the separator is cut off whole.

**Pieces.**  `Text.split_of_cutAt` is the recursion that `Text.split` stands for, and
`Text.intercalate_split` puts the pieces together.  The last of them are found again in the text
that they make up (`Text.split_intercalate_of_suffix`).

**Affixes.**  `Text.dropRepeated_append` and `Text.dropRepeated_of_not_prefix` are the two steps of
`Text.dropRepeated`; `Text.dropRepeatedEnd_append` is what they come to at the end of a text.
-/

namespace FieldCopy.Text

variable {separator affix : List Char}

lemma isPrefixOf?_append : ∀ affix rest : List Char, affix.isPrefixOf? (affix ++ rest) = some rest
  | [], _ => rfl
  | c :: affix, rest => by simp [List.isPrefixOf?, isPrefixOf?_append affix rest]

lemma isPrefixOf?_eq_none {s : List Char} (h : ¬ affix <+: s) : affix.isPrefixOf? s = none := by
  cases hp : affix.isPrefixOf? s with
  | none => rfl
  | some rest => exact absurd ⟨rest, List.append_eq_of_isPrefixOf?_eq_some hp⟩ h

/-! ## Cutting -/

lemma cutAt_eq_some : ∀ {s before after : List Char},
    cutAt separator s = some (before, after) → s = before ++ separator ++ after
  | [], _, _, h => by simp [cutAt] at h
  | c :: rest, before, after, h => by
      rw [cutAt] at h
      cases hp : separator.isPrefixOf? (c :: rest) with
      | some tail =>
          simp only [hp, Option.some.injEq, Prod.mk.injEq] at h
          obtain ⟨rfl, rfl⟩ := h
          exact (List.append_eq_of_isPrefixOf?_eq_some hp).symm
      | none =>
          simp only [hp, Option.map_eq_some_iff, Prod.mk.injEq] at h
          obtain ⟨⟨b, a⟩, hcut, rfl, rfl⟩ := h
          rw [cutAt_eq_some hcut]
          rfl

/-- A text without the first character of the separator is cut off whole. -/
lemma cutAt_append {c : Char} {tail : List Char} :
    ∀ {before : List Char}, c ∉ before → ∀ after,
      cutAt (c :: tail) (before ++ (c :: tail) ++ after) = some (before, after)
  | [], _, after => by
      rw [List.nil_append, List.cons_append, cutAt, ← List.cons_append, isPrefixOf?_append]
  | d :: before, h, after => by
      rw [List.mem_cons, not_or] at h
      have hprefix : ¬ (c :: tail) <+: d :: (before ++ (c :: tail) ++ after) := by
        intro hp
        exact h.1 (List.cons_prefix_cons.1 hp).1
      rw [List.cons_append, List.cons_append, cutAt, isPrefixOf?_eq_none hprefix,
        cutAt_append h.2 after]
      rfl

/-- There is nothing to cut in a text without the first character of the separator. -/
lemma cutAt_eq_none {c : Char} {tail : List Char} :
    ∀ {s : List Char}, c ∉ s → cutAt (c :: tail) s = none
  | [], _ => rfl
  | d :: s, h => by
      rw [List.mem_cons, not_or] at h
      have hprefix : ¬ (c :: tail) <+: d :: s := by
        intro hp
        exact h.1 (List.cons_prefix_cons.1 hp).1
      rw [cutAt, isPrefixOf?_eq_none hprefix, cutAt_eq_none h.2]
      rfl

/-! ## Pieces -/

lemma length_of_cutAt (hseparator : separator ≠ []) {s before after : List Char}
    (h : cutAt separator s = some (before, after)) : after.length < s.length := by
  have hpos : 0 < separator.length := List.length_pos_iff.2 hseparator
  rw [cutAt_eq_some h, List.length_append, List.length_append]
  omega

/-- The fuel does not run out. -/
lemma splitFuel_eq (hseparator : separator ≠ []) :
    ∀ (n m : Nat) (s : List Char), s.length ≤ n → s.length ≤ m →
      splitFuel separator n s = splitFuel separator m s
  | 0, m, s, hn, _ => by
      have hs : s = [] := List.length_eq_zero_iff.1 (Nat.le_zero.1 hn)
      subst hs
      cases m <;> rfl
  | n + 1, 0, s, _, hm => by
      have hs : s = [] := List.length_eq_zero_iff.1 (Nat.le_zero.1 hm)
      subst hs
      rfl
  | n + 1, m + 1, s, hn, hm => by
      rw [splitFuel, splitFuel]
      cases hcut : cutAt separator s with
      | none => rfl
      | some pair =>
          have hlength := length_of_cutAt hseparator hcut
          simp only
          rw [splitFuel_eq hseparator n m pair.2 (by omega) (by omega)]

lemma split_of_cutAt (hseparator : separator ≠ []) {s before after : List Char}
    (h : cutAt separator s = some (before, after)) :
    split separator s = before :: split separator after := by
  have hlength := length_of_cutAt hseparator h
  cases hs : s.length with
  | zero => omega
  | succ n =>
      rw [split, hs, splitFuel, h, split]
      simp only
      rw [splitFuel_eq hseparator n after.length after (by omega) (Nat.le_refl _)]

lemma split_of_cutAt_none {s : List Char} (h : cutAt separator s = none) :
    split separator s = [s] := by
  rw [split]
  cases s.length with
  | zero => rfl
  | succ n => rw [splitFuel, h]

lemma split_ne_nil (separator s : List Char) : split separator s ≠ [] := by
  rw [split]
  cases s.length with
  | zero => exact List.cons_ne_nil _ _
  | succ n =>
      rw [splitFuel]
      cases cutAt separator s <;> exact List.cons_ne_nil _ _

/-- **The pieces make up the text.** -/
lemma intercalate_split (hseparator : separator ≠ []) (s : List Char) :
    separator.intercalate (split separator s) = s := by
  cases h : cutAt separator s with
  | none => rw [split_of_cutAt_none h, List.intercalate_singleton]
  | some pair =>
      have hlength := length_of_cutAt hseparator h
      rw [split_of_cutAt hseparator h,
        List.intercalate_cons_of_ne_nil (split_ne_nil separator pair.2),
        intercalate_split hseparator pair.2, ← cutAt_eq_some h]
  termination_by s.length

/-- **Pieces without the first character of the separator are found again.** -/
lemma split_intercalate {c : Char} {tail : List Char} :
    ∀ {pieces : List (List Char)}, pieces ≠ [] → (∀ p ∈ pieces, c ∉ p) →
      split (c :: tail) ((c :: tail).intercalate pieces) = pieces
  | [], h, _ => absurd rfl h
  | [p], _, h => by
      rw [List.intercalate_singleton, split_of_cutAt_none (cutAt_eq_none (h p List.mem_cons_self))]
  | p :: q :: rest, _, h => by
      have hp : c ∉ p := h p List.mem_cons_self
      rw [List.intercalate_cons_cons,
        split_of_cutAt (List.cons_ne_nil c tail) (cutAt_append hp _),
        split_intercalate (List.cons_ne_nil q rest) fun r hr => h r (List.mem_cons_of_mem _ hr)]

/-- **The last pieces of a text are found again** in the text that they make up. -/
lemma split_intercalate_of_suffix (hseparator : separator ≠ []) {pieces : List (List Char)}
    (hne : pieces ≠ []) {s : List Char} (h : pieces <:+ split separator s) :
    split separator (separator.intercalate pieces) = pieces := by
  cases hcut : cutAt separator s with
  | none =>
      rw [split_of_cutAt_none hcut, List.suffix_cons_iff, List.suffix_nil] at h
      obtain rfl := h.resolve_right hne
      rw [List.intercalate_singleton, split_of_cutAt_none hcut]
  | some pair =>
      have hlength := length_of_cutAt hseparator hcut
      rw [split_of_cutAt hseparator hcut, List.suffix_cons_iff] at h
      rcases h with rfl | h
      · rw [← split_of_cutAt hseparator hcut, intercalate_split hseparator]
      · exact split_intercalate_of_suffix hseparator hne h
  termination_by s.length

/-! ## Affixes -/

lemma dropRepeatedFuel_eq (haffix : affix ≠ []) :
    ∀ (n m : Nat) (s : List Char), s.length ≤ n → s.length ≤ m →
      dropRepeatedFuel affix n s = dropRepeatedFuel affix m s
  | 0, m, s, hn, _ => by
      have hs : s = [] := List.length_eq_zero_iff.1 (Nat.le_zero.1 hn)
      subst hs
      cases m with
      | zero => rfl
      | succ m =>
          have hprefix : ¬ affix <+: [] := fun h => haffix (List.prefix_nil.1 h)
          rw [dropRepeatedFuel, dropRepeatedFuel, isPrefixOf?_eq_none hprefix]
  | n + 1, 0, s, hn, hm => (dropRepeatedFuel_eq haffix 0 (n + 1) s hm hn).symm
  | n + 1, m + 1, s, hn, hm => by
      rw [dropRepeatedFuel, dropRepeatedFuel]
      cases hp : affix.isPrefixOf? s with
      | none => rfl
      | some rest =>
          have hpos : 0 < affix.length := List.length_pos_iff.2 haffix
          have hs := congrArg List.length (List.append_eq_of_isPrefixOf?_eq_some hp)
          rw [List.length_append] at hs
          exact dropRepeatedFuel_eq haffix n m rest (by omega) (by omega)

lemma dropRepeated_append (haffix : affix ≠ []) (rest : List Char) :
    dropRepeated affix (affix ++ rest) = dropRepeated affix rest := by
  have hpos : 0 < affix.length := List.length_pos_iff.2 haffix
  have hfalse : affix.isEmpty = false := by simpa using haffix
  rw [dropRepeated, dropRepeated, hfalse]
  simp only [Bool.false_eq_true, if_false]
  cases hn : (affix ++ rest).length with
  | zero => rw [List.length_append] at hn; omega
  | succ n =>
      rw [List.length_append] at hn
      rw [dropRepeatedFuel, isPrefixOf?_append]
      exact dropRepeatedFuel_eq haffix n rest.length rest (by omega) (Nat.le_refl _)

lemma dropRepeated_of_not_prefix {s : List Char} (h : ¬ affix <+: s) :
    dropRepeated affix s = s := by
  rw [dropRepeated]
  split
  · rfl
  · cases s.length with
    | zero => rfl
    | succ n => rw [dropRepeatedFuel, isPrefixOf?_eq_none h]

/-- An affix that stands once at the end of a text is removed. -/
lemma dropRepeatedEnd_append (haffix : affix ≠ []) {s : List Char} (h : ¬ affix <:+ s) :
    dropRepeatedEnd affix (s ++ affix) = s := by
  have hprefix : ¬ affix.reverse <+: s.reverse := fun hp => h (List.reverse_prefix.1 hp)
  rw [dropRepeatedEnd, List.reverse_append,
    dropRepeated_append (fun he => haffix (List.reverse_eq_nil_iff.1 he)),
    dropRepeated_of_not_prefix hprefix, List.reverse_reverse]

end FieldCopy.Text
