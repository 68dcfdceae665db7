import Mathlib
import FieldCopy.Text.Blank

/-!
# Line ends

A text is cut into lines by a scan that keeps the line it is in.  What comes of it is told without
the scan: leave out the carriage returns in front of line feeds, and cut at the line feeds
(`splitOn_withLineFeeds`).
-/

namespace FieldCopy

namespace Text

lemma mem_closeLine {c : Char} {line : List Char} (h : c ∈ closeLine line) : c ∈ line := by
  unfold closeLine at h
  split at h
  · exact List.mem_cons_of_mem _ (List.mem_reverse.1 h)
  · exact List.mem_reverse.1 h

/-- A text without the carriage returns that stand in front of a line feed. -/
def withLineFeeds : List Char → List Char
  | [] => []
  | c :: rest =>
      if c = '\r' ∧ rest.head? = some '\n' then withLineFeeds rest else c :: withLineFeeds rest

lemma withLineFeeds_cons_of_ne {c d : Char} (h : d ≠ '\n') (rest : List Char) :
    withLineFeeds (c :: d :: rest) = c :: withLineFeeds (d :: rest) := by
  rw [withLineFeeds, if_neg fun hcr => h (Option.some.inj hcr.2)]

lemma withLineFeeds_lineFeed (rest : List Char) :
    withLineFeeds ('\n' :: rest) = '\n' :: withLineFeeds rest := by
  rw [withLineFeeds, if_neg (by simp)]

lemma closeLine_concat {line : List Char} (h : line ≠ []) (c : Char) :
    closeLine (line ++ [c]) = c :: closeLine line := by
  cases line with
  | nil => exact absurd rfl h
  | cons d line =>
      by_cases hd : d = '\r'
      · simp [closeLine, hd]
      · simp [closeLine, hd]

/-- A line and its end, whether or not a carriage return belongs to the end. -/
lemma withLineFeeds_line {line : List Char} (h : '\n' ∉ line) (rest : List Char) :
    withLineFeeds (line ++ '\n' :: rest)
      = closeLine line.reverse ++ '\n' :: withLineFeeds rest := by
  induction line with
  | nil => exact withLineFeeds_lineFeed rest
  | cons c line ih =>
      have ih := ih fun hmem => h (List.mem_cons_of_mem c hmem)
      cases line with
      | nil =>
          by_cases hc : c = '\r'
          · simp [withLineFeeds, closeLine, hc]
          · simp [withLineFeeds, closeLine, hc]
      | cons d line =>
          have hd : d ≠ '\n' := fun hd => h (by simp [hd])
          rw [List.cons_append, List.cons_append, withLineFeeds_cons_of_ne hd, ← List.cons_append,
            ih, List.reverse_cons (a := c), closeLine_concat (by simp), List.cons_append]

lemma withLineFeeds_of_notMem : ∀ {s : List Char}, '\n' ∉ s → withLineFeeds s = s
  | [], _ => rfl
  | c :: s, h => by
      have hs : '\n' ∉ s := fun hmem => h (List.mem_cons_of_mem c hmem)
      have hhead : s.head? ≠ some '\n' := fun hhead => hs (List.mem_of_mem_head? hhead)
      rw [withLineFeeds, if_neg fun hcr => hhead hcr.2, withLineFeeds_of_notMem hs]

/-- The lines that are read from a text are what stands between its line feeds, up to an empty line
at the end. -/
lemma splitOn_withLineFeeds : ∀ (current s : List Char), '\n' ∉ current →
    (withLineFeeds (current.reverse ++ s)).splitOn '\n'
      = linesFrom current s
        ++ if (current.reverse ++ s).getLast?.all (· == '\n') then [[]] else []
  | current, [], h => by
      have hreverse : '\n' ∉ current.reverse := by simpa using h
      rw [List.append_nil, withLineFeeds_of_notMem hreverse, List.splitOn_eq_singleton hreverse]
      cases current with
      | nil => rfl
      | cons c current =>
          have hc : c ≠ '\n' := fun hc => h (by simp [hc])
          simp [linesFrom, hc]
  | current, c :: s, h => by
      by_cases hc : c = '\n'
      · subst hc
        have hclose : '\n' ∉ closeLine current := fun hmem => h (mem_closeLine hmem)
        have ih := splitOn_withLineFeeds [] s List.not_mem_nil
        rw [withLineFeeds_line (by simpa using h), List.reverse_reverse,
          List.splitOn_append_cons_self_of_not_mem hclose]
        rw [List.reverse_nil, List.nil_append] at ih
        rw [ih, linesFrom, if_pos rfl, List.cons_append]
        cases s with
        | nil => simp
        | cons d s => rw [List.getLast?_append_cons, List.getLast?_cons_cons]
      · have ih := splitOn_withLineFeeds (c :: current) s (by simpa [Ne.symm hc] using h)
        rw [List.reverse_cons, List.append_assoc, List.singleton_append] at ih
        rw [ih, linesFrom, if_neg hc]

/-- Texts around a text without line feeds: it stands in one line, with the last line of what is in
front and the first line of what is behind. -/
lemma exists_splitOn_append {w : List Char} (hw : '\n' ∉ w) (y : List Char) : ∀ x : List Char,
    ∃ front p q back, x.splitOn '\n' = front ++ [p] ∧ y.splitOn '\n' = q :: back
      ∧ (x ++ w ++ y).splitOn '\n' = front ++ (p ++ w ++ q) :: back
  | [] => by
      obtain ⟨q, back, hy⟩ := List.exists_cons_of_ne_nil (List.splitOn_ne_nil '\n' y)
      refine ⟨[], [], q, back, rfl, hy, ?_⟩
      rw [List.nil_append, List.nil_append]
      induction w with
      | nil => exact hy
      | cons c w ih =>
          have ih := ih fun hmem => hw (List.mem_cons_of_mem c hmem)
          have hc : ¬ (c == '\n') = true := fun hc => hw (by simp [beq_iff_eq.1 hc])
          rw [List.cons_append, List.splitOn_cons_eq_if_modifyHead, if_neg hc, ih]
          rfl
  | c :: x => by
      obtain ⟨front, p, q, back, hx, hy, h⟩ := exists_splitOn_append hw y x
      rw [List.cons_append, List.cons_append, List.splitOn_cons_eq_if_modifyHead,
        List.splitOn_cons_eq_if_modifyHead, hx, h]
      by_cases hc : (c == '\n') = true
      · rw [if_pos hc, if_pos hc]
        exact ⟨[] :: front, p, q, back, rfl, hy, rfl⟩
      · rw [if_neg hc, if_neg hc]
        cases front with
        | nil => exact ⟨[], c :: p, q, back, rfl, hy, rfl⟩
        | cons l front => exact ⟨(c :: l) :: front, p, q, back, rfl, hy, rfl⟩

/-- Line ends stay what they are where a text is cut, except in the middle of a line end. -/
lemma withLineFeeds_append {y : List Char} : ∀ {x : List Char},
    (x.getLast? = some '\r' → y.head? ≠ some '\n') →
      withLineFeeds (x ++ y) = withLineFeeds x ++ withLineFeeds y
  | [], _ => rfl
  | [c], h => by
      by_cases hcr : c = '\r'
      · have hy := h (by rw [hcr, List.getLast?_singleton])
        simp [withLineFeeds, hcr, hy]
      · simp [withLineFeeds, hcr]
  | c :: d :: x, h => by
      have hstep : ∀ z, withLineFeeds (c :: d :: z)
          = if c = '\r' ∧ some d = some '\n' then withLineFeeds (d :: z)
            else c :: withLineFeeds (d :: z) := fun _ => rfl
      have ih := withLineFeeds_append (x := d :: x) (y := y) h
      rw [List.cons_append] at ih
      rw [List.cons_append, List.cons_append, hstep, hstep, ih]
      split <;> rfl

/-- The last character of a text, if it is no line feed, is the last character of its last line. -/
lemma getLast?_splitOn_withLineFeeds {c : Char} (hc : '\n' ∉ [c]) (s : List Char) :
    ∃ line, ((withLineFeeds (s ++ [c])).splitOn '\n').getLast? = some (line ++ [c]) := by
  have hhead : [c].head? ≠ some '\n' := fun h => hc (by simpa [eq_comm] using h)
  obtain ⟨front, p, q, back, -, hnil, h⟩ := exists_splitOn_append hc [] (withLineFeeds s)
  obtain ⟨rfl, rfl⟩ : [] = q ∧ [] = back := by simpa using hnil
  rw [List.append_nil, List.append_nil] at h
  refine ⟨p, ?_⟩
  rw [withLineFeeds_append fun _ => hhead, withLineFeeds_of_notMem hc, h]
  exact List.getLast?_concat

/-- A piece of a text without line feeds stands in one of its lines, if it does not end where a line
end can begin. -/
lemma exists_infix_line {w s : List Char} {c : Char} (hw : '\n' ∉ w ++ [c]) (hc : c ≠ '\r')
    (h : w ++ [c] <:+: s) : ∃ line ∈ (withLineFeeds s).splitOn '\n', w ++ [c] <:+: line := by
  obtain ⟨x, y, rfl⟩ := h
  have hhead : (w ++ [c]).head? ≠ some '\n' := fun h => hw (List.mem_of_mem_head? h)
  have hlast : (x ++ (w ++ [c])).getLast? ≠ some '\r' := by
    simpa [← List.append_assoc] using hc
  obtain ⟨front, p, q, back, -, -, h⟩ :=
    exists_splitOn_append hw (withLineFeeds y) (withLineFeeds x)
  rw [withLineFeeds_append fun hcr => absurd hcr hlast, withLineFeeds_append fun _ => hhead,
    withLineFeeds_of_notMem hw, h]
  exact ⟨_, List.mem_append_right _ List.mem_cons_self, p, q, rfl⟩

end Text

end FieldCopy
