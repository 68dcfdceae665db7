import Mathlib
import FieldCopy.Proofs.CodeTexts
import FieldCopy.Proofs.Propagation

/-!
# Failure in the text of a function

A failure shows in the lines of a body at two places: at the question marks and at the last line.

**Question marks.**  The text of a part of an expression is a piece of the text of the expression
(`Expression.infix_text`), so what a body propagates stands in one of its lines with a question mark
behind it (`Statement.exists_mem_linesAll_propagate`).

**The last line.**  No line in front of the end of a body ends in a bracket
(`Statement.getLast?_linesAll_ne`), so none can be taken for a value in `Ok`.
-/

namespace FieldCopy

/-! ## Expressions -/

namespace Expression

mutual

/-- The text of what stands inside an expression is a piece of its text. -/
lemma infix_text {d : Expression} : ∀ {e : Expression}, d ∈ e.parts →
    d.text.toList <:+: e.text.toList
  | .verbatim _, h => by
      rw [List.mem_singleton.1 h]
  | .member _ _, h => by
      rw [List.mem_singleton.1 h]
  | .reference mutable e, h => by
      rcases List.mem_cons.1 h with rfl | h
      · exact List.infix_rfl
      · rw [text, String.toList_append]
        exact (infix_text h).trans (List.suffix_append _ _).isInfix
  | .dereference e, h => by
      rcases List.mem_cons.1 h with rfl | h
      · exact List.infix_rfl
      · rw [text, String.toList_append]
        exact (infix_text h).trans (List.suffix_append _ _).isInfix
  | .call function arguments, h => by
      rcases List.mem_cons.1 h with rfl | h
      · exact List.infix_rfl
      · rw [text, String.toList_append, String.toList_append]
        exact (infix_argumentsText h).trans (List.infix_append _ _ _)
  | .methodCall e method arguments, h => by
      rcases List.mem_cons.1 h with rfl | h
      · exact List.infix_rfl
      rcases List.mem_append.1 h with h | h
      · simp only [text, String.toList_append, List.append_assoc]
        exact (infix_text h).trans (List.prefix_append _ _).isInfix
      · rw [text, String.toList_append, String.toList_append]
        exact (infix_argumentsText h).trans (List.infix_append _ _ _)
  | .cast e type, h => by
      rcases List.mem_cons.1 h with rfl | h
      · exact List.infix_rfl
      · simp only [text, String.toList_append, List.append_assoc]
        exact (infix_text h).trans (List.prefix_append _ _).isInfix
  | .propagate e, h => by
      rcases List.mem_cons.1 h with rfl | h
      · exact List.infix_rfl
      · rw [text, String.toList_append]
        exact (infix_text h).trans (List.prefix_append _ _).isInfix

lemma infix_argumentsText {d : Expression} : ∀ {es : List Expression}, d ∈ argumentsParts es →
    d.text.toList <:+: (argumentsText es).toList
  | [], h => absurd h List.not_mem_nil
  | [e], h => by
      rw [argumentsParts, argumentsParts, List.append_nil] at h
      exact infix_text h
  | e :: e' :: rest, h => by
      rw [argumentsParts] at h
      have htext : argumentsText (e :: e' :: rest)
          = e.text ++ ", " ++ argumentsText (e' :: rest) := rfl
      rw [htext]
      rcases List.mem_append.1 h with h | h
      · rw [String.toList_append, String.toList_append, List.append_assoc]
        exact (infix_text h).trans (List.prefix_append _ _).isInfix
      · rw [String.toList_append]
        exact (infix_argumentsText h).trans (List.suffix_append _ _).isInfix

end

end Expression

/-! ## Lines -/

namespace Lines

lemma exists_mem_ofText {w : List Char} {c : Char} {s : String} (hw : '\n' ∉ w ++ [c])
    (hc : c ≠ '\r') (h : w ++ [c] <:+: s.toList) : ∃ l ∈ ofText s, w ++ [c] <:+: l.toList := by
  obtain ⟨line, hline, hinfix⟩ := Text.exists_infix_line hw hc h
  rw [← fill_ofText s] at hline
  obtain ⟨l, hl, rfl⟩ := List.mem_map.1 hline
  exact ⟨l, hl, hinfix⟩

/-- The last line of a text ends as the text does. -/
lemma getLast?_ofText {s : String} {front : List Char} {c : Char} (hc : '\n' ∉ [c])
    (h : s.toList = front ++ [c]) :
    ∃ l, (ofText s).getLast? = some l ∧ l.toList.getLast? = some c := by
  obtain ⟨line, hline⟩ := Text.getLast?_splitOn_withLineFeeds hc front
  rw [← h, ← fill_ofText s, List.getLast?_map] at hline
  obtain ⟨l, hl, htext⟩ := Option.map_eq_some_iff.1 hline
  exact ⟨l, hl, by rw [htext, List.getLast?_concat]⟩

lemma infix_indentLine (l : String) : l.toList <:+: (indentLine l).toList := by
  rw [indentLine]
  split
  · exact List.infix_rfl
  · rw [String.toList_append]
    exact (List.suffix_append _ _).isInfix

end Lines

/-! ## Statements -/

namespace Statement

open Expression

mutual

/-- What stands inside a statement stands in one of its lines, if its text has no line of its own
to begin. -/
lemma exists_mem_lines {d : Expression} {w : List Char} {c : Char} (hd : d.text.toList = w ++ [c])
    (hw : '\n' ∉ w ++ [c]) (hc : c ≠ '\r') : ∀ {s : Statement}, d ∈ s.parts →
    ∃ l ∈ s.lines, w ++ [c] <:+: l.toList
  | .declare _ _ e, h => by
      refine Lines.exists_mem_ofText hw hc ?_
      rw [← hd]
      simp only [String.toList_append]
      exact (infix_text h).trans (List.infix_append _ _ _)
  | .assign target e, h => by
      refine Lines.exists_mem_ofText hw hc ?_
      rw [← hd]
      simp only [String.toList_append, List.append_assoc]
      rcases List.mem_append.1 h with h | h
      · exact (infix_text h).trans (List.prefix_append _ _).isInfix
      · rw [← List.append_assoc]
        exact (infix_text h).trans (List.infix_append' _ _ _)
  | .run e, h => by
      refine Lines.exists_mem_ofText hw hc ?_
      rw [← hd, String.toList_append]
      exact (infix_text h).trans (List.prefix_append _ _).isInfix
  | .loop item items body, h => by
      rcases List.mem_append.1 h with h | h
      · have hinfix : w ++ [c] <:+: ("for " ++ item ++ " in " ++ items.text ++ " \x7b").toList := by
          rw [← hd, String.toList_append, String.toList_append]
          exact (infix_text h).trans (List.infix_append _ _ _)
        obtain ⟨l, hl, hinfix⟩ := Lines.exists_mem_ofText hw hc hinfix
        exact ⟨l, by simp [lines, Lines.block, hl], hinfix⟩
      · obtain ⟨l, hl, hinfix⟩ := exists_mem_linesAll hd hw hc h
        refine ⟨Lines.indentLine l, ?_, hinfix.trans (Lines.infix_indentLine l)⟩
        have hindent := List.mem_map_of_mem (f := Lines.indentLine) hl
        simp [lines, Lines.block, Lines.indent, hindent]
  | .give e, h => by
      refine Lines.exists_mem_ofText hw hc ?_
      rw [← hd]
      exact infix_text h

lemma exists_mem_linesAll {d : Expression} {w : List Char} {c : Char}
    (hd : d.text.toList = w ++ [c]) (hw : '\n' ∉ w ++ [c]) (hc : c ≠ '\r') :
    ∀ {ss : List Statement}, d ∈ partsAll ss → ∃ l ∈ linesAll ss, w ++ [c] <:+: l.toList
  | s :: ss, h => by
      rcases List.mem_append.1 h with h | h
      · obtain ⟨l, hl, hinfix⟩ := exists_mem_lines hd hw hc h
        exact ⟨l, List.mem_append_left _ hl, hinfix⟩
      · obtain ⟨l, hl, hinfix⟩ := exists_mem_linesAll hd hw hc h
        exact ⟨l, List.mem_append_right _ hl, hinfix⟩

end

/-- **What a body propagates stands in one of its lines, with a question mark behind it.** -/
lemma exists_mem_linesAll_propagate {d : Expression} {t : String} {ss : List Statement}
    (h : propagate d ∈ partsAll ss) (ht : d.Reads t) (hline : '\n' ∉ t.toList) :
    ∃ l ∈ linesAll ss, (t ++ "?").toList <:+: l.toList := by
  have htext : (t ++ "?").toList = t.toList ++ ['?'] := String.toList_append
  have hd : (propagate d).text.toList = t.toList ++ ['?'] := by
    rw [← htext, Expression.reads_iff.1 ht]
    rfl
  rw [htext]
  exact exists_mem_linesAll hd (by simpa using hline) (by decide) h

/-- A statement that is not the value of the function, nor a comment that could look like it. -/
def IsInner : Statement → Prop
  | .give _ => False
  | .comment t => ∃ front c, t.toList = front ++ [c] ∧ c.isAlpha = true
  | _ => True

/-- The last line of an inner statement does not end in a bracket. -/
lemma IsInner.getLast?_lines {s : Statement} (h : s.IsInner) :
    ∃ l, s.lines.getLast? = some l ∧ l.toList.getLast? ≠ some ')' := by
  have hclosed : ∀ t : String, ∃ l, (Lines.ofText (t ++ ";")).getLast? = some l
      ∧ l.toList.getLast? ≠ some ')' := by
    intro t
    have htext : (t ++ ";").toList = t.toList ++ [';'] := String.toList_append
    obtain ⟨l, hl, hlast⟩ := Lines.getLast?_ofText (by decide) htext
    exact ⟨l, hl, by simp [hlast]⟩
  cases s with
  | declare mutable name e => exact hclosed _
  | assign target e => exact hclosed _
  | run e => exact hclosed _
  | comment t =>
      obtain ⟨front, c, ht, hc⟩ := h
      have hfeed : '\n' ∉ [c] := fun hmem => by
        rw [← List.mem_singleton.1 hmem] at hc
        exact absurd hc (by decide)
      obtain ⟨l, hl, hlast⟩ := Lines.getLast?_ofText (s := "// " ++ t) hfeed
        (by rw [String.toList_append, ht, ← List.append_assoc])
      refine ⟨l, hl, fun hbracket => ?_⟩
      rw [hlast, Option.some.injEq] at hbracket
      rw [hbracket] at hc
      exact absurd hc (by decide)
  | loop item items body =>
      exact ⟨"\x7d", by rw [lines, Lines.block, List.getLast?_concat], by decide⟩
  | give e => exact h.elim

/-- **No line of inner statements can be taken for a value in `Ok` at the end.** -/
lemma getLast?_linesAll_ne {ss : List Statement} (h : ∀ s ∈ ss, s.IsInner) (t : String) :
    (linesAll ss).getLast? ≠ some ("Ok(" ++ t ++ ")") := by
  rw [linesAll_eq]
  rcases List.eq_nil_or_concat ss with rfl | ⟨front, s, rfl⟩
  · simp
  · obtain ⟨l, hl, hbracket⟩ := (h s (by simp)).getLast?_lines
    rw [List.concat_eq_append, List.map_append, List.flatten_append, List.map_singleton,
      List.flatten_singleton, List.getLast?_append, hl, Option.some_or]
    rintro heq
    rw [Option.some.inj heq, String.toList_append] at hbracket
    exact hbracket List.getLast?_concat

/-- A body that gives a value ends with the lines of the value. -/
lemma getLast?_linesAll_give (ss : List Statement) (e : Expression) :
    (linesAll (ss ++ [.give e])).getLast? = (Lines.ofText e.text).getLast? := by
  have hne := (Lines.fill_ofText e.text).ne_nil
  rw [linesAll_eq, List.map_append, List.flatten_append, List.map_singleton,
    List.flatten_singleton, Statement.lines, List.getLast?_append_of_ne_nil _ hne]

end Statement

end FieldCopy
