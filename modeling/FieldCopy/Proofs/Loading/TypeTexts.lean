import Mathlib
import FieldCopy.Loading.Lowering
import FieldCopy.Proofs.Loading.Names
import FieldCopy.Proofs.TypeRecursion

/-!
# Texts of types that are no paths

A type that is not a path of names has a name with a mark in it: an ampersand for a reference, a
square bracket for a slice, an angle bracket for arguments, a parenthesis for a tuple.  So it cannot
be mistaken for a declared type.

**Compact texts.**  Nothing but spaces is lost when a text is made compact
(`TypeName.mem_compactFrom`), so the marks in the tokens of a type are in its name.

**Proper types.**  Trait objects, types that are known by their traits and all other types are kept
as written.  `Source.Ty.IsProper` asks that the text of such a type does not read as a path.
-/

namespace FieldCopy

open Source ModulePath

namespace Source

namespace TypeName

lemma mem_compactFrom {c : Char} (hc : c ≠ ' ') :
    ∀ {before : Option Char} {s : List Char}, c ∈ s → c ∈ compactFrom before s
  | _, d :: rest, h => by
      rw [compactFrom]
      rcases List.mem_cons.1 h with rfl | h
      · rw [if_neg hc]
        exact List.mem_cons_self
      · split
        · split
          · exact List.mem_cons_of_mem _ (mem_compactFrom hc h)
          · exact mem_compactFrom hc h
        · exact List.mem_cons_of_mem _ (mem_compactFrom hc h)

/-- **Nothing but spaces is lost.** -/
lemma mem_ofLexemes {c : Char} (hc : c ≠ ' ') {t : Lexeme} {ts : List Lexeme}
    (h : c ∈ t.textOne) : c ∈ (ofLexemes (t :: ts)).toList := by
  rw [ofLexemes, String.toList_ofList]
  refine mem_compactFrom hc ?_
  rw [Token.textAll]
  exact List.mem_append_left _ (List.mem_append_left _ h)

end TypeName

lemma not_reads_reference (l : Option String) (m : Bool) (t : Ty) :
    ¬ Reads (Ty.reference l m t).displayName := by
  refine not_reads_of_mem (c := '&') (by decide) (by decide) ?_
  have hmarks : Token.marks "&" = [.mark '&' false ()] := rfl
  simp only [Ty.displayName, Ty.shorten, Ty.lexemes, List.append_assoc, hmarks,
    List.singleton_append]
  exact TypeName.mem_ofLexemes (by decide) (List.mem_singleton_self _)

lemma not_reads_tuple (ts : List Ty) (trailing : Bool) :
    ¬ Reads (Ty.tuple ts trailing).displayName := by
  refine not_reads_of_mem (c := '(') (by decide) (by decide) ?_
  simp only [Ty.displayName, Ty.shorten, Ty.lexemes]
  refine TypeName.mem_ofLexemes (by decide) ?_
  rw [Token.textOne]
  exact List.mem_append_left _ (List.mem_append_left _ (List.mem_singleton_self _))

lemma not_reads_qualified (s : Ty) (d : Nat) (p : Path) :
    ¬ Reads (Ty.qualified s d p).displayName := by
  refine not_reads_of_mem (c := '<') (by decide) (by decide) ?_
  have hmarks : Token.marks "<" = [.mark '<' false ()] := rfl
  rw [Ty.displayName, Ty.shorten]
  cases p.shortenInner.shorten with
  | mk r segments =>
      simp only [Ty.lexemes, qualifiedLexemes, List.append_assoc, hmarks, List.singleton_append]
      exact TypeName.mem_ofLexemes (by decide) (List.mem_singleton_self _)

mutual

/-- No part of a type that is kept as written reads as a path. -/
def Ty.IsProper : Ty → Prop
  | .parenthesized t | .reference _ _ t | .slice t | .array t _ => t.IsProper
  | .path p => p.IsProper
  | .tuple _ _ | .qualified _ _ _ => True
  | .traitObject ps => ¬ Reads (Ty.traitObject ps).displayName
  | .implTrait ps => ¬ Reads (Ty.implTrait ps).displayName
  | .other ps => ¬ Reads (Ty.other ps).displayName

/-- The types in the arguments of a path are proper. -/
def Path.IsProper : Path → Prop
  | .mk _ segments => segmentsAreProper segments

/-- The types in the arguments of some names are proper. -/
def segmentsAreProper : List Segment → Prop
  | [] => True
  | s :: rest => s.IsProper ∧ segmentsAreProper rest

/-- The types in the arguments of a name are proper. -/
def Segment.IsProper : Segment → Prop
  | .mk _ (.angled _ items _) => argumentsAreProper items
  | .mk _ .none | .mk _ (.called _) => True

/-- The types among some arguments are proper. -/
def argumentsAreProper : List Argument → Prop
  | [] => True
  | a :: rest => a.IsProper ∧ argumentsAreProper rest

/-- The argument is a proper type or no type. -/
def Argument.IsProper : Argument → Prop
  | .type t => t.IsProper
  | .lifetime _ | .other _ => True

end

lemma segmentsAreProper_mem : ∀ {segments : List Segment}, segmentsAreProper segments →
    ∀ s ∈ segments, s.IsProper
  | [], _, _, hs => absurd hs List.not_mem_nil
  | _ :: _, h, s, hs => by
      rcases List.mem_cons.1 hs with rfl | hs
      · exact h.1
      · exact segmentsAreProper_mem h.2 s hs

lemma argumentsAreProper_mem : ∀ {items : List Argument}, argumentsAreProper items →
    ∀ a ∈ items, a.IsProper
  | [], _, _, ha => absurd ha List.not_mem_nil
  | _ :: _, h, a, ha => by
      rcases List.mem_cons.1 ha with rfl | ha
      · exact h.1
      · exact argumentsAreProper_mem h.2 a ha

lemma Segment.IsProper.types : ∀ {s : Segment}, s.IsProper → ∀ t ∈ s.arguments.types, t.IsProper
  | .mk _ (.angled _ _ _), h, _, ht => argumentsAreProper_mem h _ (Arguments.mem_types.1 ht)
  | .mk _ .none, _, _, ht | .mk _ (.called _), _, _, ht => absurd ht List.not_mem_nil

lemma Path.IsProper.types : ∀ {p : Path}, p.IsProper → ∀ s ∈ p.segments,
    ∀ t ∈ s.arguments.types, t.IsProper
  | .mk _ _, h, s, hs => (segmentsAreProper_mem h s hs).types

end Source

end FieldCopy
