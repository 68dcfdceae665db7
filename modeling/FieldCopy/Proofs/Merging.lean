import Mathlib
import FieldCopy.Diagnostic

/-!
# Merging diagnostics

The diagnostics of a file come from many collectors, each of which was filled while one trait or
one method was processed.  Collectors absorb each other, and in the end the entries are sorted.

**Sorting.**  Positions are ordered by file, line and column (`Position.key`).  The sorted list has
the entries that were recorded, in the order of their positions, and at one position in the order in
which they were recorded (`Diagnostic.listed_sorted`).  There is no other such list
(`Diagnostic.Listed.unique`), so all that counts is what was recorded at each position, in which
order.

**Merging.**  A collector that absorbs others has their entries behind its own, however deep they
were absorbed in their turn (`Merging.entries_merged`).  If no position occurs in two of them, what
is recorded at a position is what one of them recorded there, and neither the order nor the grouping
in which they are merged can be seen in the end (`Merging.sorted_eq`).
-/

namespace FieldCopy

/-! ## The order of positions -/

namespace Position

/-- File, line and column in lexicographic order. -/
def key (p : Position) : String ×ₗ ℕ ×ₗ ℕ := toLex (p.file, toLex (p.line, p.column))

lemma le_iff_key {p q : Position} : p.le q = true ↔ p.key ≤ q.key := by
  rw [key, key, Prod.Lex.toLex_le_toLex, Prod.Lex.toLex_le_toLex, le]
  split_ifs with hfile hline
  · simp [hfile, hline]
  · simp [hfile, hline]
  · simp [hfile]

lemma key_injective : Function.Injective key := by
  intro p q h
  obtain ⟨hfile, hinner⟩ := Prod.mk.inj (toLex_inj.1 h)
  obtain ⟨hline, hcolumn⟩ := Prod.mk.inj (toLex_inj.1 hinner)
  cases p
  cases q
  simp_all

lemma le_trans {p q r : Position} (hpq : p.le q = true) (hqr : q.le r = true) :
    p.le r = true :=
  le_iff_key.2 ((le_iff_key.1 hpq).trans (le_iff_key.1 hqr))

lemma le_or_ge (p q : Position) : (p.le q || q.le p) = true := by
  rw [Bool.or_eq_true, le_iff_key, le_iff_key]
  exact le_total p.key q.key

end Position

/-! ## Sorted diagnostics -/

namespace Diagnostic

/-- The diagnostics at a position, in order. -/
def standingAt (p : Position) (ds : List Diagnostic) : List Diagnostic :=
  ds.filter fun d => d.position = p

/-- What was recorded is listed by position, and at one position in the order in which it was
recorded. -/
structure Listed (recorded listed : List Diagnostic) : Prop where
  perm : listed.Perm recorded
  ordered : listed.Pairwise fun a b => a.position.key ≤ b.position.key
  stable : ∀ p, standingAt p listed = standingAt p recorded

lemma standingAt_append (p : Position) (a b : List Diagnostic) :
    standingAt p (a ++ b) = standingAt p a ++ standingAt p b := List.filter_append ..

lemma standingAt_cons_self (d : Diagnostic) (ds : List Diagnostic) :
    standingAt d.position (d :: ds) = d :: standingAt d.position ds :=
  List.filter_cons_of_pos (decide_eq_true rfl)

lemma standingAt_cons_of_ne {p : Position} {d : Diagnostic} (h : d.position ≠ p)
    (ds : List Diagnostic) : standingAt p (d :: ds) = standingAt p ds :=
  List.filter_cons_of_neg (by simpa using h)

lemma mem_standingAt {p : Position} {d : Diagnostic} {ds : List Diagnostic} :
    d ∈ standingAt p ds ↔ d ∈ ds ∧ d.position = p := by
  rw [standingAt, List.mem_filter, decide_eq_true_iff]

/-- **Sorting lists what was recorded.** -/
theorem listed_sorted (ds : List Diagnostic) : Listed ds (sorted ds) := by
  have htrans : ∀ a b c : Diagnostic, a.position.le b.position = true →
      b.position.le c.position = true → a.position.le c.position = true :=
    fun _ _ _ => Position.le_trans
  have htotal : ∀ a b : Diagnostic, (a.position.le b.position || b.position.le a.position) = true :=
    fun _ _ => Position.le_or_ge _ _
  refine ⟨sorted_perm ds, ?_, fun p => ?_⟩
  · exact (List.pairwise_mergeSort htrans htotal ds).imp Position.le_iff_key.1
  · -- Diagnostics at one position are in order as they are, so sorting leaves them in this order.
    have hordered : (standingAt p ds).Pairwise fun a b => a.position.le b.position = true := by
      refine List.pairwise_of_forall_mem_list fun a ha b hb => ?_
      rw [(mem_standingAt.1 ha).2, (mem_standingAt.1 hb).2]
      exact p.le_refl
    have hkept : (standingAt p ds).Sublist (sorted ds) :=
      List.sublist_mergeSort htrans htotal hordered List.filter_sublist
    have hsublist : (standingAt p ds).Sublist (standingAt p (sorted ds)) := by
      have h := hkept.filter fun d : Diagnostic => d.position = p
      simpa only [standingAt, List.filter_filter, Bool.and_self] using h
    have hlength : (standingAt p (sorted ds)).length = (standingAt p ds).length :=
      ((sorted_perm ds).filter _).length_eq
    exact (hsublist.eq_of_length hlength.symm).symm

/-- Two lists in order that agree at every position are the same. -/
lemma eq_of_standingAt {a b : List Diagnostic}
    (ha : a.Pairwise fun d e => d.position.key ≤ e.position.key)
    (hb : b.Pairwise fun d e => d.position.key ≤ e.position.key)
    (h : ∀ p, standingAt p a = standingAt p b) : a = b := by
  induction a generalizing b with
  | nil =>
      cases b with
      | nil => rfl
      | cons e b =>
          have he := h e.position
          rw [standingAt_cons_self] at he
          exact absurd he (by simp [standingAt])
  | cons d a ih =>
      cases b with
      | nil =>
          have hd := h d.position
          rw [standingAt_cons_self] at hd
          exact absurd hd (by simp [standingAt])
      | cons e b =>
          obtain ⟨hfirst, hrest⟩ := List.pairwise_cons.1 ha
          obtain ⟨hfirst', hrest'⟩ := List.pairwise_cons.1 hb
          -- Each of the two first entries is in the other list, so neither comes behind the other.
          have hd : d ∈ e :: b := by
            have hmem : d ∈ standingAt d.position (e :: b) := by
              rw [← h d.position, standingAt_cons_self]
              exact List.mem_cons_self
            exact (mem_standingAt.1 hmem).1
          have he : e ∈ d :: a := by
            have hmem : e ∈ standingAt e.position (d :: a) := by
              rw [h e.position, standingAt_cons_self]
              exact List.mem_cons_self
            exact (mem_standingAt.1 hmem).1
          have hle : e.position.key ≤ d.position.key :=
            (List.mem_cons.1 hd).elim (fun heq => heq ▸ le_rfl) (hfirst' d)
          have hge : d.position.key ≤ e.position.key :=
            (List.mem_cons.1 he).elim (fun heq => heq ▸ le_rfl) (hfirst e)
          have hposition : d.position = e.position := Position.key_injective (le_antisymm hge hle)
          have hheads := h d.position
          rw [standingAt_cons_self, hposition, standingAt_cons_self] at hheads
          obtain ⟨rfl, htails⟩ := List.cons.inj hheads
          refine congrArg (d :: ·) (ih hrest hrest' fun p => ?_)
          by_cases hp : d.position = p
          · subst hp
            exact htails
          · have hothers := h p
            rwa [standingAt_cons_of_ne hp, standingAt_cons_of_ne hp] at hothers

/-- **There is one list of what was recorded**, told by what was recorded at each position. -/
theorem Listed.unique {a b recorded recorded' : List Diagnostic} (ha : Listed recorded a)
    (hb : Listed recorded' b) (h : ∀ p, standingAt p recorded = standingAt p recorded') : a = b :=
  eq_of_standingAt ha.ordered hb.ordered fun p => by rw [ha.stable p, hb.stable p, h p]

/-- **Sorting depends on what was recorded at each position**, and on nothing else. -/
theorem sorted_eq_sorted_iff {a b : List Diagnostic} :
    sorted a = sorted b ↔ ∀ p, standingAt p a = standingAt p b := by
  constructor
  · intro h p
    rw [← (listed_sorted a).stable p, h, (listed_sorted b).stable p]
  · exact (listed_sorted a).unique (listed_sorted b)

end Diagnostic

open Diagnostic

/-! ## Filling collectors -/

/-- How a collector is filled. -/
inductive Recording where
  | anchoredAt (anchor : Position)
  | warn (r : Recording) (message : String)
  | warnAt (r : Recording) (position : Position) (message : String)
  | errorAt (r : Recording) (position : Position) (message : String)
  | absorb (r other : Recording)

namespace Recording

/-- The collector that is filled. -/
def collector : Recording → Diagnostics
  | anchoredAt anchor => .anchoredAt anchor
  | warn r message => r.collector.warn message
  | warnAt r position message => r.collector.warnAt position message
  | errorAt r position message => r.collector.errorAt position message
  | absorb r other => r.collector.absorb other.collector

/-- The anchor that a collector begins with. -/
def anchor : Recording → Position
  | anchoredAt anchor => anchor
  | warn r _ | warnAt r _ _ | errorAt r _ _ | absorb r _ => r.anchor

/-- What is recorded, in order; what another collector recorded comes when it is absorbed. -/
def recorded : Recording → List Diagnostic
  | anchoredAt _ => []
  | warn r message => r.recorded ++ [⟨.warning, r.anchor, message⟩]
  | warnAt r position message => r.recorded ++ [⟨.warning, position, message⟩]
  | errorAt r position message => r.recorded ++ [⟨.error, position, message⟩]
  | absorb r other => r.recorded ++ other.recorded

lemma anchor_collector (r : Recording) : r.collector.anchor = r.anchor := by
  induction r with
  | anchoredAt anchor => rfl
  | warn r message ih => exact ih
  | warnAt r position message ih => exact ih
  | errorAt r position message ih => exact ih
  | absorb r other ih _ => exact ih

/-- **A collector keeps what is recorded, in order.** -/
lemma entries_collector (r : Recording) : r.collector.entries = r.recorded := by
  induction r with
  | anchoredAt anchor => rfl
  | warn r message ih =>
      rw [collector, Diagnostics.warn, Diagnostics.warnAt, Diagnostics.entries_record, ih,
        anchor_collector, recorded]
  | warnAt r position message ih =>
      rw [collector, Diagnostics.warnAt, Diagnostics.entries_record, ih, recorded]
  | errorAt r position message ih =>
      rw [collector, Diagnostics.errorAt, Diagnostics.entries_record, ih, recorded]
  | absorb r other ih ihother =>
      rw [collector, Diagnostics.entries_absorb, ih, ihother, recorded]

end Recording

/-! ## Merging collectors -/

namespace Diagnostics

/-- No position occurs in both collectors. -/
def Apart (c d : Diagnostics) : Prop :=
  ∀ a ∈ c.entries, ∀ b ∈ d.entries, a.position ≠ b.position

lemma Apart.symm {c d : Diagnostics} (h : c.Apart d) : d.Apart c :=
  fun b hb a ha heq => h a ha b hb heq.symm

/-- At one position, only one of two collectors has entries. -/
lemma Apart.standingAt {c d : Diagnostics} (h : c.Apart d) (p : Position) :
    standingAt p c.entries = [] ∨ standingAt p d.entries = [] := by
  by_contra hboth
  push Not at hboth
  obtain ⟨a, ha⟩ := List.exists_mem_of_ne_nil _ hboth.1
  obtain ⟨b, hb⟩ := List.exists_mem_of_ne_nil _ hboth.2
  obtain ⟨hac, hap⟩ := mem_standingAt.1 ha
  obtain ⟨hbd, hbp⟩ := mem_standingAt.1 hb
  exact h a hac b hbd (hap.trans hbp.symm)

/-- **At one position, collectors without common positions can be put together in any order.** -/
lemma standingAt_flatMap_perm {cs ds : List Diagnostics} (h : cs.Perm ds)
    (hcs : cs.Pairwise Apart) (p : Position) :
    standingAt p (cs.flatMap Diagnostics.entries)
      = standingAt p (ds.flatMap Diagnostics.entries) := by
  induction h with
  | nil => rfl
  | cons c _ ih =>
      rw [List.flatMap_cons, List.flatMap_cons, standingAt_append, standingAt_append,
        ih (List.pairwise_cons.1 hcs).2]
  | swap c d cs =>
      have happart : d.Apart c := (List.pairwise_cons.1 hcs).1 c List.mem_cons_self
      simp only [List.flatMap_cons, standingAt_append]
      rcases happart.standingAt p with hnone | hnone <;> simp [hnone]
  | trans hfirst _ ih ih' =>
      exact (ih hcs).trans (ih' ((hfirst.pairwise_iff Apart.symm).1 hcs))

end Diagnostics

/-- How collectors are merged: in which order they absorb each other, and in which groups. -/
inductive Merging where
  | collector (c : Diagnostics)
  | absorb (m other : Merging)

namespace Merging

/-- The collectors that are merged. -/
def collectors : Merging → List Diagnostics
  | collector c => [c]
  | absorb m other => m.collectors ++ other.collectors

/-- The collector that has absorbed all others. -/
def merged : Merging → Diagnostics
  | collector c => c
  | absorb m other => m.merged.absorb other.merged

/-- **Merged, collectors have their entries one behind the other.** -/
lemma entries_merged (m : Merging) :
    m.merged.entries = m.collectors.flatMap Diagnostics.entries := by
  induction m with
  | collector c => simp [merged, collectors]
  | absorb m other ih ihother =>
      rw [merged, Diagnostics.entries_absorb, ih, ihother, collectors, List.flatMap_append]

/-- **Collectors without common positions can be merged in any order and grouping.** -/
lemma sorted_eq {m n : Merging} (h : m.collectors.Perm n.collectors)
    (hm : m.collectors.Pairwise Diagnostics.Apart) : m.merged.sorted = n.merged.sorted := by
  refine sorted_eq_sorted_iff.2 fun p => ?_
  rw [entries_merged, entries_merged]
  exact Diagnostics.standingAt_flatMap_perm h hm p

end Merging

end FieldCopy
