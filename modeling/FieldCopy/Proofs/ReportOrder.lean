import Mathlib
import FieldCopy.Proofs.Accounting
import FieldCopy.Proofs.DeclarationOrder
import FieldCopy.Proofs.Isolation.Flags
import FieldCopy.Proofs.Merging

/-!
# The order of a file report

Every interface and every method of a unit has a collector of its own.  The file's collector absorbs
them in three places: those of interfaces and of methods that could not be prepared while the
interfaces are examined, and all others at the end.  This is not the order of declaration.

**Collectors of a unit.**  The diagnostics of a file are those of all its collectors, merged in some
order (`SourceUnit.merged_absorbed`, `SourceUnit.absorbed_perm`).

**Orders of planning.**  What a method records when it is planned depends on whether its delegate is
planned already.  In an order in which delegates come first it does not depend on the order
otherwise (`Generation.collectors_planEach`).

**Main statement.**  `SourceUnit.report_orderless`.
-/

namespace FieldCopy

open Diagnostic

namespace Generation

/-! ## Collectors -/

/-- The collector of an interface. -/
def interfaceCollector (i : Interface) : Diagnostics := ⟨i.position, interfaceDiagnostics i⟩

/-- The collector of a method. -/
def Entry.collector (e : Entry) : Diagnostics := ⟨e.declaration.position, e.diagnostics⟩

/-- The entry could not be prepared. -/
def Entry.isLost (e : Entry) : Bool := e.prepared.value.isNone

end Generation

namespace SourceUnit

open Generation

variable (unit : SourceUnit)

/-- The collector of the file, as it is at first. -/
def fileCollector : Diagnostics := .anchoredAt ⟨unit.file, 1, 1⟩

/-- The collectors of the interfaces and the methods. -/
def collectors : List Diagnostics :=
  unit.interfaces.map interfaceCollector ++ unit.entries.map Entry.collector

/-- The collectors of the interfaces and the methods as the file's collector absorbs them. -/
def absorbed : List Diagnostics :=
  (unit.interfaces.flatMap fun i =>
      interfaceCollector i :: ((examine i).entries.filter Entry.isLost).map Entry.collector)
    ++ (unit.entries.filter fun e => !e.isLost).map Entry.collector

end SourceUnit

/-- A collector absorbs others one after the other. -/
def Merging.inTurn (c : Diagnostics) (cs : List Diagnostics) : Merging :=
  cs.foldl (fun m d => .absorb m (.collector d)) (.collector c)

lemma Merging.collectors_inTurn (c : Diagnostics) (cs : List Diagnostics) :
    (inTurn c cs).collectors = c :: cs := by
  induction cs using List.reverseRecOn with
  | nil => rfl
  | append_singleton cs d ih =>
      have hlast : inTurn c (cs ++ [d]) = .absorb (inTurn c cs) (.collector d) := by
        rw [inTurn, List.foldl_append]
        rfl
      rw [hlast, collectors, ih]
      rfl

namespace SourceUnit

open Generation

variable (unit : SourceUnit)

/-- An entry that was only prepared has the diagnostics of its preparation. -/
lemma diagnostics_of_mem_examine {i : Interface} {e : Entry} (he : e ∈ (examine i).entries) :
    e.diagnostics = e.prepared.diagnostics := by
  rw [examine_entries] at he
  split at he
  · obtain ⟨m, -, rfl⟩ := List.mem_map.1 he
    exact Entry.diagnostics_of_planned_none (Entry.fresh_of i.name m).planned
  · exact absurd he List.not_mem_nil

/-- What an interface and its lost methods give to the file. -/
lemma examined_diagnostics (i : Interface) :
    (interfaceCollector i :: ((examine i).entries.filter Entry.isLost).map
        Entry.collector).flatMap Diagnostics.entries
      = (examine i).own.diagnostics
        ++ ((examine i).entries.filter fun e => e.prepared.value.isNone).flatMap fun e =>
          e.prepared.diagnostics := by
  rw [List.flatMap_cons, List.flatMap_map]
  refine congrArg (_ ++ ·) (List.flatMap_congr fun e he => ?_)
  exact diagnostics_of_mem_examine (List.mem_filter.1 he).1

/-- **The report lists what the file's collector has absorbed.** -/
lemma merged_absorbed (options : GenerationOptions) :
    (unit.generate options).value.diagnostics
      = (Merging.inTurn unit.fileCollector unit.absorbed).merged.sorted := by
  have hearly : earlyDiagnostics (unit.interfaces.map examine)
      = (unit.interfaces.flatMap fun i =>
          interfaceCollector i :: ((examine i).entries.filter Entry.isLost).map
            Entry.collector).flatMap Diagnostics.entries := by
    rw [earlyDiagnostics, List.flatMap_map, List.flatMap_assoc]
    exact List.flatMap_congr fun i _ => (examined_diagnostics i).symm
  have hlate : lateDiagnostics unit.entries
      = ((unit.entries.filter fun e => !e.isLost).map Entry.collector).flatMap
          Diagnostics.entries := by
    simp only [lateDiagnostics, List.flatMap_map, Entry.isLost, Option.not_isNone]
    rfl
  rw [Diagnostics.sorted, Merging.entries_merged, Merging.collectors_inTurn, absorbed,
    List.flatMap_cons, List.flatMap_append, ← hearly, ← hlate]
  rfl

/-- Planning does nothing to a lost method. -/
lemma unplanned_of_lost {e : Entry} (he : e ∈ unit.entries) (hlost : e.isLost = true) :
    e.unplanned = e := by
  obtain ⟨siblings, hsettled⟩ := unit.entry_settled he
  have hplanned := hsettled.planned
  rw [Option.isNone_iff_eq_none.1 hlost, Option.map_none] at hplanned
  rw [Entry.unplanned, ← hplanned]

/-- The lost methods of a unit are those that were lost when its interfaces were examined. -/
lemma lost_entries :
    unit.interfaces.flatMap (fun i => (examine i).entries.filter Entry.isLost)
      = unit.entries.filter Entry.isLost := by
  have hexamined : unit.interfaces.flatMap (fun i => (examine i).entries)
      = unit.entries.map Entry.unplanned := by
    rw [entries_unplanned, annotated, ← examined_entries, List.flatMap_map]
  calc unit.interfaces.flatMap (fun i => (examine i).entries.filter Entry.isLost)
      = (unit.entries.map Entry.unplanned).filter Entry.isLost := by
        rw [← hexamined, List.filter_flatMap]
    _ = (unit.entries.filter Entry.isLost).map Entry.unplanned := by
        rw [List.filter_map]
        rfl
    _ = unit.entries.filter Entry.isLost := by
        refine (List.map_congr_left fun e he => ?_).trans (List.map_id _)
        obtain ⟨hmem, hlost⟩ := List.mem_filter.1 he
        exact unit.unplanned_of_lost hmem hlost

/-- **Every collector is absorbed once.** -/
lemma absorbed_perm : unit.absorbed.Perm unit.collectors := by
  have hlost : unit.interfaces.flatMap (fun i =>
      ((examine i).entries.filter Entry.isLost).map Entry.collector)
        = (unit.entries.filter Entry.isLost).map Entry.collector := by
    rw [← unit.lost_entries, List.map_flatMap]
  have hparts := (List.filter_append_perm Entry.isLost unit.entries).map Entry.collector
  rw [List.map_append, ← hlost] at hparts
  rw [absorbed, collectors]
  refine ((List.map_append_flatMap_perm unit.interfaces _ _).symm.append_right _).trans ?_
  rw [List.append_assoc]
  exact hparts.append_left _

end SourceUnit

namespace Generation

/-! ## Orders of planning -/

variable {c : Catalog}

/-- Plans entries one after the other. -/
def planEach (c : Catalog) : Keyed Bool → List Entry → List Entry
  | _, [] => []
  | s, e :: rest => (planEntry c s e).1 :: planEach c (planEntry c s e).2 rest

/-- The siblings that entries leave behind which are planned one after the other. -/
def siblingsAfter (c : Catalog) (s : Keyed Bool) (es : List Entry) : Keyed Bool :=
  es.foldl (fun s e => (planEntry c s e).2) s

/-- Whether one of some entries has a name and gets a plan. -/
def isAmong (c : Catalog) (name : String) (es : List Entry) : Bool :=
  es.any fun e => isPlannable c e && name == e.declaration.name

/-- No delegate comes behind a method that calls it. -/
def DelegatesFirst (c : Catalog) (order : List Entry) : Prop :=
  ∀ before e after, order = before ++ e :: after →
    ∀ d ∈ e :: after, e.delegate? c ≠ some d.declaration.name

lemma contains_siblingsAfter (s : Keyed Bool) (es : List Entry) (name : String) :
    (siblingsAfter c s es).contains name = (s.contains name || isAmong c name es) := by
  induction es generalizing s with
  | nil => simp [siblingsAfter, isAmong]
  | cons e es ih =>
      rw [siblingsAfter, List.foldl_cons, ← siblingsAfter, ih, contains_planEntry, Bool.or_assoc]
      rfl

/-- In an order in which delegates come first, a delegate is known as soon as it is called. -/
lemma DelegatesFirst.contains {order : List Entry} (h : DelegatesFirst c order)
    {before after : List Entry} {e : Entry} (horder : order = before ++ e :: after)
    {name : String} (hname : e.delegate? c = some name) :
    (siblingsAfter c .empty before).contains name = isAmong c name order := by
  have hlater : isAmong c name (e :: after) = false := by
    refine List.any_eq_false.2 fun d hd => ?_
    have hne : name ≠ d.declaration.name := fun heq =>
      h before e after horder d hd (by rw [hname, heq])
    simp [hne]
  rw [contains_siblingsAfter, horder, isAmong, isAmong, List.any_append, ← isAmong,
    ← isAmong, hlater, Bool.or_false]
  rfl

/-- What a method records depends on whether its delegate is known. -/
lemma collector_planEntry {s t : Keyed Bool} {e : Entry}
    (h : ∀ name, e.delegate? c = some name → s.contains name = t.contains name) :
    (planEntry c s e).1.collector = (planEntry c t e).1.collector := by
  have hsimilar := planEntry_similar h
  have hdeclaration := congrArg Entry.declaration hsimilar.unplanned
  rw [Entry.unplanned_declaration, Entry.unplanned_declaration] at hdeclaration
  rw [Entry.collector, Entry.collector, hsimilar.diagnostics, hdeclaration]

/-- Entries that find their delegates in a table record the same as if they all had this table. -/
lemma collectors_planEach (known : Keyed Bool) (es : List Entry) (s : Keyed Bool)
    (h : ∀ before e after, es = before ++ e :: after → ∀ name, e.delegate? c = some name →
      (siblingsAfter c s before).contains name = known.contains name) :
    (planEach c s es).map Entry.collector
      = es.map fun e => (planEntry c known e).1.collector := by
  induction es generalizing s with
  | nil => rfl
  | cons e es ih =>
      have hfirst : ∀ name, e.delegate? c = some name → s.contains name = known.contains name :=
        h [] e es rfl
      have hrest := ih (planEntry c s e).2 fun before d after hes =>
        h (e :: before) d after (by rw [hes]; rfl)
      rw [planEach, List.map_cons, List.map_cons, collector_planEntry hfirst, hrest]

/-- **In orders in which delegates come first the methods record the same.** -/
lemma collectors_planEach_perm {order order' : List Entry} (hperm : order.Perm order')
    (horder : DelegatesFirst c order) (horder' : DelegatesFirst c order') :
    ((planEach c .empty order).map Entry.collector).Perm
      ((planEach c .empty order').map Entry.collector) := by
  have hamong : ∀ name, isAmong c name order' = isAmong c name order := fun name =>
    (hperm.any_eq).symm
  have hknown : ∀ name, (siblingsAfter c .empty order).contains name = isAmong c name order :=
    fun name => by rw [contains_siblingsAfter]; rfl
  rw [collectors_planEach (siblingsAfter c .empty order) order _
      fun before e after hes name hname => by rw [horder.contains hes hname, hknown],
    collectors_planEach (siblingsAfter c .empty order) order' _
      fun before e after hes name hname => by rw [horder'.contains hes hname, hamong, hknown]]
  exact hperm.map _

/-- **Entries that are planned in turn are planned one after the other.** -/
lemma InTurn.eq_planEach {s : Keyed Bool} {es : List Entry} (h : InTurn c s es) :
    planEach c s (es.map Entry.unplanned) = es := by
  induction h with
  | nil => rfl
  | @cons s e rest he _ ih =>
      have hfresh : e.unplanned.Fresh := by
        rw [Entry.Fresh, Entry.of, Entry.unplanned_declaration, ← he.prepared]
        rfl
      rw [List.map_cons, planEach, planEntry_snd c s hfresh,
        ← he.eq_planEntry fun _ _ => rfl, ih]

lemma planOrder_unplanned (es : List Entry) :
    (planOrder c es).map Entry.unplanned = planOrder c (es.map Entry.unplanned) := by
  rw [planOrder, planOrder, List.map_append, List.filter_map, List.filter_map]
  rfl

end Generation

namespace SourceUnit

open Generation

variable (unit : SourceUnit)

/-- The methods of a unit are planned one after the other, in one particular order. -/
lemma planOrder_entries :
    planOrder unit.catalog unit.entries
      = planEach unit.catalog .empty (planOrder unit.catalog unit.fresh) := by
  rw [fresh, ← entries_unplanned, ← planOrder_unplanned]
  exact unit.entries_inTurn.eq_planEach.symm

/-- The collectors of a unit if its methods are planned in some order. -/
def collectorsIn (order : List Entry) : List Diagnostics :=
  unit.interfaces.map interfaceCollector
    ++ (planEach unit.catalog .empty order).map Entry.collector

/-- **The collectors are the same in all orders in which delegates come first.** -/
lemma collectorsIn_perm {order : List Entry} (hperm : order.Perm unit.fresh)
    (horder : DelegatesFirst unit.catalog order)
    (hunit : DelegatesFirst unit.catalog (planOrder unit.catalog unit.fresh)) :
    (unit.collectorsIn order).Perm unit.collectors := by
  refine List.Perm.append_left _ ?_
  have hplanned := collectors_planEach_perm
    (hperm.trans (planOrder_perm unit.catalog unit.fresh).symm) horder hunit
  rw [← planOrder_entries] at hplanned
  exact hplanned.trans ((planOrder_perm _ _).map _)

/-- **Neither the order nor the grouping in which diagnostics are merged can be seen.**

A collector keeps what is recorded, and merged collectors list all of it by position, at one
position in the order of recording.  Without common positions this is the same however they are
merged; the report of a file is one such list, whether the collectors of its methods are merged in
another order or grouping, or the methods are planned in another order in which no delegate comes
late. -/
theorem report_orderless (unit : SourceUnit) (options : GenerationOptions) :
    (∀ r : Recording, r.collector.entries = r.recorded)
      ∧ (∀ m : Merging,
          Listed (m.collectors.flatMap Diagnostics.entries) m.merged.sorted)
      ∧ (∀ m n : Merging, m.collectors.Perm n.collectors →
          m.collectors.Pairwise Diagnostics.Apart → m.merged.sorted = n.merged.sorted)
      ∧ (unit.collectors.Pairwise Diagnostics.Apart →
          (∀ m : Merging, m.collectors.Perm (unit.fileCollector :: unit.collectors) →
            m.merged.sorted = (unit.generate options).value.diagnostics)
          ∧ (DelegatesFirst unit.catalog (planOrder unit.catalog unit.fresh) →
            ∀ order : List Entry, order.Perm unit.fresh →
              DelegatesFirst unit.catalog order →
              ∀ m : Merging, m.collectors.Perm (unit.fileCollector :: unit.collectorsIn order) →
                m.merged.sorted = (unit.generate options).value.diagnostics)) := by
  have hlisted : ∀ m : Merging,
      Listed (m.collectors.flatMap Diagnostics.entries) m.merged.sorted := fun m => by
    rw [← m.entries_merged]
    exact listed_sorted _
  refine ⟨Recording.entries_collector, hlisted, fun m n => Merging.sorted_eq, fun hapart => ?_⟩
  -- The collector of the file is empty, so it shares no position with any other.
  have hall : (unit.fileCollector :: unit.collectors).Pairwise Diagnostics.Apart :=
    List.pairwise_cons.2 ⟨fun _ _ a ha => absurd ha List.not_mem_nil, hapart⟩
  have hreport : ∀ m : Merging, m.collectors.Perm (unit.fileCollector :: unit.collectors) →
      m.merged.sorted = (unit.generate options).value.diagnostics := by
    intro m hm
    rw [merged_absorbed]
    refine Merging.sorted_eq ?_ ((hm.pairwise_iff Diagnostics.Apart.symm).2 hall)
    rw [Merging.collectors_inTurn]
    exact hm.trans (unit.absorbed_perm.symm.cons _)
  exact ⟨hreport, fun hunit order hperm horder m hm =>
    hreport m (hm.trans ((unit.collectorsIn_perm hperm horder hunit).cons _))⟩

end SourceUnit

end FieldCopy
