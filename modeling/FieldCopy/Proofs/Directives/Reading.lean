import Mathlib
import FieldCopy.Proofs.Loops
import FieldCopy.Proofs.Tables

/-!
# Lines and what they say

The instructions of a method are what its lines say, one directive after the other.

**Reading.**  `Instructions.said` lists the directives that some lines hold.  If all lines are
accepted, the instructions are these directives applied in turn (`Instructions.ensures_ofLines`).

**Slots.**  A directive writes one part of the instructions and leaves the others alone.  So a part
depends only on the directives that write it: a flag on the last of them, a table on their entries
in turn.

**Overrides.**  An override names a field if its key is the same name (`override?_isSome_iff`).
-/

namespace FieldCopy

open Attempt

namespace Instructions

/-! ## Reading -/

/-- A directive with the position of its line. -/
structure Saying where
  position : Position
  directive : Directive

/-- What a line says, if it is accepted and holds a directive that is taken. -/
def saying? (valid : List String) (line : Annotation) : Option Saying :=
  (line.directive valid).outcome.value.toOption.join.map (Saying.mk line.position)

/-- What some lines say. -/
def said (valid : List String) (lines : List Annotation) : List Saying :=
  lines.filterMap (saying? valid)

/-- The instructions after one more directive. -/
def add (i : Instructions) (s : Saying) : Instructions :=
  (s.directive.apply s.position i).instructions

/-- What directives come to, one after the other. -/
def ofSaid (sayings : List Saying) : Instructions := sayings.foldl add default

lemma said_append (valid : List String) (a b : List Annotation) :
    said valid (a ++ b) = said valid a ++ said valid b := List.filterMap_append

lemma ensures_readLine (valid : List String) (r : Reading) (line : Annotation) :
    Ensures (readLine valid r line) fun after =>
      after.instructions = (saying? valid line).elim r.instructions (add r.instructions) := by
  rw [readLine]
  refine .bind (P := fun d => (line.directive valid).outcome.value = .ok d) (fun d hd => hd)
    fun d hd => ?_
  have hsaying : saying? valid line = d.map (Saying.mk line.position) := by
    rw [saying?, hd]
    rfl
  rw [hsaying]
  cases d with
  | none => exact .pure rfl
  | some d =>
      simp only
      split
      · exact .after fun _ => .pure rfl
      · exact .pure rfl

lemma ensures_foldlM (valid : List String) : ∀ (lines : List Annotation) (r : Reading),
    Ensures (lines.foldlM (readLine valid) r) fun after =>
      after.instructions = (said valid lines).foldl add r.instructions
  | [], r => .pure rfl
  | line :: lines, r => by
      rw [List.foldlM_cons]
      refine .bind (ensures_readLine valid r line) fun between hbetween after hafter => ?_
      rw [ensures_foldlM valid lines between after hafter, hbetween, said, said]
      cases hs : saying? valid line with
      | none => rw [List.filterMap_cons_none hs]; rfl
      | some s => rw [List.filterMap_cons_some hs]; rfl

/-- **Accepted lines come to what they say.** -/
theorem ensures_ofLines (valid : List String) (lines : List Annotation) :
    Ensures (ofLines valid lines) fun i => i = ofSaid (said valid lines) := by
  refine .bind (ensures_foldlM valid lines ⟨default, none⟩) fun r hr => ?_
  split
  · split
    · exact .throw _
    · exact .pure hr
  · exact .pure hr

lemma ofLines_eq_ok (valid : List String) (lines : List Annotation)
    (h : (ofLines valid lines).outcome.value.toOption.isSome) :
    (ofLines valid lines).outcome.value = .ok (ofSaid (said valid lines)) := by
  cases hvalue : (ofLines valid lines).outcome.value with
  | ok i => rw [ensures_ofLines valid lines i hvalue]
  | error e => exact absurd h (by simp [hvalue, Except.toOption])

/-! ## Slots -/

/-- A part of the instructions that a directive changes by itself is what the directives make of it
one after the other. -/
lemma slot_ofSaid {α : Type} (slot : Instructions → α) (change : α → Saying → α)
    (h : ∀ i s, slot (add i s) = change (slot i) s) (sayings : List Saying) :
    slot (ofSaid sayings) = sayings.foldl change (slot default) :=
  (List.foldl_hom slot fun i s => (h i s).symm).symm

/-- A part that directives set as a whole is the one that is set last. -/
lemma setting_ofSaid {α : Type} (part : Instructions → α) (set? : Saying → Option α)
    (h : ∀ i s, part (add i s) = (set? s).getD (part i)) (sayings : List Saying) :
    part (ofSaid sayings) = (sayings.filterMap set?).getLast?.getD (part default) := by
  rw [slot_ofSaid part (fun a s => (set? s).getD a) h]
  induction sayings using List.reverseRecOn with
  | nil => rfl
  | append_singleton sayings s ih =>
      rw [List.foldl_append, ih, List.filterMap_append, List.foldl_cons, List.foldl_nil]
      cases hs : set? s <;> simp [hs]

/-- A part that is missing without directives is the one that is given last, if one is. -/
lemma gift_ofSaid {α : Type} (part : Instructions → Option α) (give? : Saying → Option α)
    (hnone : part default = none) (h : ∀ i s, part (add i s) = (give? s).or (part i))
    (sayings : List Saying) : part (ofSaid sayings) = (sayings.filterMap give?).getLast? := by
  rw [setting_ofSaid part (fun s => (give? s).map some)
    (fun i s => by rw [h]; cases give? s <;> rfl), hnone, ← List.map_filterMap,
    List.getLast?_map]
  cases (sayings.filterMap give?).getLast? <;> rfl

/-- A flag is the one that is set last. -/
lemma flag_ofSaid {α : Type} (flag : Instructions → α) (set? : Directive → Option α)
    (h : ∀ i s, flag (add i s) = (set? s.directive).getD (flag i)) (sayings : List Saying) :
    flag (ofSaid sayings)
      = (sayings.filterMap fun s => set? s.directive).getLast?.getD (flag default) :=
  setting_ofSaid flag (fun s => set? s.directive) h sayings

/-- A table of overrides holds the entries of the directives that write it. -/
lemma table_ofSaid {α : Type} (table : Instructions → Keyed α)
    (item? : Directive → Option (String × α)) (hempty : table default = .empty)
    (h : ∀ i s, table (add i s)
      = (item? s.directive).elim (table i) fun e => (table i).insert e.1 e.2)
    (sayings : List Saying) :
    table (ofSaid sayings) = .ofList (sayings.filterMap fun s => item? s.directive) := by
  rw [slot_ofSaid table (fun t s => (item? s.directive).elim t fun e => t.insert e.1 e.2) h,
    hempty]
  exact Keyed.foldl_insert (fun s : Saying => item? s.directive) sayings

end Instructions

namespace Directive

/-- The entry that a directive makes among the literals. -/
def literal? : Directive → Option (String × String)
  | literal key text => some (key, text)
  | _ => none

/-- The entry that a directive makes among the methods. -/
def method? : Directive → Option (String × String)
  | method key m => some (key, m)
  | _ => none

/-- The entry that a directive makes among the converters. -/
def converter? : Directive → Option (String × Converter)
  | converter key c => some (key, c)
  | _ => none

/-- The entry that a directive makes among the source paths. -/
def source? : Directive → Option (String × String)
  | map source key | field key source => some (key, source)
  | _ => none

/-- The pattern that a directive adds. -/
def skip? : Directive → Option SkipPattern
  | skip p => some p
  | _ => none

/-- The case rule that a directive sets. -/
def case? : Directive → Option Bool
  | caseSensitive on => some on
  | _ => none

/-- The match rule that a directive sets. -/
def rule? : Directive → Option MatchRule
  | matching r => some r
  | _ => none

end Directive

namespace Instructions

variable (sayings : List Saying)

lemma literals_ofSaid :
    (ofSaid sayings).literals = .ofList (sayings.filterMap fun s => s.directive.literal?) :=
  table_ofSaid literals Directive.literal? rfl (fun _ ⟨_, d⟩ => by cases d <;> rfl) sayings

lemma methodOverrides_ofSaid :
    (ofSaid sayings).methodOverrides = .ofList (sayings.filterMap fun s => s.directive.method?) :=
  table_ofSaid methodOverrides Directive.method? rfl (fun _ ⟨_, d⟩ => by cases d <;> rfl) sayings

lemma converters_ofSaid :
    (ofSaid sayings).converters = .ofList (sayings.filterMap fun s => s.directive.converter?) :=
  table_ofSaid converters Directive.converter? rfl (fun _ ⟨_, d⟩ => by cases d <;> rfl) sayings

lemma fieldOverrides_ofSaid :
    (ofSaid sayings).fieldOverrides = .ofList (sayings.filterMap fun s => s.directive.source?) :=
  table_ofSaid fieldOverrides Directive.source? rfl (fun _ ⟨_, d⟩ => by cases d <;> rfl) sayings

lemma caseSensitive_ofSaid :
    (ofSaid sayings).caseSensitive
      = (sayings.filterMap fun s => s.directive.case?).getLast?.getD true :=
  flag_ofSaid caseSensitive Directive.case? (fun _ ⟨_, d⟩ => by cases d <;> rfl) sayings

lemma matching_ofSaid :
    (ofSaid sayings).matching
      = (sayings.filterMap fun s => s.directive.rule?).getLast?.getD .name :=
  flag_ofSaid matching Directive.rule? (fun _ ⟨_, d⟩ => by cases d <;> rfl) sayings

lemma skips_ofSaid :
    (ofSaid sayings).skips = sayings.filterMap fun s => s.directive.skip? := by
  rw [slot_ofSaid skips (fun ps s => ps ++ s.directive.skip?.toList)
    (fun _ ⟨_, d⟩ => by
      cases d <;> simp [add, Directive.apply, Directive.overriding, Directive.skip?])]
  induction sayings using List.reverseRecOn with
  | nil => rfl
  | append_singleton sayings s ih =>
      rw [List.foldl_append, ih, List.filterMap_append]
      cases hs : s.directive.skip? <;> simp [hs]

/-! ## Overrides and names -/

/-- **An override names a field if its key is the same name under the case rule.** -/
theorem override?_isSome_iff {α : Type} (i : Instructions) (entries : List (String × α))
    (name : String) :
    (i.override? (.ofList entries) name).isSome = true
      ↔ ∃ e ∈ entries, i.sameName e.1 name = true := by
  have hcontains := Keyed.contains_ofList_iff entries
  rw [override?]
  cases hfind : (Keyed.ofList entries).find? name with
  | some a =>
      obtain ⟨value, hvalue⟩ := (hcontains name).1 (by rw [Keyed.contains, hfind]; rfl)
      refine iff_of_true rfl ⟨_, hvalue, ?_⟩
      rw [sameName]
      split <;> simp [sameIgnoringCase_refl]
  | none =>
      have hnone : ∀ e ∈ entries, e.1 ≠ name := by
        rintro ⟨key, value⟩ he rfl
        have hkey := (hcontains key).2 ⟨value, he⟩
        rw [Keyed.contains, hfind] at hkey
        exact absurd hkey (by simp)
      simp only [sameName]
      split
      · refine iff_of_false (by simp) ?_
        rintro ⟨e, he, hsame⟩
        exact hnone e he (by simpa using hsame)
      · rw [Option.isSome_map, List.find?_isSome]
        constructor
        · rintro ⟨e, he, hsame⟩
          obtain ⟨value, hvalue⟩ := (hcontains e.1).1 (Keyed.look_isSome_iff.2 ⟨e, he, rfl⟩)
          exact ⟨_, hvalue, hsame⟩
        · rintro ⟨e, he, hsame⟩
          obtain ⟨d, hd, hkey⟩ := Keyed.look_isSome_iff.1 ((hcontains e.1).2 ⟨e.2, he⟩)
          exact ⟨d, hd, hkey ▸ hsame⟩

end Instructions

end FieldCopy
