import Mathlib
import FieldCopy.Proofs.Directives.Acceptance

/-!
# The order of lines

Lines may be moved past each other as long as those that write the same thing stay in order.

**Slots.**  A directive writes one slot at most: a setting, the list of patterns, or the override of
one field in one table (`Directive.slot?`).  What directives come to depends, slot by slot, on those
that write it (`SameOrder`), so directives in another order with the same lists for all slots come
to the same (`SameOrder.ofSaid_eq`), and they replace the same overrides (`SameOrder.repeats_perm`).

**Main statement.**  `Instructions.order_independent`: two lists of lines with the same order in
every slot are both accepted or both refused, they say the same, and they warn alike up to order.
In particular lines for the case rule may stand anywhere among the others.
-/

namespace FieldCopy

open Attempt

/-! ## Slots -/

/-- What a directive can write. -/
inductive Slot where
  | matching
  | style
  | receiver
  | reversed
  | caseRule
  | getters
  | stringers
  | casts
  | skips
  /-- The override of a field in the table of this kind. -/
  | override (kind : Ruling) (field : String)
  | delegate
  | before
  | after
  deriving DecidableEq

/-- The slot that a directive writes. -/
def Directive.slot? : Directive → Option Slot
  | marksInterface => none
  | matching _ => some .matching
  | style _ => some .style
  | receiver _ => some .receiver
  | reversed => some .reversed
  | caseSensitive _ => some .caseRule
  | getters _ => some .getters
  | stringers _ => some .stringers
  | casts _ => some .casts
  | skip _ => some .skips
  | map _ f | field f _ => some (.override .source f)
  | method f _ => some (.override .method f)
  | converter f _ => some (.override .converter f)
  | literal f _ => some (.override .literal f)
  | delegate _ => some .delegate
  | before _ => some .before
  | after _ => some .after

lemma Directive.slot?_eq_override_iff {d : Directive} {r : Ruling} {key : String} :
    d.slot? = some (.override r key) ↔ d.override? = some (r, key) := by
  cases d <;> simp [slot?, override?]

attribute [ext] Instructions

namespace Instructions

/-- The directives that write a slot, in order. -/
def writing (slot : Slot) (sayings : List Saying) : List Saying :=
  sayings.filter fun s => s.directive.slot? = some slot

/-- Two lists have the same directives in the same order for every slot. -/
def SameOrder (a b : List Saying) : Prop := ∀ slot, writing slot a = writing slot b

/-- What is read off the directives for a slot is read off those that write it. -/
lemma filterMap_writing {α : Type} {read? : Saying → Option α} {slot : Slot}
    (h : ∀ s x, read? s = some x → s.directive.slot? = some slot) (sayings : List Saying) :
    (writing slot sayings).filterMap read? = sayings.filterMap read? := by
  rw [writing, List.filterMap_filter]
  congr 1
  funext s
  cases hs : read? s with
  | none => simp
  | some x => simp [h s x hs]

/-! ## What directives come to -/

section

variable {a b : List Saying} (same : SameOrder a b)

include same

lemma SameOrder.filterMap_eq {α : Type} {read? : Saying → Option α} (slot : Slot)
    (h : ∀ s x, read? s = some x → s.directive.slot? = some slot) :
    a.filterMap read? = b.filterMap read? := by
  rw [← filterMap_writing h, same slot, filterMap_writing h]

lemma SameOrder.last?_eq {α : Type} (set? : Directive → Option α) (slot : Slot)
    (h : ∀ d x, set? d = some x → d.slot? = some slot) : last? a set? = last? b set? := by
  rw [last?, last?, same.filterMap_eq slot fun s => h s.directive]

lemma SameOrder.lastFunction?_eq (name? : Directive → Option String) (slot : Slot)
    (h : ∀ d x, name? d = some x → d.slot? = some slot) :
    lastFunction? a name? = lastFunction? b name? := by
  rw [lastFunction?, lastFunction?]
  refine congrArg List.getLast? (same.filterMap_eq slot fun s f hf => ?_)
  obtain ⟨name, hname, -⟩ := Option.map_eq_some_iff.1 hf
  exact h s.directive name hname

/-- A table has the same entry for every field. -/
lemma SameOrder.ofList_eq {α : Type} {item? : Directive → Option (String × α)} {r : Ruling}
    (hr : ∀ d key, (∃ value, item? d = some (key, value)) ↔ d.override? = some (r, key)) :
    Keyed.ofList (a.filterMap fun s => item? s.directive)
      = .ofList (b.filterMap fun s => item? s.directive) := by
  refine Keyed.ext_find? fun key => ?_
  rw [Keyed.find?_ofList, Keyed.find?_ofList, List.filter_filterMap, List.filter_filterMap]
  rw [same.filterMap_eq (.override r key) fun s e he => ?_]
  obtain ⟨hitem, hkey⟩ := Option.filter_eq_some_iff.1 he
  obtain rfl : e.1 = key := by simpa using hkey
  exact Directive.slot?_eq_override_iff.2 ((hr s.directive e.1).1 ⟨e.2, hitem⟩)

/-- **Directives with the same order in every slot come to the same.** -/
lemma SameOrder.ofSaid_eq : ofSaid a = ofSaid b := by
  have ha := lastDecides_ofSaid a
  have hb := lastDecides_ofSaid b
  refine Instructions.ext ?matching ?caseRule ?getters ?stringers ?casts ?style ?reversed ?receiver
    ?skips ?fields ?methods ?converters ?literals ?delegate ?before ?after
  case matching =>
    rw [ha.matching, hb.matching,
      same.last?_eq Directive.rule? .matching fun | .matching _, _, rfl => rfl]
  case caseRule =>
    rw [ha.caseSensitive, hb.caseSensitive,
      same.last?_eq Directive.case? .caseRule fun | .caseSensitive _, _, rfl => rfl]
  case getters =>
    rw [ha.getters, hb.getters,
      same.last?_eq Directive.getters? .getters fun | .getters _, _, rfl => rfl]
  case stringers =>
    rw [ha.stringers, hb.stringers,
      same.last?_eq Directive.stringers? .stringers fun | .stringers _, _, rfl => rfl]
  case casts =>
    rw [ha.casts, hb.casts, same.last?_eq Directive.casts? .casts fun | .casts _, _, rfl => rfl]
  case style =>
    rw [ha.style, hb.style, same.last?_eq Directive.style? .style fun | .style _, _, rfl => rfl]
  case reversed =>
    rw [ha.reversed, hb.reversed,
      same.last?_eq Directive.reversed? .reversed fun | .reversed, _, rfl => rfl]
  case receiver =>
    rw [ha.receiver, hb.receiver,
      same.last?_eq Directive.receiver? .receiver fun | .receiver _, _, rfl => rfl]
  case skips =>
    rw [skips_ofSaid, skips_ofSaid]
    exact same.filterMap_eq .skips fun | ⟨_, .skip _⟩, _, rfl => rfl
  case fields =>
    rw [fieldOverrides_ofSaid, fieldOverrides_ofSaid, same.ofList_eq Directive.source?_iff]
  case methods =>
    rw [methodOverrides_ofSaid, methodOverrides_ofSaid, same.ofList_eq Directive.method?_iff]
  case converters =>
    rw [converters_ofSaid, converters_ofSaid, same.ofList_eq Directive.converter?_iff]
  case literals => rw [literals_ofSaid, literals_ofSaid, same.ofList_eq Directive.literal?_iff]
  case delegate =>
    rw [ha.delegate, hb.delegate,
      same.lastFunction?_eq Directive.delegate? .delegate fun | .delegate _, _, rfl => rfl]
  case before =>
    rw [ha.before, hb.before,
      same.lastFunction?_eq Directive.before? .before fun | .before _, _, rfl => rfl]
  case after =>
    rw [ha.after, hb.after,
      same.lastFunction?_eq Directive.after? .after fun | .after _, _, rfl => rfl]

end

/-! ## Overrides that are replaced -/

/-- A directive is an override that a directive before it wrote as well. -/
def replaces (earlier : List Saying) (s : Saying) : Bool :=
  s.directive.override?.any fun o => earlier.any fun e => e.directive.override? = some o

/-- The directives that replace an override, behind others. -/
def repeats (earlier : List Saying) : List Saying → List Saying
  | [] => []
  | s :: rest =>
      if replaces earlier s then s :: repeats (earlier ++ [s]) rest
      else repeats (earlier ++ [s]) rest

/-- The warning about a directive that replaces an override. -/
def Saying.replacing? (s : Saying) : Option Diagnostic :=
  s.directive.override?.map fun o => replacementWarning s.position o.2

lemma replacement?_eq (earlier : List Saying) (s : Saying) :
    replacement? earlier s = if replaces earlier s then s.replacing? else none := by
  rw [replacement?, replaces, Saying.replacing?]
  cases s.directive.override? <;> simp

/-- The directives that write the override of a field. -/
lemma writing_override (r : Ruling) (key : String) (sayings : List Saying) :
    writing (.override r key) sayings
      = sayings.filter fun s => s.directive.override? = some (r, key) := by
  rw [writing]
  simp only [Directive.slot?_eq_override_iff]

/-- Among the directives for an override, all but the first replace it. -/
lemma writing_repeats (r : Ruling) (key : String) (earlier sayings : List Saying) :
    writing (.override r key) (repeats earlier sayings)
      = if writing (.override r key) earlier = [] then (writing (.override r key) sayings).tail
        else writing (.override r key) sayings := by
  induction sayings generalizing earlier with
  | nil => simp [repeats, writing]
  | cons s rest ih =>
      have hearlier : writing (.override r key) (earlier ++ [s])
          = writing (.override r key) earlier ++ writing (.override r key) [s] :=
        List.filter_append ..
      by_cases hs : s.directive.override? = some (r, key)
      · have hreplaces : replaces earlier s = true ↔ writing (.override r key) earlier ≠ [] := by
          simp [replaces, hs, writing_override, List.filter_eq_nil_iff]
        have hone : writing (.override r key) [s] = [s] := by simp [writing_override, hs]
        have hcons : ∀ l, writing (.override r key) (s :: l) = s :: writing (.override r key) l :=
          fun l => by simp [writing_override, hs]
        rw [repeats, hcons]
        split
        · rename_i h
          rw [hcons, ih, hearlier, hone, if_neg (by simp), if_neg (hreplaces.1 h)]
        · rename_i h
          rw [ih, hearlier, hone, if_neg (by simp), if_pos (by simpa [hreplaces] using h),
            List.tail_cons]
      · have hone : writing (.override r key) [s] = [] := by simp [writing_override, hs]
        have hcons : ∀ l, writing (.override r key) (s :: l) = writing (.override r key) l :=
          fun l => by simp [writing_override, hs]
        rw [repeats, hcons, apply_ite (writing (.override r key)), hcons, ite_self, ih, hearlier,
          hone, List.append_nil]

/-- Only overrides replace something. -/
lemma override?_of_mem_repeats {earlier sayings : List Saying} {s : Saying}
    (hs : s ∈ repeats earlier sayings) : s.directive.override? ≠ none := by
  induction sayings generalizing earlier with
  | nil => exact absurd hs List.not_mem_nil
  | cons t rest ih =>
      rw [repeats] at hs
      split at hs
      · rename_i h
        rcases List.mem_cons.1 hs with rfl | hs
        · intro hnone
          simp [replaces, hnone] at h
        · exact ih hs
      · exact ih hs

/-- Lists with the same items in the same order for every mark are the same up to order. -/
lemma perm_of_filter_eq {α β : Type} [DecidableEq β] (mark : α → β) {a b : List α}
    (h : ∀ m, a.filter (fun x => mark x = m) = b.filter (fun x => mark x = m)) : a.Perm b := by
  classical
  refine List.perm_iff_count.2 fun x => ?_
  have hcount : ∀ l : List α, (l.filter fun y => mark y = mark x).count x = l.count x :=
    fun l => List.count_filter (by simp)
  rw [← hcount a, ← hcount b, h]

/-- **Directives with the same order in every slot replace the same overrides.** -/
lemma SameOrder.repeats_perm {a b : List Saying} (same : SameOrder a b) :
    (repeats [] a).Perm (repeats [] b) := by
  refine perm_of_filter_eq (fun s => s.directive.override?) fun m => ?_
  cases m with
  | none =>
      have hnone : ∀ l : List Saying,
          (repeats [] l).filter (fun s => s.directive.override? = none) = [] := fun l =>
        List.filter_eq_nil_iff.2 fun s hs => by simpa using override?_of_mem_repeats hs
      rw [hnone, hnone]
  | some o =>
      obtain ⟨r, key⟩ := o
      rw [← writing_override, ← writing_override, writing_repeats, writing_repeats, same]

/-! ## Lines -/

variable (valid : List String)

/-- What all lines warn about: each on its own account, and those that replace an override. -/
lemma warnings_perm (before lines : List Annotation) :
    (warnings valid before lines).Perm
      ((lines.flatMap fun line => (line.directive valid).outcome.diagnostics)
        ++ (repeats (said valid before) (said valid lines)).filterMap Saying.replacing?) := by
  induction lines generalizing before with
  | nil => exact .refl _
  | cons line rest ih =>
      have hrepeats : (repeats (said valid before) (said valid (line :: rest))).filterMap
            Saying.replacing?
          = ((saying? valid line).bind (replacement? (said valid before))).toList
            ++ (repeats (said valid (before ++ [line])) (said valid rest)).filterMap
              Saying.replacing? := by
        rw [said_append]
        cases hs : saying? valid line with
        | none =>
            have hcons : ∀ l, said valid (line :: l) = said valid l := fun l =>
              List.filterMap_cons_none hs
            have hnil : said valid [] = [] := rfl
            simp [hcons, hnil]
        | some s =>
            have hcons : ∀ l, said valid (line :: l) = s :: said valid l := fun l =>
              List.filterMap_cons_some hs
            have hnil : said valid [] = [] := rfl
            rw [hcons, hcons, hnil, repeats, Option.bind_some, replacement?_eq]
            split
            · rw [List.filterMap_cons]
              cases s.replacing? <;> rfl
            · rfl
      rw [warnings, warningsOf, List.flatMap_cons, hrepeats, List.append_assoc, List.append_assoc]
      refine List.Perm.append_left _ ?_
      exact ((ih _).append_left _).trans (List.perm_append_comm_assoc _ _ _)

/-- A line writes a slot. -/
def writes (slot : Slot) (line : Annotation) : Bool :=
  (saying? valid line).any fun s => s.directive.slot? = some slot

lemma said_filter_writes (slot : Slot) (lines : List Annotation) :
    said valid (lines.filter (writes valid slot)) = writing slot (said valid lines) := by
  rw [said, said, writing, List.filterMap_filter, List.filter_filterMap]
  congr 1
  funext line
  rw [writes]
  cases saying? valid line with
  | none => simp
  | some s => by_cases h : s.directive.slot? = some slot <;> simp [Option.filter, h]

/-- Two lists of lines are read alike: both are accepted or both refused, and if they are accepted
they say the same and warn about the same. -/
structure SameReading (a b : List Annotation) : Prop where
  accepted : (∃ i, (ofLines valid a).outcome.value = .ok i)
    ↔ ∃ i, (ofLines valid b).outcome.value = .ok i
  instructions : ∀ i, (ofLines valid a).outcome.value = .ok i →
    (ofLines valid b).outcome.value = .ok i
  warnings : ∀ i, (ofLines valid a).outcome.value = .ok i →
    (ofLines valid a).outcome.diagnostics.Perm (ofLines valid b).outcome.diagnostics

variable {valid} {a b : List Annotation}

/-- A line for another slot is kept when the lines for the case rule are taken out. -/
lemma filter_writes_of_ne {slot : Slot} (hslot : slot ≠ .caseRule) (lines : List Annotation) :
    (lines.filter (!writes valid .caseRule ·)).filter (writes valid slot)
      = lines.filter (writes valid slot) := by
  rw [List.filter_filter]
  congr 1
  funext line
  rw [writes, writes]
  cases saying? valid line with
  | none => rfl
  | some s =>
      by_cases h : s.directive.slot? = some slot <;> simp [h, hslot]

lemma sameOrder_said
    (same : ∀ slot, a.filter (writes valid slot) = b.filter (writes valid slot)) :
    SameOrder (said valid a) (said valid b) := fun slot => by
  rw [← said_filter_writes, ← said_filter_writes, same]

/-- **Lines in another order that keep the order within every slot are read alike.** -/
lemma sameReading_of_perm (perm : a.Perm b)
    (same : ∀ slot, a.filter (writes valid slot) = b.filter (writes valid slot)) :
    SameReading valid a b := by
  have hsaid := sameOrder_said same
  have haccepted : (∀ line ∈ a, line.IsAccepted valid) ↔ ∀ line ∈ b, line.IsAccepted valid :=
    forall_congr' fun line => imp_congr_left perm.mem_iff
  have hcontradict : Contradict valid a ↔ Contradict valid b :=
    and_congr (exists_congr fun line => and_congr_left fun _ => perm.mem_iff) (by
      rw [hsaid.last?_eq Directive.style? .style fun | .style _, _, rfl => rfl])
  have hiff : (∃ i, (ofLines valid a).outcome.value = .ok i)
      ↔ ∃ i, (ofLines valid b).outcome.value = .ok i := by
    rw [ofLines_isOk_iff, ofLines_isOk_iff, haccepted, hcontradict]
  have hleaves : ∀ i, (ofLines valid a).outcome.value = .ok i →
      Leaves (ofLines valid a) (.ok i) (Instructions.warnings valid [] a)
        ∧ Leaves (ofLines valid b) (.ok i) (Instructions.warnings valid [] b) := by
    intro i hi
    obtain ⟨hall, hfree⟩ := ofLines_isOk_iff.1 ⟨i, hi⟩
    have ha := ofLines_of_accepted hall hfree
    have hb := ofLines_of_accepted (haccepted.1 hall) (mt hcontradict.2 hfree)
    obtain rfl := Except.ok.inj (ha.value.symm.trans hi)
    exact ⟨ha, hsaid.ofSaid_eq ▸ hb⟩
  refine ⟨hiff, fun i hi => (hleaves i hi).2.value, fun i hi => ?_⟩
  obtain ⟨ha, hb⟩ := hleaves i hi
  rw [ha.diagnostics, hb.diagnostics]
  have hrepeats : ((repeats [] (said valid a)).filterMap Saying.replacing?).Perm
      ((repeats [] (said valid b)).filterMap Saying.replacing?) := hsaid.repeats_perm.filterMap _
  exact (warnings_perm valid [] a).trans
    (((perm.flatMap_right _).append hrepeats).trans (warnings_perm valid [] b).symm)

/-- **The order of lines does not matter** beyond the order within every slot; lines for the case
rule may be moved past all others. -/
theorem order_independent (valid : List String) (a b : List Annotation) :
    (a.Perm b → (∀ slot, a.filter (writes valid slot) = b.filter (writes valid slot)) →
        SameReading valid a b)
      ∧ (a.filter (writes valid .caseRule) = b.filter (writes valid .caseRule) →
          a.filter (!writes valid .caseRule ·) = b.filter (!writes valid .caseRule ·) →
            SameReading valid a b) := by
  refine ⟨sameReading_of_perm, fun hcase hother => sameReading_of_perm ?_ fun slot => ?_⟩
  · have hparts := fun lines => List.filter_append_perm (writes valid .caseRule) lines
    exact (hparts a).symm.trans (hcase ▸ hother ▸ hparts b)
  · by_cases hslot : slot = .caseRule
    · rw [hslot, hcase]
    · rw [← filter_writes_of_ne hslot a, hother, filter_writes_of_ne hslot b]

/-- The case rule holds for the patterns behind it and for those in front of it. -/
theorem case_rule_behind_patterns :
    let valid := DirectiveForm.methodNames
    let line (text : String) : Annotation := ⟨text, ⟨"pets.rs", 1, 1⟩⟩
    let a := [line ":case:off", line ":skip EMAIL", line ":map id user", line ":map name user"]
    let b := [line ":skip EMAIL", line ":map id user", line ":case:off", line ":map name user"]
    SameReading valid a b
      ∧ ∃ i, (ofLines valid a).outcome.value = .ok i ∧ (ofLines valid b).outcome.value = .ok i
        ∧ i.skipped "email" = true := by
  intro valid line a b
  have same := (order_independent valid a b).2 (by decide +kernel) (by decide +kernel)
  have ha := ofLines_eq_ok valid a (by decide +kernel)
  exact ⟨same, _, ha, same.instructions _ ha, by decide +kernel⟩

end Instructions

end FieldCopy
