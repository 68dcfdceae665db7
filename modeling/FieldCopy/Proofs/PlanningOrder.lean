import Mathlib
import FieldCopy.Proofs.Recording

/-!
# The order of planning

`Generation.planAll` goes over the methods of a unit twice and hands a table of siblings from one
method to the next.  Here this is brought into one picture.

**In turn.**  A list of entries is planned *in turn* if each of them is settled with the siblings
that the entries in front of it leave behind (`InTurn`).  One pass plans the entries it is about in
turn and leaves the others alone (`planPass_inTurn`), so that the two passes together plan all
entries in turn, in the order `planOrder`: `planAll_inTurn`, `SourceUnit.entries_inTurn`.

**Nothing but plans changes.**  Interface, declaration and preparation of an entry are those it
started with, and the order of the entries is that of the declarations (`entries_unplanned`).
-/

namespace FieldCopy

namespace Generation

namespace Entry

/-- The siblings of the entries that follow an entry. -/
def remember (siblings : Keyed Bool) (e : Entry) : Keyed Bool :=
  match e.plan? with
  | some plan => siblings.insert e.declaration.name (plan.fallible || e.declaration.fallible)
  | none => siblings

/-- An entry as it was before planning. -/
def unplanned (e : Entry) : Entry := { e with planned := none }

/-- Nothing has happened to an entry but its preparation. -/
def Fresh (e : Entry) : Prop := e = Entry.of e.interface e.declaration

/-- An entry was prepared, and planned with these siblings if it could be prepared. -/
structure Settled (c : Catalog) (siblings : Keyed Bool) (e : Entry) : Prop where
  prepared :
    e.prepared = orOmit e.declaration.name e.declaration.position (prepare e.declaration)
  planned :
    e.planned = e.prepared.value.map fun p =>
      orOmit e.declaration.name e.declaration.position (planning c siblings e.declaration p)

@[simp] lemma unplanned_interface (e : Entry) : e.unplanned.interface = e.interface := rfl

@[simp] lemma unplanned_declaration (e : Entry) : e.unplanned.declaration = e.declaration := rfl

lemma fresh_of (interface : String) (m : Declaration) : (Entry.of interface m).Fresh := rfl

lemma Fresh.prepared {e : Entry} (h : e.Fresh) :
    e.prepared = orOmit e.declaration.name e.declaration.position (prepare e.declaration) := by
  rw [h]
  rfl

lemma Fresh.planned {e : Entry} (h : e.Fresh) : e.planned = none := by
  rw [h]
  rfl

end Entry

variable (c : Catalog)

/-- Each entry is settled with the siblings that those in front of it leave behind. -/
inductive InTurn : Keyed Bool → List Entry → Prop
  | nil (s : Keyed Bool) : InTurn s []
  | cons {s : Keyed Bool} {e : Entry} {rest : List Entry} :
      e.Settled c s → InTurn (e.remember s) rest → InTurn s (e :: rest)

section

variable {c}

lemma InTurn.append {a b : List Entry} {s : Keyed Bool} (ha : InTurn c s a)
    (hb : InTurn c (a.foldl Entry.remember s) b) : InTurn c s (a ++ b) := by
  induction ha with
  | nil => exact hb
  | cons he _ ih => exact .cons he (ih hb)

lemma InTurn.settled {es : List Entry} {s : Keyed Bool} (h : InTurn c s es) {before after e}
    (hes : es = before ++ e :: after) :
    e.Settled c (before.foldl Entry.remember s) := by
  induction h generalizing before with
  | nil => simp at hes
  | cons he _ ih =>
      cases before with
      | nil =>
          obtain ⟨rfl, rfl⟩ := List.cons.inj hes
          exact he
      | cons d before =>
          obtain ⟨rfl, hrest⟩ := List.cons.inj hes
          exact ih hrest

end

/-! ## One entry -/

lemma planEntry_snd (s : Keyed Bool) {e : Entry} (he : e.Fresh) :
    (planEntry c s e).2 = (planEntry c s e).1.remember s := by
  have hnone : e.planned = none := he.planned
  rw [planEntry, Entry.remember, Entry.plan?]
  cases hp : e.prepared.value with
  | none => simp [hnone]
  | some p => rfl

lemma planEntry_unplanned (s : Keyed Bool) (e : Entry) :
    (planEntry c s e).1.unplanned = e.unplanned := by
  rw [planEntry]
  split <;> rfl

lemma planEntry_settled (s : Keyed Bool) {e : Entry} (he : e.Fresh) :
    (planEntry c s e).1.Settled c s := by
  have hprep := he.prepared
  have hnone := he.planned
  rw [planEntry]
  cases hp : e.prepared.value with
  | none => exact ⟨hprep, by rw [hp, hnone]; rfl⟩
  | some p => exact ⟨hprep, by simp [hp]⟩

lemma isElementwise_unplanned (e : Entry) : isElementwise c e.unplanned = isElementwise c e := rfl

lemma isElementwise_planEntry (s : Keyed Bool) (e : Entry) :
    isElementwise c (planEntry c s e).1 = isElementwise c e := by
  rw [← isElementwise_unplanned, planEntry_unplanned, isElementwise_unplanned]

/-! ## A pass -/

lemma planPass_cons_pos {b : Bool} {e : Entry} (h : isElementwise c e = b) (s : Keyed Bool)
    (rest : List Entry) :
    planPass c b s (e :: rest)
      = ((planEntry c s e).1 :: (planPass c b (planEntry c s e).2 rest).1,
          (planPass c b (planEntry c s e).2 rest).2) := by
  simp [planPass, h]

lemma planPass_cons_neg {b : Bool} {e : Entry} (h : isElementwise c e ≠ b) (s : Keyed Bool)
    (rest : List Entry) :
    planPass c b s (e :: rest) = (e :: (planPass c b s rest).1, (planPass c b s rest).2) := by
  simp [planPass, h]

/-- **A pass changes nothing but plans.** -/
lemma planPass_unplanned (b : Bool) : ∀ (s : Keyed Bool) (es : List Entry),
    (planPass c b s es).1.map Entry.unplanned = es.map Entry.unplanned
  | _, [] => rfl
  | s, e :: rest => by
      by_cases h : isElementwise c e = b
      · rw [planPass_cons_pos c h, List.map_cons, List.map_cons, planEntry_unplanned,
          planPass_unplanned b _ rest]
      · rw [planPass_cons_neg c h, List.map_cons, List.map_cons, planPass_unplanned b _ rest]

/-- The entries that a pass is not about stay as they are. -/
lemma planPass_others (b : Bool) : ∀ (s : Keyed Bool) (es : List Entry),
    (planPass c b s es).1.filter (fun e => isElementwise c e != b)
      = es.filter fun e => isElementwise c e != b
  | _, [] => rfl
  | s, e :: rest => by
      by_cases h : isElementwise c e = b
      · have h' : isElementwise c (planEntry c s e).1 = b :=
          (isElementwise_planEntry c s e).trans h
        rw [planPass_cons_pos c h, List.filter_cons_of_neg (by simp [h']),
          List.filter_cons_of_neg (by simp [h]), planPass_others b _ rest]
      · rw [planPass_cons_neg c h, List.filter_cons_of_pos (by simp [h]),
          List.filter_cons_of_pos (by simp [h]), planPass_others b _ rest]

/-- **The entries that a pass is about are planned in turn.** -/
lemma planPass_inTurn (b : Bool) : ∀ (s : Keyed Bool) (es : List Entry),
    (∀ e ∈ es, isElementwise c e = b → e.Fresh) →
      InTurn c s ((planPass c b s es).1.filter fun e => isElementwise c e == b)
        ∧ (planPass c b s es).2
          = ((planPass c b s es).1.filter fun e => isElementwise c e == b).foldl Entry.remember s
  | s, [], _ => ⟨.nil s, rfl⟩
  | s, e :: rest, hfresh => by
      have hrest : ∀ e ∈ rest, isElementwise c e = b → e.Fresh :=
        fun d hd => hfresh d (List.mem_cons_of_mem _ hd)
      by_cases h : isElementwise c e = b
      · have he : e.Fresh := hfresh e List.mem_cons_self h
        have h' : isElementwise c (planEntry c s e).1 = b :=
          (isElementwise_planEntry c s e).trans h
        obtain ⟨hturn, hend⟩ := planPass_inTurn b (planEntry c s e).2 rest hrest
        rw [planPass_cons_pos c h, List.filter_cons_of_pos (by simp [h']), List.foldl_cons,
          ← planEntry_snd c s he]
        exact ⟨.cons (planEntry_settled c s he) (planEntry_snd c s he ▸ hturn), hend⟩
      · rw [planPass_cons_neg c h, List.filter_cons_of_neg (by simp [h])]
        exact planPass_inTurn b s rest hrest

/-! ## All entries -/

lemma planAll_unplanned (es : List Entry) :
    (planAll c es).map Entry.unplanned = es.map Entry.unplanned := by
  rw [planAll, planPass_unplanned, planPass_unplanned]

/-- **All entries are planned in turn.** -/
theorem planAll_inTurn {es : List Entry} (hfresh : ∀ e ∈ es, e.Fresh) :
    InTurn c .empty (planOrder c (planAll c es)) := by
  obtain ⟨hplain, hs⟩ := planPass_inTurn c false .empty es fun e he _ => hfresh e he
  have hothers := planPass_others c false .empty es
  have hkept := planPass_others c true (planPass c false .empty es).2 (planPass c false .empty es).1
  simp only [Bool.bne_false, Bool.bne_true, beq_false] at hplain hs hothers hkept
  have hlate : ∀ e ∈ (planPass c false .empty es).1, isElementwise c e = true → e.Fresh := by
    intro e he h
    have hmem : e ∈ es.filter (isElementwise c) := by
      rw [← hothers]
      exact List.mem_filter.2 ⟨he, h⟩
    exact hfresh e (List.mem_filter.1 hmem).1
  have hsecond := (planPass_inTurn c true (planPass c false .empty es).2 _ hlate).1
  simp only [beq_true] at hsecond
  rw [planOrder, planAll, hkept]
  exact hplain.append (hs ▸ hsecond)

end Generation

/-! ## The entries of a unit -/

/-- Whether the lines of an interface are without fault, so that its methods count. -/
def Interface.isReadable (i : Interface) : Bool :=
  (Instructions.ofLines DirectiveForm.interfaceNames i.lines).outcome.value.isOk

namespace SourceUnit

open Generation

/-- The methods that count, with the names of their interfaces, in the order of declaration. -/
def annotated (unit : SourceUnit) : List (String × Declaration) :=
  (unit.interfaces.filter Interface.isReadable).flatMap fun i =>
    i.methods.map fun m => (i.name, m)

lemma examine_own (i : Interface) : (examine i).own.value = i.isReadable := by
  rw [examine, Interface.isReadable, Journaled.value_map]
  exact isSome_orOmit _ _ _

lemma examine_entries (i : Interface) :
    (examine i).entries = if i.isReadable then i.methods.map (Entry.of i.name) else [] := by
  rw [← examine_own]
  rfl

/-- The entries of a unit before planning. -/
lemma examined_entries : ∀ is : List Interface,
    (is.map examine).flatMap Examined.entries
      = ((is.filter Interface.isReadable).flatMap fun i => i.methods.map fun m => (i.name, m)).map
          fun m => Entry.of m.1 m.2
  | [] => rfl
  | i :: is => by
      rw [List.map_cons, List.flatMap_cons, examined_entries is, examine_entries]
      by_cases h : i.isReadable = true
      · rw [List.filter_cons_of_pos h, List.flatMap_cons, List.map_append, List.map_map, if_pos h]
        rfl
      · rw [List.filter_cons_of_neg h, if_neg h, List.nil_append]

/-- **The entries are the methods that count, in the order of declaration.** -/
theorem entries_unplanned (unit : SourceUnit) :
    unit.entries.map Entry.unplanned = unit.annotated.map fun m => Entry.of m.1 m.2 := by
  rw [entries, planAll_unplanned, examined_entries, List.map_map]
  rfl

/-- The entries have the declarations of the methods that count. -/
lemma entries_declarations (unit : SourceUnit) :
    unit.entries.map (fun e => (e.interface, e.declaration)) = unit.annotated := by
  have h := congrArg (List.map fun e => (e.interface, e.declaration)) unit.entries_unplanned
  simpa only [List.map_map, Function.comp_def, Entry.unplanned_interface,
    Entry.unplanned_declaration, Entry.of, Prod.mk.eta, List.map_id'] using h

/-- **The entries are planned in turn.** -/
theorem entries_inTurn (unit : SourceUnit) :
    InTurn unit.catalog .empty (planOrder unit.catalog unit.entries) := by
  refine planAll_inTurn unit.catalog fun e he => ?_
  rw [examined_entries] at he
  obtain ⟨m, -, rfl⟩ := List.mem_map.1 he
  exact Entry.fresh_of m.1 m.2

lemma mem_planOrder {c : Catalog} {e : Entry} {es : List Entry} :
    e ∈ planOrder c es ↔ e ∈ es := by
  rw [planOrder, List.mem_append, List.mem_filter, List.mem_filter]
  cases isElementwise c e <;> simp

/-- Every entry is settled with some siblings. -/
lemma entry_settled (unit : SourceUnit) {e : Entry} (he : e ∈ unit.entries) :
    ∃ siblings, e.Settled unit.catalog siblings := by
  obtain ⟨before, after, h⟩ := List.append_of_mem (mem_planOrder (c := unit.catalog).2 he)
  exact ⟨_, unit.entries_inTurn.settled h⟩

end SourceUnit

end FieldCopy
