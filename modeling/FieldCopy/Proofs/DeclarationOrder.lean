import Mathlib
import FieldCopy.Proofs.Isolation

/-!
# The order of declaration does not matter

A conversion of slices is planned with what is known of its delegate, and what is known is what was
planned before.  If the delegate is not a conversion of slices itself, it is known in time, wherever
it is declared.

**What is known in time.**  The conversions that are not element-wise are planned first and ask for
no sibling, so all orders of declaration lead to one table of what is known of them
(`SourceUnit.inTime`).  Planned with this table alone, every method becomes what it becomes in the
file (`SourceUnit.entry_eq`).

**Main statement.**  `SourceUnit.Reordered.shares`: one function says what a file has of a method,
whichever order the methods are declared in.
-/

namespace FieldCopy

/-- A table does not depend on the order in which it is filled, if no key is given two values. -/
lemma Keyed.ofList_congr {α : Type} {l l' : List (String × α)} (hmem : ∀ e, e ∈ l ↔ e ∈ l')
    (unique : ∀ a ∈ l, ∀ b ∈ l, a.1 = b.1 → a = b) : ofList l = ofList l' := by
  refine ext_find? fun key => ?_
  by_cases hkey : ∃ value, (key, value) ∈ l
  · obtain ⟨value, hvalue⟩ := hkey
    have hunique : ∀ other, (key, other) ∈ l → other = value := fun other hother =>
      congrArg Prod.snd (unique _ hother _ hvalue rfl)
    rw [find?_ofList_of_unique hvalue hunique, find?_ofList_of_unique ((hmem _).1 hvalue)
      fun other hother => hunique other ((hmem _).2 hother)]
  · have hkey' : ¬ ∃ value, (key, value) ∈ l' := by simpa only [hmem] using hkey
    rw [← contains_ofList_iff, contains, Option.not_isSome_iff_eq_none] at hkey hkey'
    rw [hkey, hkey']

namespace Generation

variable {c : Catalog} {s t : Keyed Bool} {e : Entry}

namespace Entry

/-- **A settled entry is what planning makes of it**, with any table that knows as much of its
delegate. -/
lemma Settled.eq_planEntry (h : e.Settled c s)
    (hfind : ∀ name, e.delegate? c = some name → s.find? name = t.find? name) :
    e = (planEntry c t e.unplanned).1 := by
  have hplanned := h.planned
  rw [planEntry, unplanned]
  cases hp : e.prepared.value with
  | none =>
      rw [hp, Option.map_none] at hplanned
      rw [← hplanned]
  | some p =>
      rw [hp, Option.map_some, planning_congr hp hfind] at hplanned
      simp only
      rw [← hplanned]

/-- What siblings that are planned later know of an entry. -/
def memory? (e : Entry) : Option (String × Bool) :=
  e.plan?.map fun plan => (e.declaration.name, plan.fallible || e.declaration.fallible)

lemma foldl_remember (es : List Entry) :
    es.foldl remember .empty = Keyed.ofList (es.filterMap memory?) := by
  rw [← Keyed.foldl_insert]
  congr 1
  funext s e
  rw [remember, memory?]
  cases e.plan? <;> rfl

/-- Among entries with distinct names, no two are known under one name. -/
lemma filterMap_unique {α : Type} {item? : Entry → Option (String × α)}
    (hname : ∀ e a, item? e = some a → a.1 = e.declaration.name) {es : List Entry}
    (distinct : (es.map fun e => e.declaration.name).Nodup) :
    ∀ a ∈ es.filterMap item?, ∀ b ∈ es.filterMap item?, a.1 = b.1 → a = b := by
  intro a ha b hb hab
  obtain ⟨d, hd, hda⟩ := List.mem_filterMap.1 ha
  obtain ⟨e, he, heb⟩ := List.mem_filterMap.1 hb
  rw [hname d a hda, hname e b heb] at hab
  obtain rfl := List.inj_on_of_nodup_map distinct hd he hab
  exact Option.some.inj (hda.symm.trans heb)

end Entry

end Generation

namespace SourceUnit

open Generation

/-! ## What is known in time -/

/-- The methods of a unit before planning, in the order of declaration. -/
def fresh (unit : SourceUnit) : List Entry := unit.annotated.map fun m => Entry.of m.1 m.2

/-- The conversions that do not convert elements, planned without siblings. -/
def plain (unit : SourceUnit) : List Entry :=
  (unit.fresh.filter fun e => !isElementwise unit.catalog e).map fun e =>
    (planEntry unit.catalog .empty e).1

/-- What is known of delegates before elements are converted. -/
def inTime (unit : SourceUnit) : Keyed Bool := Keyed.ofList (unit.plain.filterMap Entry.memory?)

/-- The names of the methods are distinct. -/
def Distinct (unit : SourceUnit) : Prop := (unit.annotated.map fun m => m.2.name).Nodup

/-- No method that converts elements names another one that does as its delegate. -/
def Apart (unit : SourceUnit) : Prop :=
  ∀ e ∈ unit.fresh, ∀ d ∈ unit.fresh, e.delegate? unit.catalog = some d.declaration.name →
    isElementwise unit.catalog d = true → d.declaration.name = e.declaration.name

variable {unit : SourceUnit}

lemma fresh_names (unit : SourceUnit) :
    unit.fresh.map (fun e => e.declaration.name) = unit.annotated.map fun m => m.2.name := by
  rw [fresh, List.map_map]
  rfl

lemma unplanned_mem_fresh {e : Entry} (he : e ∈ unit.entries) : e.unplanned ∈ unit.fresh := by
  rw [fresh, ← unit.entries_unplanned]
  exact List.mem_map_of_mem he

lemma entries_names (unit : SourceUnit) :
    unit.entries.map (fun e => e.declaration.name) = unit.annotated.map fun m => m.2.name := by
  rw [← unit.entries_declarations, List.map_map]
  rfl

/-- The entries that do not convert elements need no siblings. -/
lemma plain_eq (unit : SourceUnit) :
    (unit.entries.filter fun e => !isElementwise unit.catalog e) = unit.plain := by
  have hentry : ∀ e ∈ unit.entries.filter fun e => !isElementwise unit.catalog e,
      e = (planEntry unit.catalog .empty e.unplanned).1 := by
    intro e he
    obtain ⟨hmem, hplain⟩ := List.mem_filter.1 he
    obtain ⟨siblings, hsettled⟩ := unit.entry_settled hmem
    refine hsettled.eq_planEntry fun name hname => ?_
    rw [Entry.delegate?, if_neg (by simpa using hplain)] at hname
    exact absurd hname (by simp)
  have hfilter : unit.fresh.filter (fun e => !isElementwise unit.catalog e)
      = (unit.entries.filter fun e => !isElementwise unit.catalog e).map Entry.unplanned := by
    rw [fresh, ← unit.entries_unplanned, List.filter_map]
    rfl
  rw [plain, hfilter, List.map_map]
  exact (List.map_id _).symm.trans (List.map_congr_left hentry)

/-- **Every method is planned as if only those were known that do not convert elements.** -/
lemma entry_eq (distinct : unit.Distinct) (apart : unit.Apart) {e : Entry}
    (he : e ∈ unit.entries) : e = (planEntry unit.catalog unit.inTime e.unplanned).1 := by
  cases helementwise : isElementwise unit.catalog e with
  | false =>
      obtain ⟨siblings, hsettled⟩ := unit.entry_settled he
      refine hsettled.eq_planEntry fun name hname => ?_
      rw [Entry.delegate?, helementwise] at hname
      exact absurd hname (by simp)
  | true =>
      obtain ⟨front, back, hsplit⟩ := List.append_of_mem (List.mem_filter.2 ⟨he, helementwise⟩)
      have horder : planOrder unit.catalog unit.entries
          = (unit.plain ++ front) ++ e :: back := by
        rw [planOrder, plain_eq, hsplit, List.append_assoc]
      refine (unit.entries_inTurn.settled horder).eq_planEntry fun name hname => ?_
      rw [List.foldl_append, Entry.foldl_remember]
      -- no entry between the plain ones and this one is its delegate
      refine Entry.find?_remember_of_notMem front _ fun hmem => ?_
      obtain ⟨d, hd, rfl⟩ := List.mem_map.1 hmem
      obtain ⟨hdmem, hdelementwise⟩ := List.mem_filter.1
        (hsplit ▸ List.mem_append_left _ hd : d ∈ unit.entries.filter (isElementwise unit.catalog))
      have hsame := apart _ (unplanned_mem_fresh he) _ (unplanned_mem_fresh hdmem) hname
        hdelementwise
      have hnodup := unit.planOrder_names distinct
      rw [horder, List.map_append, List.nodup_append] at hnodup
      exact hnodup.2.2 _ (List.mem_map_of_mem (List.mem_append_right _ hd)) _
        (List.mem_cons_self) hsame

/-! ## Shares -/

/-- What the file of a unit has of a method. -/
def share (unit : SourceUnit) (m : String × Declaration) : Share :=
  (planEntry unit.catalog unit.inTime (Entry.of m.1 m.2)).1.share unit.catalog
    (callShapes unit.fresh)

lemma callShapes_entries (unit : SourceUnit) : callShapes unit.entries = callShapes unit.fresh := by
  rw [← callShapes_unplanned, unit.entries_unplanned, fresh]

/-- **What a file has of its methods depends on nothing but the methods and what is known in
time.** -/
lemma shares_eq (distinct : unit.Distinct) (apart : unit.Apart) :
    unit.shares = unit.annotated.map unit.share := by
  have hentries : unit.entries = unit.fresh.map fun e =>
      (planEntry unit.catalog unit.inTime e).1 := by
    rw [fresh, ← unit.entries_unplanned, List.map_map]
    exact (List.map_id _).symm.trans
      (List.map_congr_left fun e he => unit.entry_eq distinct apart he)
  rw [shares, callShapes_entries, hentries, fresh, List.map_map, List.map_map]
  rfl

end SourceUnit

/-! ## Other orders -/

/-- An interface with its methods in another order. -/
structure Interface.Reordered (i j : Interface) : Prop where
  name : j.name = i.name
  position : j.position = i.position
  lines : j.lines = i.lines
  methods : j.methods.Perm i.methods

lemma Interface.counted_perm {is js : List Interface}
    (h : List.Forall₂ Interface.Reordered is js) : (Hole.counted js).Perm (Hole.counted is) := by
  rw [Hole.counted, Hole.counted]
  induction h with
  | nil => exact .refl _
  | @cons i j is js hij _ ih =>
      have hreadable : j.isReadable = i.isReadable := by
        rw [Interface.isReadable, Interface.isReadable, hij.lines]
      have hmethods := hij.methods.map fun m => (i.name, m)
      rw [List.filter_cons, List.filter_cons, hreadable]
      split
      · rw [List.flatMap_cons, List.flatMap_cons, hij.name]
        exact hmethods.append ih
      · exact ih

namespace SourceUnit

open Generation

/-- A unit with the methods of its interfaces in another order. -/
structure Reordered (u v : SourceUnit) : Prop where
  file : v.file = u.file
  catalog : v.catalog = u.catalog
  interfaces : List.Forall₂ Interface.Reordered u.interfaces v.interfaces
  uses : v.uses = u.uses

namespace Reordered

variable {u v : SourceUnit} (h : u.Reordered v)

include h

/-- The methods that count are the same, in another order. -/
lemma annotated : v.annotated.Perm u.annotated := Interface.counted_perm h.interfaces

lemma fresh : v.fresh.Perm u.fresh := h.annotated.map _

lemma distinct (hu : u.Distinct) : v.Distinct := (h.annotated.map _).nodup_iff.2 hu

lemma apart (hu : u.Apart) : v.Apart := by
  intro e he d hd
  rw [h.catalog]
  exact hu e (h.fresh.mem_iff.1 he) d (h.fresh.mem_iff.1 hd)

lemma plain : v.plain.Perm u.plain := by
  rw [SourceUnit.plain, SourceUnit.plain, h.catalog]
  exact (h.fresh.filter _).map _

/-- As much is known in time. -/
lemma inTime (hu : u.Distinct) : v.inTime = u.inTime := by
  have hplain := h.plain
  have hnames : ((v.plain).map fun e => e.declaration.name).Nodup := by
    have hsub := (List.filter_sublist
      (p := fun e => !isElementwise v.catalog e) (l := v.entries)).map
        fun e : Entry => e.declaration.name
    rw [plain_eq] at hsub
    refine hsub.nodup ?_
    rw [v.entries_names]
    exact h.distinct hu
  refine Keyed.ofList_congr (fun e => (hplain.filterMap _).mem_iff)
    (Entry.filterMap_unique (fun e a ha => ?_) hnames)
  obtain ⟨plan, -, rfl⟩ := Option.map_eq_some_iff.1 ha
  rfl

lemma callShapes (hu : u.Distinct) : callShapes v.fresh = callShapes u.fresh := by
  refine Keyed.ofList_congr (fun e => (h.fresh.filterMap _).mem_iff)
    (Entry.filterMap_unique (fun e a ha => ?_) ?_)
  · obtain ⟨p, -, rfl⟩ := Option.map_eq_some_iff.1 ha
    rfl
  · rw [v.fresh_names]
    exact h.distinct hu

lemma share (hu : u.Distinct) : v.share = u.share := by
  funext m
  rw [SourceUnit.share, SourceUnit.share, h.catalog, h.inTime hu, h.callShapes hu]

/-- **The order of declaration does not matter.**  The reports of a file are those of its methods in
the order of declaration, and in another order every method has the same report, the same
diagnostics and the same function. -/
theorem shares (distinct : u.Distinct) (apart : u.Apart) (options : GenerationOptions) :
    v.annotated.Perm u.annotated
      ∧ u.ConsistsOfShares options (u.generate options).value
      ∧ v.ConsistsOfShares options (v.generate options).value
      ∧ u.shares = u.annotated.map u.share ∧ v.shares = v.annotated.map u.share :=
  ⟨h.annotated, u.generate_consistsOfShares options, v.generate_consistsOfShares options,
    shares_eq distinct apart,
    h.share distinct ▸ shares_eq (h.distinct distinct) (h.apart apart)⟩

end Reordered

/-- The list of pets is converted behind the pet. -/
def petsLast : SourceUnit :=
  { pets with interfaces := pets.interfaces.map fun i => { i with methods := i.methods.reverse } }

/-- The methods have the same shares with the pets last. -/
theorem pets_reordered_shares :
    petsLast.annotated.Perm pets.annotated ∧ pets.shares = pets.annotated.map pets.share
      ∧ petsLast.shares = petsLast.annotated.map pets.share := by
  have hreordered : pets.Reordered petsLast :=
    ⟨rfl, rfl, .cons ⟨rfl, rfl, rfl, List.reverse_perm _⟩ .nil, rfl⟩
  have h := hreordered.shares (by unfold Distinct; decide) (by
    unfold Apart
    decide +kernel) .default
  exact ⟨h.1, h.2.2.2⟩

end SourceUnit

end FieldCopy
