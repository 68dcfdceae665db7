import Mathlib
import FieldCopy.Proofs.DeclarationOrder
import FieldCopy.Proofs.KnownFailures

/-!
# Who a delegate is

The name of a delegate is looked up twice.  The planner wants to know whether the delegate can fail
and asks the siblings that are planned so far; the code that calls the delegate asks all siblings
that could be prepared.  The two need not find the same one.

**Tables are last entries.**  Both tables are filled in the order of some list of entries, so that
what they know of a name is what the last entry of this name tells (`Entry.find?_ofList`).

**Two readings.**  `SourceUnit.calledSibling?` is the sibling in whose form the delegate is called,
`SourceUnit.knownSibling?` the one that the planner takes its failures from.

**Main statement.**  `SourceUnit.delegate_readings`: with distinct names the readings agree exactly
if the called sibling has a plan and is not planned too late.  `SourceUnit.exists_misread` is a
sibling without a plan: the function of the same name that the planner found is called as if it were
the sibling.
-/

namespace FieldCopy

namespace Generation

variable {c : Catalog} {es : List Entry} {name : String} {d : Entry}

/-! ## Last entries -/

/-- The last entry with a name that passes a test. -/
def lastNamed? (test : Entry → Bool) (name : String) (es : List Entry) : Option Entry :=
  es.reverse.find? fun e => e.declaration.name == name && test e

lemma lastNamed?_concat (test : Entry → Bool) (name : String) (es : List Entry) (e : Entry) :
    lastNamed? test name (es ++ [e])
      = if e.declaration.name == name && test e then some e else lastNamed? test name es := by
  rw [lastNamed?, List.reverse_append, List.reverse_singleton, List.singleton_append,
    List.find?_cons]
  cases e.declaration.name == name && test e <;> rfl

lemma lastNamed?_mem {test : Entry → Bool} (h : lastNamed? test name es = some d) :
    d ∈ es ∧ d.declaration.name = name ∧ test d = true := by
  have htest := List.find?_some h
  rw [Bool.and_eq_true, beq_iff_eq] at htest
  exact ⟨List.mem_reverse.1 (List.mem_of_find?_eq_some h), htest⟩

/-- Among entries with distinct names, the last one with a name is the only one. -/
lemma lastNamed?_eq_some {test : Entry → Bool}
    (distinct : (es.map fun e => e.declaration.name).Nodup) (hd : d ∈ es)
    (hname : d.declaration.name = name) (htest : test d = true) :
    lastNamed? test name es = some d := by
  obtain ⟨e, he⟩ : ∃ e, lastNamed? test name es = some e := by
    refine Option.isSome_iff_exists.1 (List.find?_isSome.2 ⟨d, List.mem_reverse.2 hd, ?_⟩)
    rw [hname, htest, beq_self_eq_true, Bool.and_true]
  obtain ⟨hmem, hsame, -⟩ := lastNamed?_mem he
  rw [he, List.inj_on_of_nodup_map distinct hmem hd (hsame.trans hname.symm)]

namespace Entry

/-- **A table that entries fill knows of a name what the last entry of this name tells.** -/
lemma find?_ofList {α : Type} {item? : Entry → Option (String × α)}
    (hname : ∀ e a, item? e = some a → a.1 = e.declaration.name) (es : List Entry)
    (name : String) :
    (Keyed.ofList (es.filterMap item?)).find? name
      = (lastNamed? (fun e => (item? e).isSome) name es).bind fun e => (item? e).map (·.2) := by
  induction es using List.reverseRecOn with
  | nil => rfl
  | append_singleton es e ih =>
      rw [Keyed.find?_ofList] at ih ⊢
      rw [List.filterMap_append, List.filter_append, lastNamed?_concat]
      cases hitem : item? e with
      | none => simpa [hitem] using ih
      | some a =>
          by_cases hkey : e.declaration.name = name
          · simp [hitem, hkey, hname e a hitem]
          · simpa [hitem, hkey, hname e a hitem] using ih

/-- How a prepared entry is called. -/
def shape? (e : Entry) : Option CallShape :=
  e.prepared.value.map fun p => CallShape.of p.instructions p.endpoints

/-- Whether a planned entry can fail. -/
def fails? (e : Entry) : Option Bool :=
  e.plan?.map fun plan => plan.fallible || e.declaration.fallible

end Entry

lemma find?_callShapes (es : List Entry) (name : String) :
    (callShapes es).find? name
      = (lastNamed? (fun e => e.prepared.value.isSome) name es).bind Entry.shape? := by
  have htest : (fun e : Entry => e.sibling?.isSome) = fun e => e.prepared.value.isSome := by
    funext e
    exact Option.isSome_map
  have hname : ∀ e a, Entry.sibling? e = some a → a.1 = e.declaration.name := by
    intro e a ha
    obtain ⟨p, -, rfl⟩ := Option.map_eq_some_iff.1 ha
    rfl
  rw [callShapes, Entry.find?_ofList hname, htest]
  congr 1
  funext e
  rw [Entry.sibling?, Entry.shape?, Option.map_map]
  rfl

lemma find?_foldl_remember (es : List Entry) (name : String) :
    (es.foldl Entry.remember .empty).find? name
      = (lastNamed? (fun e => e.plan?.isSome) name es).bind Entry.fails? := by
  have htest : (fun e : Entry => e.memory?.isSome) = fun e => e.plan?.isSome := by
    funext e
    exact Option.isSome_map
  have hname : ∀ e a, Entry.memory? e = some a → a.1 = e.declaration.name := by
    intro e a ha
    obtain ⟨plan, -, rfl⟩ := Option.map_eq_some_iff.1 ha
    rfl
  rw [Entry.foldl_remember, Entry.find?_ofList hname, htest]
  congr 1
  funext e
  rw [Entry.memory?, Entry.fails?, Option.map_map]
  rfl

/-! ## What is planned before -/

/-- The entries that are planned before one that converts elements, given those in front of it. -/
def plannedBefore (c : Catalog) (es front : List Entry) : List Entry :=
  es.filter (fun e => !isElementwise c e) ++ front.filter (isElementwise c)

lemma planOrder_append {front back : List Entry} {e : Entry} (h : isElementwise c e = true) :
    planOrder c (front ++ e :: back)
      = plannedBefore c (front ++ e :: back) front ++ e :: back.filter (isElementwise c) := by
  rw [planOrder, plannedBefore, List.append_assoc, List.filter_append (p := isElementwise c),
    List.filter_cons_of_pos h]

lemma mem_plannedBefore {front : List Entry} (hfront : front ⊆ es) :
    d ∈ plannedBefore c es front ↔ d ∈ es ∧ (isElementwise c d = true → d ∈ front) := by
  rw [plannedBefore, List.mem_append, List.mem_filter, List.mem_filter]
  cases isElementwise c d
  · simp
  · simpa using fun hd => hfront hd

end Generation

/-! ## Calls -/

/-- A sibling in this form is called like a function. -/
def CallShape.IsFree (s : CallShape) : Prop := s.style = .result ∧ s.receiver = none

/-- **A delegate is called like a function exactly if no form is known or the form is free.** -/
lemma Conversion.delegate_eq_free_iff (v : Conversion) (shape? : Option CallShape)
    (function element : String) (fallible : Bool) :
    v.delegate shape? function element fallible = v.delegate none function element fallible
      ↔ ∀ s, shape? = some s → s.IsFree := by
  rcases shape? with _ | ⟨style, reversed, receiver⟩
  · simp
  · cases style <;> cases receiver <;> cases fallible <;>
      simp [delegate, CallShape.IsFree, Expression.invoke, Expression.checked]

namespace SourceUnit

open Generation

variable (unit : SourceUnit)

/-! ## Two readings -/

/-- The sibling in whose form a delegate is called. -/
def calledSibling? (name : String) : Option Entry :=
  lastNamed? (fun e => e.prepared.value.isSome) name unit.entries

/-- The sibling that the failures of a delegate are taken from, given the entries in front of the
one that delegates. -/
def knownSibling? (front : List Entry) (name : String) : Option Entry :=
  lastNamed? (fun e => e.plan?.isSome) name (plannedBefore unit.catalog unit.entries front)

variable {unit} {front back : List Entry} {e : Entry}

lemma plannedBefore_names (distinct : unit.Distinct) (hentries : unit.entries = front ++ e :: back)
    (helementwise : isElementwise unit.catalog e = true) :
    ((plannedBefore unit.catalog unit.entries front).map fun e => e.declaration.name).Nodup := by
  have hnodup := unit.planOrder_names distinct
  rw [hentries, planOrder_append helementwise, List.map_append, List.nodup_append, ← hentries]
    at hnodup
  exact hnodup.1

/-- With distinct names the readings agree exactly if the called sibling has a plan in time. -/
lemma calledSibling?_eq_iff (distinct : unit.Distinct)
    (hentries : unit.entries = front ++ e :: back)
    (helementwise : isElementwise unit.catalog e = true) (name : String) :
    unit.calledSibling? name = unit.knownSibling? front name
      ↔ ∀ d, unit.calledSibling? name = some d →
        d.plan?.isSome = true ∧ (isElementwise unit.catalog d = true → d ∈ front) := by
  have hfront : front ⊆ unit.entries := hentries ▸ List.subset_append_left _ _
  constructor
  · intro h d hd
    obtain ⟨hmem, -, hplan⟩ := lastNamed?_mem (h ▸ hd : unit.knownSibling? front name = some d)
    exact ⟨hplan, ((mem_plannedBefore hfront).1 hmem).2⟩
  · intro h
    cases hcalled : unit.calledSibling? name with
    | some d =>
        obtain ⟨hplan, hearly⟩ := h d hcalled
        obtain ⟨hmem, hname, -⟩ := lastNamed?_mem hcalled
        exact (lastNamed?_eq_some (plannedBefore_names distinct hentries helementwise)
          ((mem_plannedBefore hfront).2 ⟨hmem, hearly⟩) hname hplan).symm
    | none =>
        -- a sibling with a plan could be prepared, so it would be the called one
        cases hknown : unit.knownSibling? front name with
        | none => rfl
        | some d =>
            obtain ⟨hmem, hname, hplan⟩ := lastNamed?_mem hknown
            have hd : d ∈ unit.entries := ((mem_plannedBefore hfront).1 hmem).1
            obtain ⟨siblings, hsettled⟩ := unit.entry_settled hd
            have hprepared : d.prepared.value.isSome = true := by
              rw [Entry.plan?, hsettled.planned] at hplan
              cases hp : d.prepared.value with
              | none => rw [hp] at hplan; exact absurd hplan (by simp)
              | some p => rfl
            have hnames := distinct
            rw [Distinct, ← unit.entries_names] at hnames
            exact absurd (hcalled.symm.trans (lastNamed?_eq_some hnames hd hname hprepared))
              (by simp)

/-- **Who a delegate is.**  The code calls it in the form of the last sibling of its name that could
be prepared, and like a function if there is none or its form is free.  Its failures are those of
the last sibling of its name with a plan at that time, and those of a function of the catalog if
there is none.  With distinct names, the two are the same sibling exactly if the called one has a
plan and is not, itself a conversion of slices, declared behind the delegating one. -/
theorem delegate_readings (hentries : unit.entries = front ++ e :: back) {v : Conversion}
    (hv : e.conversion? = some v) {target source element delegate : String} {fallible : Bool}
    (hloop : .delegateLoop target source element delegate fallible ∈ v.plan.assignments) :
    let shape? := (unit.calledSibling? delegate).bind Entry.shape?
    (∃ items type, .loop "item" items (v.delegate shape? delegate type fallible)
        ∈ (v.code unit.catalog (callShapes unit.entries)).body
      ∧ (v.delegate shape? delegate type fallible = v.delegate none delegate type fallible
        ↔ ∀ s, shape? = some s → s.IsFree))
    ∧ fallible = ((unit.knownSibling? front delegate).bind Entry.fails?).getD
        (unit.catalog.functionFails delegate)
    ∧ (unit.Distinct → (unit.calledSibling? delegate = unit.knownSibling? front delegate
        ↔ ∀ d, unit.calledSibling? delegate = some d →
          d.plan?.isSome = true ∧ (isElementwise unit.catalog d = true → d ∈ front))) := by
  intro shape?
  have he : e ∈ unit.entries := hentries ▸ List.mem_append_right _ List.mem_cons_self
  obtain ⟨_, hsettled⟩ := unit.entry_settled he
  obtain ⟨helementwise, -, hlist⟩ := unit.loop_planned hsettled hv hloop
  have horder : planOrder unit.catalog unit.entries
      = plannedBefore unit.catalog unit.entries front
        ++ e :: back.filter (isElementwise unit.catalog) := by
    rw [hentries]
    exact planOrder_append helementwise
  obtain ⟨-, hflag, -⟩ := unit.loop_planned (unit.entries_inTurn.settled horder) hv hloop
  refine ⟨?_, ?_, fun distinct => calledSibling?_eq_iff distinct hentries helementwise delegate⟩
  · obtain ⟨items, type, hbody⟩ :=
      Conversion.exists_delegate_mem_body unit.catalog (callShapes unit.entries) hlist
    rw [find?_callShapes] at hbody
    exact ⟨items, type, hbody, v.delegate_eq_free_iff _ _ _ _⟩
  · rw [hflag, Planner.delegateFlag, find?_foldl_remember]
    rfl

/-- The pets are converted by the sibling that their plan asked for its failures. -/
theorem pets_delegate_readings :
    pets.calledSibling? "pet" = pets.knownSibling? [] "pet"
      ∧ true = ((pets.knownSibling? [] "pet").bind Entry.fails?).getD false := by
  have hlength : pets.entries.length = 2 := rfl
  have hentries : pets.entries
      = [] ++ pets.entries.get ⟨0, by omega⟩ :: [pets.entries.get ⟨1, by omega⟩] := rfl
  have hconversion : (pets.entries.get ⟨0, by omega⟩).conversion?
      = some (pets.conversions.get ⟨0, by decide⟩) := rfl
  have hloop : .delegateLoop "Vec<Pet>" "Vec<Pet>" "Pet" "pet" true
      ∈ (pets.conversions.get ⟨0, by decide⟩).plan.assignments := List.mem_singleton_self _
  have hcalled : pets.calledSibling? "pet" = some (pets.entries.get ⟨1, by omega⟩) := rfl
  have hplain : isElementwise pets.catalog (pets.entries.get ⟨1, by omega⟩) = false := rfl
  have h := delegate_readings hentries hconversion hloop
  refine ⟨(h.2.2 (by unfold Distinct; decide)).2 fun d hd => ?_, h.2.1⟩
  obtain rfl := Option.some.inj (hcalled.symm.trans hd)
  exact ⟨rfl, fun h => absurd (hplain.symm.trans h) Bool.false_ne_true⟩

/-! ## A sibling without a plan -/

/-- The list of pets is converted by the function `pet`.  There is a method of this name too, which
is left out because of its hook. -/
def shadowed : SourceUnit :=
  let position : Position := ⟨"pets.rs", 1, 1⟩
  let pet (name : String) : Parameter := ⟨name, ⟨0⟩, "Pet"⟩
  let vec (name : String) : Parameter := ⟨name, ⟨1⟩, "Vec<Pet>"⟩
  { pets with
    catalog := { pets.catalog with
      functions := Keyed.empty.insert "pet" ⟨"pet", [⟨0⟩], some ⟨0⟩, false⟩ }
    interfaces := [⟨"Convert", position, [],
      [{ name := "pet", position
         lines := [⟨":style arg", position⟩, ⟨":postprocess pet", position⟩]
         docs := [], parameters := [pet "dst", pet "src"], result := none
         fallible := false, errorType := none },
        { name := "pets", position
          lines := [⟨":struct_conv pet", position⟩]
          docs := [], parameters := [vec "src"], result := some (vec "dst")
          fallible := false, errorType := none }]⟩] }

/-- **A function is called as if it were a sibling without a plan.** -/
theorem exists_misread :
    ∃ front e back v, shadowed.entries = front ++ e :: back ∧ e.conversion? = some v
      ∧ .delegateLoop "Vec<Pet>" "Vec<Pet>" "Pet" "pet" false ∈ v.plan.assignments
      ∧ shadowed.knownSibling? front "pet" = none
      ∧ (shadowed.catalog.function? "pet").isSome = true
      ∧ ∃ items body, .loop "item" items body
          ∈ (v.code shadowed.catalog (callShapes shadowed.entries)).body
        ∧ ∀ type, body ≠ v.delegate none "pet" type false := by
  have hlength : shadowed.entries.length = 2 := rfl
  have hconversion : (shadowed.entries.get ⟨1, by omega⟩).conversion?
      = some (shadowed.conversions.get ⟨0, by decide⟩) := rfl
  refine ⟨[shadowed.entries.get ⟨0, by omega⟩], shadowed.entries.get ⟨1, by omega⟩, [], _, rfl,
    hconversion, List.mem_singleton_self _, rfl, by decide +kernel, ?_⟩
  have hlist : (shadowed.conversions.get ⟨0, by decide⟩).plan.assignments
      = [.delegateLoop "Vec<Pet>" "Vec<Pet>" "Pet" "pet" false] := rfl
  obtain ⟨items, type, hbody⟩ :=
    Conversion.exists_delegate_mem_body shadowed.catalog (callShapes shadowed.entries) hlist
  refine ⟨items, _, hbody, fun other h => ?_⟩
  have hshape : (callShapes shadowed.entries).find? "pet" = some ⟨.argument, false, none⟩ := rfl
  rw [hshape] at h
  exact absurd h (by simp [Conversion.delegate])

end SourceUnit

end FieldCopy
