import Mathlib
import FieldCopy.Proofs.Isolation.Flags

/-!
# Chains of delegates

If the delegate of a method converts elements itself, what the method can do depends on the delegate
of the delegate in turn.  Such a chain goes from a method to methods that are planned before it.

**Leading to a name.**  `leadingTo` lists the names from which chains lead to given ones.

**Two runs.**  Two runs that differ in one entry have tables that know the same other names and
agree off the names that lead to that entry (`Related`).  So they plan the other entries the same
but for flags, and the same if their delegates do not lead there (`Alike`): `planAll_alike`.
-/

namespace FieldCopy.Generation

variable (c : Catalog)

/-- The delegate of an entry is among some names. -/
def Entry.delegatesTo (names : List String) (e : Entry) : Bool :=
  (e.delegate? c).any names.contains

/-- Some names, with that of an entry whose delegate is among them. -/
def withLeading (names : List String) (e : Entry) : List String :=
  if e.delegatesTo c names then e.declaration.name :: names else names

/-- Some names, with those of the entries whose delegates lead to them through entries in front. -/
def leadingTo (names : List String) (es : List Entry) : List String :=
  es.foldl (withLeading c) names

variable {c} {names : List String} {e : Entry} {s t : Keyed Bool}

lemma Entry.notMem_of_delegatesTo (h : e.delegatesTo c names = false) (name : String)
    (hname : e.delegate? c = some name) : name ∉ names := by
  simpa [delegatesTo, hname] using h

lemma Entry.delegatesTo_of_plain (h : isElementwise c e = false) (names : List String) :
    e.delegatesTo c names = false := by
  simp [delegatesTo, delegate?, h]

lemma subset_withLeading (names : List String) (e : Entry) : names ⊆ withLeading c names e := by
  rw [withLeading]
  split
  · exact List.subset_cons_self _ _
  · exact List.Subset.refl _

lemma subset_leadingTo : ∀ (es : List Entry) (names : List String), names ⊆ leadingTo c names es
  | [], _ => List.Subset.refl _
  | e :: es, names => List.Subset.trans (subset_withLeading names e) (subset_leadingTo es _)

/-- Chains do not depend on plans. -/
lemma leadingTo_unplanned (es : List Entry) (names : List String) :
    leadingTo c names (es.map Entry.unplanned) = leadingTo c names es := by
  rw [leadingTo, List.foldl_map]
  rfl

/-! ## Two passes over the same entries -/

/-- What a pass does with one entry. -/
def planStep (c : Catalog) (elementwise : Bool) (s : Keyed Bool) (e : Entry) :
    Entry × Keyed Bool :=
  if isElementwise c e = elementwise then planEntry c s e else (e, s)

lemma planPass_cons (b : Bool) (s : Keyed Bool) (e : Entry) (rest : List Entry) :
    planPass c b s (e :: rest)
      = ((planStep c b s e).1 :: (planPass c b (planStep c b s e).2 rest).1,
          (planPass c b (planStep c b s e).2 rest).2) := rfl

lemma planPass_append (b : Bool) : ∀ (s : Keyed Bool) (es fs : List Entry),
    planPass c b s (es ++ fs)
      = ((planPass c b s es).1 ++ (planPass c b (planPass c b s es).2 fs).1,
          (planPass c b (planPass c b s es).2 fs).2)
  | _, [], _ => rfl
  | s, e :: es, fs => by
      rw [List.cons_append, planPass_cons, planPass_cons, planPass_append b _ es fs]
      rfl

@[simp] lemma planStep_declaration (b : Bool) (s : Keyed Bool) (e : Entry) :
    (planStep c b s e).1.declaration = e.declaration := by
  rw [planStep]
  split
  · have h := congrArg Entry.declaration (planEntry_unplanned c s e)
    exact h
  · rfl

/-- Two tables know the same keys but for one, and agree off some names. -/
structure Related (name : String) (names : List String) (s t : Keyed Bool) : Prop where
  keys : ∀ key, key ≠ name → s.contains key = t.contains key
  values : Keyed.AgreeOff names s t

/-- What two runs make of an entry is the same but for its flag if its delegate is not a certain
method, and the same if its delegate is not among some names. -/
structure Alike (c : Catalog) (name : String) (names : List String) (e d d' : Entry) : Prop where
  direct : e.delegate? c ≠ some name → d.Similar d'
  chain : e.delegatesTo c names = false → d = d'

namespace Related

variable {name : String}

lemma of_agreeOff (h : Keyed.AgreeOff [name] s t) : Related name [name] s t where
  keys key hkey := congrArg Option.isSome (h key (by simpa using hkey))
  values := h

lemma symm (h : Related name names s t) : Related name names t s where
  keys key hkey := (h.keys key hkey).symm
  values := h.values.symm

lemma mono {more : List String} (h : Related name names s t) (hmore : names ⊆ more) :
    Related name more s t where
  keys := h.keys
  values := h.values.mono hmore

/-- A step leaves behind nothing but what is under the name of its entry. -/
lemma step_left (h : Related name names s t) (hname : name ∈ names)
    (he : e.declaration.name = name) (b : Bool) : Related name names (planStep c b s e).2 t := by
  rw [planStep]
  split
  · refine ⟨fun key hkey => ?_, Entry.agreeOff_planEntry_left h.values (he ▸ hname)⟩
    rw [contains_planEntry, he, beq_false_of_ne hkey, Bool.and_false, Bool.or_false,
      h.keys key hkey]
  · exact h

/-- Two steps with the same entry. -/
lemma step (h : Related name names s t) (e : Entry) (b : Bool) :
    Related name (withLeading c names e) (planStep c b s e).2 (planStep c b t e).2
      ∧ Alike c name names e (planStep c b s e).1 (planStep c b t e).1 := by
  rw [planStep, planStep]
  split
  · refine ⟨⟨fun key hkey => ?_, ?_⟩, fun hdirect => ?_, fun hchain => ?_⟩
    · rw [contains_planEntry, contains_planEntry, h.keys key hkey]
    · rw [withLeading]
      split
      · have hmem : e.declaration.name ∈ e.declaration.name :: names := List.mem_cons_self
        have hmore := h.values.mono (List.subset_cons_self e.declaration.name names)
        exact (Entry.agreeOff_planEntry_left
          (Entry.agreeOff_planEntry_left hmore hmem).symm hmem).symm
      · rename_i hchain
        exact Entry.agreeOff_planEntry h.values
          (Entry.notMem_of_delegatesTo (Bool.eq_false_iff.2 hchain))
    · exact planEntry_similar fun key hkey => h.keys key fun heq => hdirect (heq ▸ hkey)
    · exact Entry.planEntry_congr fun key hkey =>
        h.values key (Entry.notMem_of_delegatesTo hchain key hkey)
  · exact ⟨h.mono (subset_withLeading names e), fun _ => .refl e, fun _ => rfl⟩

end Related

/-- Two passes over entries that do not convert elements. -/
lemma planPass_plain_agree : ∀ (es : List Entry) {s t : Keyed Bool}, Keyed.AgreeOff names s t →
    (planPass c false s es).1 = (planPass c false t es).1
      ∧ Keyed.AgreeOff names (planPass c false s es).2 (planPass c false t es).2
  | [], _, _, h => ⟨rfl, h⟩
  | e :: es, s, t, h => by
      have hstep : (planStep c false s e).1 = (planStep c false t e).1
          ∧ Keyed.AgreeOff names (planStep c false s e).2 (planStep c false t e).2 := by
        rw [planStep, planStep]
        split
        · rename_i he
          have hfree := Entry.notMem_of_delegatesTo (Entry.delegatesTo_of_plain he names)
          exact ⟨Entry.planEntry_congr fun key hkey => h key (hfree key hkey),
            Entry.agreeOff_planEntry h hfree⟩
        · exact ⟨rfl, h⟩
      obtain ⟨hrest, htables⟩ := planPass_plain_agree es hstep.2
      rw [planPass_cons, planPass_cons, hstep.1, hrest]
      exact ⟨rfl, htables⟩

variable {name : String}

/-- **Two passes over the same entries.**  An entry differs at most if its delegate leads to a name
that the tables do not agree about, and then its own name may become such a name. -/
lemma Related.pass (b : Bool) : ∀ (es : List Entry) {names : List String} {s t : Keyed Bool},
    Related name names s t →
    Related name (leadingTo c names es) (planPass c b s es).2 (planPass c b t es).2
      ∧ ∀ i (e : Entry), es[i]? = some e →
        ∃ d d', (planPass c b s es).1[i]? = some d
          ∧ (planPass c b t es).1[i]? = some d'
          ∧ Alike c name (leadingTo c names (es.take i)) e d d'
  | [], _, _, _, h => ⟨h, fun _ _ he => absurd he (by simp)⟩
  | e :: es, names, s, t, h => by
      obtain ⟨hstep, halike⟩ := h.step (c := c) e b
      obtain ⟨htables, hrest⟩ := hstep.pass b es
      rw [planPass_cons, planPass_cons]
      refine ⟨htables, fun i d hd => ?_⟩
      cases i with
      | zero =>
          obtain rfl := Option.some.inj hd
          exact ⟨_, _, rfl, rfl, halike⟩
      | succ i => exact hrest i d hd

/-! ## Two runs that differ in one entry -/

@[simp] lemma length_planPass (b : Bool) (s : Keyed Bool) (es : List Entry) :
    (planPass c b s es).1.length = es.length := by
  simpa using congrArg List.length (planPass_unplanned c b s es)

section

variable {front back : List Entry} {x y : Entry}

lemma getElem?_behind {α : Type} {front : List α} {n : Nat} (hn : front.length = n)
    (back : List α) (x : α) (j : Nat) : (front ++ x :: back)[n + 1 + j]? = back[j]? := by
  subst hn
  have hj : front.length + 1 + j - front.length = j + 1 := by omega
  rw [List.getElem?_append_right (by omega), hj, List.getElem?_cons_succ]

lemma take_behind {α : Type} (front back : List α) (x : α) (j : Nat) :
    (front ++ x :: back).take (front.length + 1 + j) = front ++ x :: back.take j := by
  have hj : front.length + 1 + j - front.length = j + 1 := by omega
  rw [List.take_append, List.take_of_length_le (by omega), hj, List.take_succ_cons]

/-- Two passes over entries that differ in one place, where both have the name that the tables need
not agree about. -/
lemma Related.pass_around (h : Related name names s t) (hname : name ∈ names)
    (hx : x.declaration.name = name) (hy : y.declaration.name = name) (b : Bool) {i : Nat}
    (hi : i ≠ front.length) (he : (front ++ x :: back)[i]? = some e) :
    ∃ d d', (planPass c b s (front ++ x :: back)).1[i]? = some d
      ∧ (planPass c b t (front ++ y :: back)).1[i]? = some d'
      ∧ Alike c name (leadingTo c names ((front ++ x :: back).take i)) e d d' := by
  obtain ⟨htables, hfront⟩ := h.pass (c := c) b front
  rw [planPass_append, planPass_append]
  rcases Nat.lt_or_gt_of_ne hi with hlt | hgt
  · rw [List.getElem?_append_left hlt] at he
    rw [List.take_append_of_le_length hlt.le, List.getElem?_append_left (by simpa using hlt),
      List.getElem?_append_left (by simpa using hlt)]
    exact hfront i e he
  · obtain ⟨j, rfl⟩ := Nat.exists_eq_add_of_le (Nat.succ_le_of_lt hgt)
    rw [Nat.succ_eq_add_one] at *
    rw [getElem?_behind rfl] at he
    -- behind the place the tables are related off the names that lead to the given ones
    have hmem := subset_leadingTo (c := c) front names hname
    have hplace := ((htables.step_left (c := c) hmem hx b).symm.step_left
      (c := c) hmem hy b).symm
    have hback := (hplace.mono (subset_withLeading (c := c) _ x)).pass (c := c) b back
    rw [take_behind, leadingTo, List.foldl_append, List.foldl_cons, planPass_cons, planPass_cons,
      getElem?_behind (length_planPass b s front), getElem?_behind (length_planPass b t front)]
    exact hback.2 j e he

/-- A pass keeps the entries but for their plans. -/
lemma exists_planPass_getElem? (names : List String) (b : Bool) (s : Keyed Bool) {es : List Entry}
    {i : Nat} (he : es[i]? = some e) :
    ∃ d, (planPass c b s es).1[i]? = some d ∧ d.unplanned = e.unplanned
      ∧ leadingTo c names ((planPass c b s es).1.take i) = leadingTo c names (es.take i) := by
  have hmap := planPass_unplanned c b s es
  have hget := congrArg (fun l => l[i]?) hmap
  simp only [List.getElem?_map, he, Option.map_some] at hget
  obtain ⟨d, hd, hunplanned⟩ := Option.map_eq_some_iff.1 hget
  refine ⟨d, hd, hunplanned, ?_⟩
  rw [← leadingTo_unplanned, List.map_take, hmap, ← List.map_take, leadingTo_unplanned]

/-- What two runs make of an entry does not depend on its plan before. -/
lemma Alike.of_unplanned {e' d d' : Entry} (h : Alike c name names e' d d')
    (he : e'.unplanned = e.unplanned) : Alike c name names e d d' := by
  have hdelegate : e'.delegate? c = e.delegate? c := by
    rw [← Entry.delegate?_unplanned, he, Entry.delegate?_unplanned]
  refine ⟨fun hdirect => h.direct (hdelegate ▸ hdirect), fun hchain => h.chain ?_⟩
  rw [Entry.delegatesTo, hdelegate]
  exact hchain

/-- **Two runs that differ in one entry make the same of the others, as far as their delegates do
not lead to the name of that entry.** -/
theorem planAll_alike (hname : y.declaration.name = x.declaration.name) {i : Nat}
    (hi : i ≠ front.length) (he : (front ++ x :: back)[i]? = some e) :
    ∃ d d', (planAll c (front ++ x :: back))[i]? = some d
      ∧ (planAll c (front ++ y :: back))[i]? = some d'
      ∧ Alike c x.declaration.name
        (leadingTo c [x.declaration.name] ((front ++ x :: back).take i)) e d d' := by
  obtain ⟨e', he', hunplanned, hleading⟩ :=
    exists_planPass_getElem? (c := c) [x.declaration.name] false .empty he
  -- behind the place the tables of the first pass agree off the name, and it plans the same
  have hx : x.declaration.name ∈ [x.declaration.name] := List.mem_singleton_self _
  have hplace := ((Related.of_agreeOff (.refl _ (planPass c false .empty front).2)).step_left
    (c := c) hx rfl false).symm.step_left (c := c) hx hname false
  obtain ⟨hback, htables⟩ := planPass_plain_agree (c := c) back hplace.symm.values
  rw [← hleading]
  rw [planPass_append, planPass_cons] at he' ⊢
  rw [planAll, planAll, planPass_append, planPass_append, planPass_cons, planPass_cons]
  simp only
  rw [← hback]
  obtain ⟨d, d', hd, hd', halike⟩ := (Related.of_agreeOff htables).pass_around (c := c)
    (y := (planStep c false (planPass c false .empty front).2 y).1) hx (by simp)
    (by simpa using hname) true (by simpa using hi) he'
  exact ⟨d, d', hd, hd', halike.of_unplanned hunplanned⟩

end

end FieldCopy.Generation
