import Mathlib
import FieldCopy.Proofs.Catalog.Numbers

/-!
# Looking through pointers

Looking through pointers ends at a type that is none, or at a number without a type, or never.  It
ends at a type in a *closed* catalog, where every number stands for something and pointers do not
lead round in a circle (`Catalog.IsClosed`).  A sound catalog is closed, since there a pointer has a
larger number than what it points to.

**Main statement.**  `IsClosed.ends`: whatever a known number stands for, pointers lead from it to a
type that is none, and that is what `strip` finds.

**What is found there.**  Whatever else is asked of a known type in a closed catalog has an answer
(`IsClosed.structOf`, `IsClosed.elementStructOf`, `IsClosed.isStringer`).  The structures in answers
are those of the catalog, closed or not (`exists_struct?_of_structOf`).

**What an answer says.**  In any catalog, an answer about the structure of a type or of its elements
says where pointers lead (`structOf_eq_some_iff`, `elementStructOf_eq_some_iff`).
-/

namespace FieldCopy.Catalog

variable {c : Catalog}

/-- A type is a pointer to another. -/
def Points (c : Catalog) (a b : TypeId) : Prop := ∃ t, c.type? a = some t ∧ t.shape = .pointer b

/-- Pointers lead from a type to one that is no pointer, and looking through them finds it. -/
structure EndsAt (c : Catalog) (id last : TypeId) : Prop where
  leads : Relation.ReflTransGen c.Points id last
  strip : c.strip id = .ok last
  last : ∃ t, c.type? last = some t ∧ ∀ e, t.shape ≠ .pointer e

/-- A type points to one type at most. -/
lemma points_rightUnique (c : Catalog) : Relator.RightUnique c.Points := by
  rintro a b b' ⟨t, ht, hshape⟩ ⟨t', ht', hshape'⟩
  obtain rfl := Option.some.inj (ht.symm.trans ht')
  exact Shape.pointer.inj (hshape.symm.trans hshape')

/-- Where pointers end there is nothing further to be led to. -/
lemma eq_of_leads {last other : TypeId} {t : TypeInfo} (ht : c.type? last = some t)
    (hshape : ∀ e, t.shape ≠ .pointer e) (h : Relation.ReflTransGen c.Points last other) :
    other = last := by
  rcases h.cases_head with rfl | ⟨next, ⟨s, hs, hpointer⟩, -⟩
  · rfl
  · obtain rfl := Option.some.inj (ht.symm.trans hs)
    exact absurd hpointer (hshape next)

/-- **Pointers lead to one type at most that is no pointer.** -/
lemma last_unique {id a b : TypeId} {s t : TypeInfo} (ha : Relation.ReflTransGen c.Points id a)
    (hs : c.type? a = some s) (hsa : ∀ e, s.shape ≠ .pointer e)
    (hb : Relation.ReflTransGen c.Points id b) (ht : c.type? b = some t)
    (htb : ∀ e, t.shape ≠ .pointer e) : b = a := by
  rcases Relation.ReflTransGen.total_of_right_unique c.points_rightUnique ha hb with
    hfurther | hfurther
  · exact eq_of_leads hs hsa hfurther
  · exact (eq_of_leads ht htb hfurther).symm

lemma EndsAt.eq_last {id last other : TypeId} (h : c.EndsAt id last) {t : TypeInfo}
    (hleads : Relation.ReflTransGen c.Points id other) (ht : c.type? other = some t)
    (hshape : ∀ e, t.shape ≠ .pointer e) : other = last := by
  obtain ⟨s, hs, hlast⟩ := h.last
  exact last_unique h.leads hs hlast hleads ht hshape

lemma endsAt_of_stripFuel : ∀ (n : Nat) {id last : TypeId}, c.stripFuel n id = .ok last →
    Relation.ReflTransGen c.Points id last ∧ ∃ t, c.type? last = some t ∧ ∀ e, t.shape ≠ .pointer e
  | 0, _, _, h => absurd h (by simp [stripFuel])
  | n + 1, id, last, h => by
      rw [stripFuel] at h
      split at h
      · exact absurd h (by simp)
      · rename_i t ht
        split at h
        · rename_i element hshape
          obtain ⟨hleads, hend⟩ := endsAt_of_stripFuel n h
          exact ⟨.head ⟨t, ht, hshape⟩ hleads, hend⟩
        · rename_i hshape
          obtain rfl := Except.ok.inj h
          exact ⟨.refl, t, ht, hshape⟩

/-- What looking through pointers finds, pointers end at. -/
lemma endsAt_of_strip {id last : TypeId} (h : c.strip id = .ok last) : c.EndsAt id last :=
  have hends := endsAt_of_stripFuel _ h
  ⟨hends.1, h, hends.2⟩

/-- A type is known behind all pointers if pointers end at it. -/
lemma endsAt_of_stripped {id : TypeId} {t : TypeInfo} (h : c.stripped id = .ok t) :
    ∃ last, c.EndsAt id last ∧ c.type? last = some t := by
  obtain ⟨last, hstrip, ht⟩ := exists_of_bind_eq_ok h
  exact ⟨last, endsAt_of_strip hstrip, type?_of_typeAt ht⟩

/-- Pointers lead from a type to a structure. -/
def LeadsToStruct (c : Catalog) (id : TypeId) (s : StructInfo) : Prop :=
  ∃ last t d, Relation.ReflTransGen c.Points id last ∧ c.type? last = some t
    ∧ t.shape = .struct d ∧ c.struct? d = some s

/-- Pointers lead from a type to a slice, and from its elements to a structure. -/
def LeadsToElements (c : Catalog) (id : TypeId) (s : StructInfo) : Prop :=
  ∃ last t element, Relation.ReflTransGen c.Points id last ∧ c.type? last = some t
    ∧ t.shape = .slice element ∧ c.LeadsToStruct element s

/-- The structure that pointers lead to belongs to the catalog. -/
lemma LeadsToStruct.exists_struct? {id : TypeId} {s : StructInfo} (h : c.LeadsToStruct id s) :
    ∃ d, c.struct? d = some s := by
  obtain ⟨_, _, d, _, _, _, hs⟩ := h
  exact ⟨d, hs⟩

/-- Pointers lead to one structure at most. -/
lemma LeadsToStruct.unique {id : TypeId} {s s' : StructInfo} (h : c.LeadsToStruct id s)
    (h' : c.LeadsToStruct id s') : s' = s := by
  obtain ⟨last, t, d, hleads, hlast, hshape, hs⟩ := h
  obtain ⟨last', t', d', hleads', hlast', hshape', hs'⟩ := h'
  obtain rfl := last_unique hleads hlast (by simp [hshape]) hleads' hlast' (by simp [hshape'])
  obtain rfl := Option.some.inj (hlast.symm.trans hlast')
  obtain rfl := Shape.struct.inj (hshape.symm.trans hshape')
  exact Option.some.inj (hs'.symm.trans hs)

lemma LeadsToElements.unique {id : TypeId} {s s' : StructInfo} (h : c.LeadsToElements id s)
    (h' : c.LeadsToElements id s') : s' = s := by
  obtain ⟨last, t, element, hleads, hlast, hshape, hs⟩ := h
  obtain ⟨last', t', element', hleads', hlast', hshape', hs'⟩ := h'
  obtain rfl := last_unique hleads hlast (by simp [hshape]) hleads' hlast' (by simp [hshape'])
  obtain rfl := Option.some.inj (hlast.symm.trans hlast')
  obtain rfl := Shape.slice.inj (hshape.symm.trans hshape')
  exact hs.unique hs'

/-- Pointers lead to a structure or to a slice, not to both. -/
lemma LeadsToStruct.not_elements {id : TypeId} {s e : StructInfo} (h : c.LeadsToStruct id s) :
    ¬ c.LeadsToElements id e := by
  obtain ⟨last, t, d, hleads, hlast, hshape, -⟩ := h
  rintro ⟨last', t', element, hleads', hlast', hshape', -⟩
  obtain rfl := last_unique hleads hlast (by simp [hshape]) hleads' hlast' (by simp [hshape'])
  obtain rfl := Option.some.inj (hlast.symm.trans hlast')
  rw [hshape] at hshape'
  simp at hshape'

/-- **The structure of a type is what pointers lead to.** -/
lemma structOf_eq_some_iff {id : TypeId} {found : Option StructInfo}
    (h : c.structOf id = .ok found) (s : StructInfo) : found = some s ↔ c.LeadsToStruct id s := by
  obtain ⟨d, hd, hfound⟩ := exists_of_bind_eq_ok h
  obtain ⟨t, ht, hd⟩ := exists_of_bind_eq_ok hd
  obtain ⟨last, hends, hlast⟩ := endsAt_of_stripped ht
  obtain rfl := Except.ok.inj hfound
  obtain rfl := Except.ok.inj hd
  constructor
  · intro hs
    obtain ⟨d, hd, hs⟩ := Option.bind_eq_some_iff.1 hs
    obtain ⟨hd, -⟩ := Option.filter_eq_some_iff.1 hd
    cases hshape : t.shape with
    | struct d' =>
        rw [hshape] at hd
        exact ⟨last, t, d', hends.leads, hlast, hshape, Option.some.inj hd ▸ hs⟩
    | _ => exact absurd hd (by simp [hshape, Shape.struct?])
  · rintro ⟨other, t', d, hleads, hother, hshape, hs⟩
    obtain rfl := hends.eq_last hleads hother (by simp [hshape])
    obtain rfl := Option.some.inj (hlast.symm.trans hother)
    rw [hshape, Shape.struct?, Option.filter_some, if_pos (by rw [hs]; rfl), Option.bind_some, hs]

/-- **The structure of the elements is what pointers and a slice lead to.** -/
lemma elementStructOf_eq_some_iff {id : TypeId} {found : Option StructInfo}
    (h : c.elementStructOf id = .ok found) (s : StructInfo) :
    found = some s ↔ c.LeadsToElements id s := by
  obtain ⟨d, hd, hfound⟩ := exists_of_bind_eq_ok h
  obtain ⟨t, ht, hd⟩ := exists_of_bind_eq_ok hd
  obtain ⟨last, hends, hlast⟩ := endsAt_of_stripped ht
  obtain rfl := Except.ok.inj hfound
  split at hd
  · rename_i element hshape
    have hstruct : c.structOf element = .ok (d.bind c.struct?) := by
      rw [structOf, hd]
      rfl
    rw [structOf_eq_some_iff hstruct]
    constructor
    · intro hs
      exact ⟨last, t, element, hends.leads, hlast, hshape, hs⟩
    · rintro ⟨other, t', element', hleads, hother, hshape', hs⟩
      obtain rfl := hends.eq_last hleads hother (by simp [hshape'])
      obtain rfl := Option.some.inj (hlast.symm.trans hother)
      obtain rfl := Shape.slice.inj (hshape.symm.trans hshape')
      exact hs
  · rename_i hshape
    obtain rfl := Except.ok.inj hd
    refine ⟨fun hs => absurd hs (by simp), ?_⟩
    rintro ⟨other, t', element, hleads, hother, hshape', -⟩
    obtain rfl := hends.eq_last hleads hother (by simp [hshape'])
    obtain rfl := Option.some.inj (hlast.symm.trans hother)
    exact absurd hshape' (hshape element)

/-- The structure that a type is belongs to the catalog. -/
lemma exists_struct?_of_structOf {id : TypeId} {s : StructInfo}
    (h : c.structOf id = .ok (some s)) : ∃ d, c.struct? d = some s := by
  obtain ⟨found, -, hs⟩ := exists_of_bind_eq_ok h
  obtain ⟨d, -, hd⟩ := Option.bind_eq_some_iff.1 (Except.ok.inj hs)
  exact ⟨d, hd⟩

/-! ## Closed catalogs -/

/-- Every number that is stored stands for something, and no pointer leads back to where it
starts. -/
structure IsClosed (c : Catalog) : Prop where
  stored : ∀ n, c.Stores n → c.Knows n
  acyclic : ∀ id, ¬ Relation.TransGen c.Points id id

/-- A type that is pointed to is a part of the pointer. -/
lemma Points.mem_parts {a b : TypeId} (h : c.Points a b) :
    ∃ t, c.type? a = some t ∧ b ∈ t.shape.parts := by
  obtain ⟨t, ht, hshape⟩ := h
  refine ⟨t, ht, ?_⟩
  rw [hshape]
  exact List.mem_singleton_self b

/-- In a sound catalog pointers lead to smaller numbers, so none leads back. -/
lemma Sound.closed (hc : c.Sound) : c.IsClosed := by
  have hlt : ∀ {a b : TypeId}, c.Points a b → b.index < a.index := by
    intro a b h
    obtain ⟨t, ht, hpart⟩ := h.mem_parts
    exact hc.smaller a t ht b hpart
  have hleads : ∀ {a b : TypeId}, Relation.TransGen c.Points a b → b.index < a.index := by
    intro a b h
    induction h with
    | single h => exact hlt h
    | tail _ h ih => exact (hlt h).trans ih
  exact ⟨hc.stored, fun id h => Nat.lt_irrefl _ (hleads h)⟩

open Classical in
/-- The numbers of the types that pointers lead to from a type. -/
noncomputable def behind (c : Catalog) (id : TypeId) : Finset (Fin c.types.size) :=
  Finset.univ.filter fun i => Relation.TransGen c.Points id ⟨i⟩

namespace IsClosed

/-- A type that is pointed to is known. -/
lemma points (hc : c.IsClosed) {a b : TypeId} (h : c.Points a b) : c.Knows (.type b) := by
  obtain ⟨t, ht, hpart⟩ := h.mem_parts
  exact knows_part hc.stored ht hpart

/-- One pointer further there is less to be led to, as the type that is pointed to is not behind
itself. -/
lemma behind_ssubset (hc : c.IsClosed) {a b : TypeId} (h : c.Points a b) :
    c.behind b ⊂ c.behind a := by
  refine Finset.ssubset_iff_subset_ne.2 ⟨fun i hi => ?_, fun heq => ?_⟩
  · simp only [behind, Finset.mem_filter, Finset.mem_univ, true_and] at hi ⊢
    exact .head h hi
  · have hb : (⟨b.index, hc.points h⟩ : Fin c.types.size) ∈ c.behind b := by
      rw [heq]
      simp only [behind, Finset.mem_filter, Finset.mem_univ, true_and]
      exact .single h
    simp only [behind, Finset.mem_filter, Finset.mem_univ, true_and] at hb
    exact hc.acyclic b hb

/-- More fuel than there are types behind a type is enough. -/
lemma stripFuel_ends (hc : c.IsClosed) : ∀ (n : Nat) (id : TypeId), (c.behind id).card < n →
    c.Knows (.type id) → ∃ last, c.stripFuel n id = .ok last
      ∧ Relation.ReflTransGen c.Points id last
      ∧ ∃ t, c.type? last = some t ∧ ∀ e, t.shape ≠ .pointer e
  | 0, _, hn, _ => absurd hn (by omega)
  | n + 1, id, hn, hid => by
      obtain ⟨t, ht⟩ := knows_type_iff.1 hid
      simp only [stripFuel, ht]
      split
      · rename_i element hshape
        have hpoints : c.Points id element := ⟨t, ht, hshape⟩
        have hfewer := Finset.card_lt_card (hc.behind_ssubset hpoints)
        obtain ⟨last, hlast, hleads, hend⟩ :=
          stripFuel_ends hc n element (by omega) (hc.points hpoints)
        exact ⟨last, hlast, .head hpoints hleads, hend⟩
      · rename_i hshape
        exact ⟨id, rfl, .refl, t, ht, hshape⟩

/-- **Looking through pointers ends at a type that is none.** -/
theorem ends (hc : c.IsClosed) {id : TypeId} (h : c.Knows (.type id)) :
    ∃ last, c.EndsAt id last := by
  have hfuel : (c.behind id).card < c.types.size + 1 := by
    have hcard := Finset.card_le_univ (c.behind id)
    rw [Fintype.card_fin] at hcard
    omega
  obtain ⟨last, hstrip, hleads, hlast⟩ := hc.stripFuel_ends (c.types.size + 1) id hfuel h
  exact ⟨last, hleads, hstrip, hlast⟩

lemma stripped (hc : c.IsClosed) {id : TypeId} (h : c.Knows (.type id)) :
    ∃ last t, c.stripped id = .ok t ∧ c.type? last = some t := by
  obtain ⟨last, -, hstrip, t, ht, -⟩ := hc.ends h
  refine ⟨last, t, ?_, ht⟩
  rw [Catalog.stripped, hstrip]
  change c.typeAt last = .ok t
  rw [typeAt, ht]

lemma structIdOf (hc : c.IsClosed) {id : TypeId} (h : c.Knows (.type id)) :
    ∃ d, c.structIdOf id = .ok d := by
  obtain ⟨last, t, ht, -⟩ := hc.stripped h
  exact ⟨_, by rw [Catalog.structIdOf, ht]; rfl⟩

/-- **A type can be asked for its structure.** -/
theorem structOf (hc : c.IsClosed) {id : TypeId} (h : c.Knows (.type id)) :
    ∃ found, c.structOf id = .ok found := by
  obtain ⟨found, hfound⟩ := hc.structIdOf h
  exact ⟨found.bind c.struct?, by rw [Catalog.structOf, hfound]; rfl⟩

lemma elementStructIdOf (hc : c.IsClosed) {id : TypeId} (h : c.Knows (.type id)) :
    ∃ d, c.elementStructIdOf id = .ok d := by
  obtain ⟨last, t, ht, hlast⟩ := hc.stripped h
  rw [Catalog.elementStructIdOf, ht, ok_bind]
  split
  · rename_i element hshape
    refine hc.structIdOf (knows_part hc.stored hlast ?_)
    rw [hshape]
    exact List.mem_singleton_self _
  · exact ⟨none, rfl⟩

/-- **A type can be asked for the structure of its elements.** -/
theorem elementStructOf (hc : c.IsClosed) {id : TypeId} (h : c.Knows (.type id)) :
    ∃ found, c.elementStructOf id = .ok found := by
  obtain ⟨d, hd⟩ := hc.elementStructIdOf h
  exact ⟨_, by rw [Catalog.elementStructOf, hd]; rfl⟩

/-- **A type can be asked whether it can be turned into text.** -/
theorem isStringer (hc : c.IsClosed) {id : TypeId} (h : c.Knows (.type id)) :
    ∃ answer, c.isStringer id = .ok answer := by
  obtain ⟨last, -, hstrip, -⟩ := hc.ends h
  exact ⟨_, by rw [Catalog.isStringer, hstrip]; rfl⟩

end IsClosed

/-- In a sound catalog, looking through pointers ends. -/
theorem Sound.ends (hc : c.Sound) {id : TypeId} (h : c.Knows (.type id)) :
    ∃ last, c.EndsAt id last := hc.closed.ends h

end FieldCopy.Catalog
