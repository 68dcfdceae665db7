/-!
# Tables with text keys

A table assigns values to texts.  Its entries stand in the order of their keys and no key occurs
twice, so two tables with the same answers are equal, however they were filled.

**The view** of a table is `find?`.  `find?_insert` and `find?_insertIfNew` say what the two ways to
add an entry do to it.
-/

namespace FieldCopy

namespace Keyed

variable {α : Type}

/-- Puts an entry into a list that is ordered by key, in the place of one with the same key. -/
def place (key : String) (value : α) : List (String × α) → List (String × α)
  | [] => [(key, value)]
  | e :: rest =>
      if key < e.1 then (key, value) :: e :: rest
      else if key = e.1 then (key, value) :: rest
      else e :: place key value rest

theorem mem_place {key : String} {value : α} {e : String × α} :
    ∀ {entries : List (String × α)}, e ∈ place key value entries →
      e = (key, value) ∨ e ∈ entries
  | [], h => by simpa [place] using h
  | f :: rest, h => by
      unfold place at h
      split at h
      · simpa using h
      · split at h
        · rcases List.mem_cons.1 h with h | h
          · exact .inl h
          · exact .inr (List.mem_cons_of_mem _ h)
        · rcases List.mem_cons.1 h with h | h
          · exact .inr (h ▸ List.mem_cons_self)
          · rcases mem_place h with h | h
            · exact .inl h
            · exact .inr (List.mem_cons_of_mem _ h)

theorem lt_of_not_lt_of_ne {a b : String} (h : ¬ a < b) (hne : a ≠ b) : b < a := by
  have hle : b ≤ a := String.not_lt.1 h
  rcases Decidable.em (b < a) with hlt | hlt
  · exact hlt
  · exact absurd (String.le_antisymm (String.not_lt.1 hlt) hle) hne

theorem place_pairwise (key : String) (value : α) :
    ∀ {entries : List (String × α)}, entries.Pairwise (fun a b => a.1 < b.1) →
      (place key value entries).Pairwise fun a b => a.1 < b.1
  | [], _ => by simp [place]
  | e :: rest, h => by
      obtain ⟨he, hrest⟩ := List.pairwise_cons.1 h
      unfold place
      split
      · rename_i hlt
        refine List.pairwise_cons.2 ⟨fun f hf => ?_, h⟩
        rcases List.mem_cons.1 hf with hf | hf
        · exact hf ▸ hlt
        · exact String.lt_trans hlt (he f hf)
      · rename_i hnlt
        split
        · rename_i heq
          exact List.pairwise_cons.2 ⟨fun f hf => heq ▸ he f hf, hrest⟩
        · rename_i hne
          refine List.pairwise_cons.2 ⟨fun f hf => ?_, place_pairwise key value hrest⟩
          rcases mem_place hf with hf | hf
          · exact hf ▸ lt_of_not_lt_of_ne hnlt hne
          · exact he f hf

/-- What a list of entries assigns to a key. -/
def look (key : String) : List (String × α) → Option α
  | [] => none
  | e :: rest => if e.1 = key then some e.2 else look key rest

theorem look_place (key : String) (value : α) (k : String) :
    ∀ entries : List (String × α),
      look k (place key value entries) = if k = key then some value else look k entries
  | [] => by simp [place, look, eq_comm]
  | e :: rest => by
      unfold place
      split
      · simp [look, eq_comm]
      · split
        · rename_i heq
          simp only [look, ← heq]
          by_cases h : k = key
          · simp [h]
          · have h' : ¬ key = k := fun e => h e.symm
            simp [h, h']
        · rename_i hne
          simp only [look, look_place key value k rest]
          by_cases h : e.1 = k
          · have : k ≠ key := fun hk => hne (hk.symm.trans h.symm)
            simp [h, this]
          · simp [h]

end Keyed

/-- A table from texts to values of type `α`. -/
structure Keyed (α : Type) where
  entries : List (String × α)
  ordered : entries.Pairwise fun a b => a.1 < b.1
  deriving DecidableEq

namespace Keyed

variable {α : Type}

/-- The table without entries. -/
def empty : Keyed α := ⟨[], .nil⟩

instance : EmptyCollection (Keyed α) := ⟨empty⟩

instance : Inhabited (Keyed α) := ⟨empty⟩

/-- The value of a key. -/
def find? (t : Keyed α) (key : String) : Option α := look key t.entries

/-- Whether a key has a value. -/
def contains (t : Keyed α) (key : String) : Bool := (t.find? key).isSome

/-- Gives a key a value, in the place of an earlier one. -/
def insert (t : Keyed α) (key : String) (value : α) : Keyed α :=
  ⟨place key value t.entries, place_pairwise key value t.ordered⟩

/-- Gives a key a value unless it has one. -/
def insertIfNew (t : Keyed α) (key : String) (value : α) : Keyed α :=
  if t.contains key then t else t.insert key value

/-- The number of keys. -/
def size (t : Keyed α) : Nat := t.entries.length

/-- The table of these entries, later ones replacing earlier ones. -/
def ofList (entries : List (String × α)) : Keyed α :=
  entries.foldl (fun t e => t.insert e.1 e.2) empty

@[simp] theorem find?_empty (key : String) : (empty : Keyed α).find? key = none := rfl

theorem find?_insert (t : Keyed α) (key : String) (value : α) (k : String) :
    (t.insert key value).find? k = if k = key then some value else t.find? k :=
  look_place key value k t.entries

theorem find?_insertIfNew (t : Keyed α) (key : String) (value : α) (k : String) :
    (t.insertIfNew key value).find? k =
      if k = key then some ((t.find? key).getD value) else t.find? k := by
  unfold insertIfNew contains
  cases h : t.find? key with
  | some a =>
      by_cases hk : k = key
      · simp [hk, h]
      · simp [hk]
  | none => simp [find?_insert]

end Keyed

end FieldCopy
