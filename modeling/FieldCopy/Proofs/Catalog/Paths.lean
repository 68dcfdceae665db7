import Mathlib
import FieldCopy.Keyed
import FieldCopy.Proofs.Pieces

/-!
# Paths and their suffixes

**Paths and names.**  A path is cut into names and put together again (`join_segments`,
`segments_join`).

**Suffixes.**  One path is a suffix of another if its names are the last names of the other
(`mem_suffixes_iff_suffix`).  What is left of a path without the words that lead to the root is a
suffix (`withoutRoot_mem_suffixes`).

**Claims.**  Keys are claimed by the first who asks for them: what a table had for a key stays, and
otherwise it has the value of the claim (`Keyed.find?_claim`).
-/

namespace FieldCopy

namespace ModulePath

/-! ## Paths and names -/

lemma segments_ne_nil (path : String) : segments path ≠ [] := by
  rw [segments, Ne, List.map_eq_nil_iff]
  exact Text.split_ne_nil _ _

lemma toList_join (names : List String) :
    (join names).toList = [':', ':'].intercalate (names.map String.toList) := by
  rw [join, String.toList_intercalate]
  rfl

lemma map_toList_segments (path : String) :
    (segments path).map String.toList = Text.split [':', ':'] path.toList := by
  rw [segments, List.map_map]
  have h : String.toList ∘ String.ofList = id := funext fun s => String.toList_ofList
  rw [h, List.map_id]

/-- **The names of a path make up the path.** -/
theorem join_segments (path : String) : join (segments path) = path := by
  rw [← String.toList_inj, toList_join, map_toList_segments,
    Text.intercalate_split (List.cons_ne_nil _ _)]

/-- **Names without colons are found again.** -/
theorem segments_join {names : List String} (hne : names ≠ [])
    (hnames : ∀ n ∈ names, ':' ∉ n.toList) : segments (join names) = names := by
  have hpieces : ∀ p ∈ names.map String.toList, ':' ∉ p := by
    intro p hp
    obtain ⟨n, hn, rfl⟩ := List.mem_map.1 hp
    exact hnames n hn
  rw [segments, toList_join, Text.split_intercalate (by simpa using hne) hpieces, List.map_map]
  have h : String.ofList ∘ String.toList = id := funext fun s => String.ofList_toList
  rw [h, List.map_id]

/-! ## Suffixes -/

lemma mem_tails_iff {α : Type} {t : List α} : ∀ {l : List α}, t ∈ tails l ↔ t ≠ [] ∧ t <:+ l
  | [] => by simp [tails]
  | a :: rest => by
      rw [tails, List.mem_cons, mem_tails_iff, List.suffix_cons_iff]
      constructor
      · rintro (rfl | ⟨hne, h⟩)
        · exact ⟨List.cons_ne_nil a rest, .inl rfl⟩
        · exact ⟨hne, .inr h⟩
      · rintro ⟨hne, h | h⟩
        · exact .inl h
        · exact .inr ⟨hne, h⟩

/-- The suffixes of a path are the paths that its last names make up. -/
lemma mem_suffixes_iff_join {path p : String} :
    path ∈ suffixes p ↔ ∃ t, t ≠ [] ∧ t <:+ segments p ∧ path = join t := by
  rw [suffixes, List.mem_map]
  constructor
  · rintro ⟨t, ht, rfl⟩
    obtain ⟨hne, hsuffix⟩ := mem_tails_iff.1 ht
    exact ⟨t, hne, hsuffix, rfl⟩
  · rintro ⟨t, hne, hsuffix, rfl⟩
    exact ⟨t, mem_tails_iff.2 ⟨hne, hsuffix⟩, rfl⟩

/-- The last names of a path are found again in the path that they make up. -/
lemma segments_join_of_suffix {names : List String} (hne : names ≠ []) {path : String}
    (h : names <:+ segments path) : segments (join names) = names := by
  have hsuffix : names.map String.toList <:+ Text.split [':', ':'] path.toList := by
    rw [← map_toList_segments]
    exact h.map String.toList
  have hid : String.ofList ∘ String.toList = id := funext fun s => String.ofList_toList
  rw [segments, toList_join,
    Text.split_intercalate_of_suffix (List.cons_ne_nil _ _) (by simpa using hne) hsuffix,
    List.map_map, hid, List.map_id]

/-- **A path is a suffix of another if its names are the last names of the other.** -/
theorem mem_suffixes_iff_suffix {path p : String} :
    path ∈ suffixes p ↔ segments path <:+ segments p := by
  rw [mem_suffixes_iff_join]
  constructor
  · rintro ⟨t, hne, hsuffix, rfl⟩
    rwa [segments_join_of_suffix hne hsuffix]
  · intro h
    exact ⟨segments path, segments_ne_nil path, h, (join_segments path).symm⟩

/-- A path is one of its own suffixes. -/
lemma self_mem_suffixes (path : String) : path ∈ suffixes path :=
  mem_suffixes_iff_suffix.2 List.suffix_rfl

/-- A word in front of a path, with two colons behind it, is a name of its own. -/
lemma segments_word {word : List Char} (hword : ':' ∉ word) (rest : List Char) :
    segments (String.ofList (word ++ [':', ':'] ++ rest))
      = String.ofList word :: segments (String.ofList rest) := by
  rw [segments, segments, String.toList_ofList, String.toList_ofList,
    Text.split_of_cutAt (List.cons_ne_nil _ _) (Text.cutAt_append hword rest), List.map_cons]

lemma suffixes_word {word : List Char} (hword : ':' ∉ word) (rest : List Char) {p : String}
    (h : p ∈ suffixes (String.ofList rest)) :
    p ∈ suffixes (String.ofList (word ++ [':', ':'] ++ rest)) := by
  rw [mem_suffixes_iff_suffix] at h ⊢
  rw [segments_word hword]
  exact h.trans (List.suffix_cons _ _)

/-- What is left behind a repeated word is a suffix. -/
lemma dropRepeated_mem_suffixes (word : List Char) (hword : ':' ∉ word)
    {f : List Char → List Char} (hf : ∀ s, String.ofList (f s) ∈ suffixes (String.ofList s))
    (s : List Char) :
    String.ofList (f (Text.dropRepeated (word ++ [':', ':']) s)) ∈ suffixes (String.ofList s) := by
  have haffix : word ++ [':', ':'] ≠ [] := by simp
  by_cases h : word ++ [':', ':'] <+: s
  · obtain ⟨rest, hrest⟩ := h
    have hlength : rest.length < s.length := by
      rw [← hrest, List.length_append, List.length_append, List.length_cons]
      omega
    rw [← hrest, Text.dropRepeated_append haffix]
    exact suffixes_word hword rest (dropRepeated_mem_suffixes word hword hf rest)
  · rw [Text.dropRepeated_of_not_prefix h]
    exact hf s
  termination_by s.length

/-- **A path without the words that lead to the root is a suffix of the path.** -/
theorem withoutRoot_mem_suffixes (path : String) : withoutRoot path ∈ suffixes path := by
  have hself : ∀ s : List Char,
      String.ofList (Text.dropRepeated "self::".toList s) ∈ suffixes (String.ofList s) :=
    dropRepeated_mem_suffixes "self".toList (by decide) (f := id)
      fun s => self_mem_suffixes (String.ofList s)
  have hcrate := dropRepeated_mem_suffixes "crate".toList (by decide) hself path.toList
  rw [String.ofList_toList] at hcrate
  exact hcrate

end ModulePath

/-! ## Claims -/

/-- The name of something in a module. -/
structure QualifiedName where
  name : String
  package : String
  deriving DecidableEq

namespace QualifiedName

def path (n : QualifiedName) : String := ModulePath.inside n.package n.name

/-- Whether a path is one of those that lead to the name unless they are taken. -/
def claims (n : QualifiedName) (path : String) : Bool := (ModulePath.suffixes n.path).contains path

lemma claims_iff {n : QualifiedName} {path : String} :
    n.claims path = true ↔ path ∈ ModulePath.suffixes n.path := by
  rw [claims, List.contains_iff_mem]

lemma claims_eq (n : QualifiedName) (path : String) :
    n.claims path = decide (path ∈ ModulePath.suffixes n.path) := by
  rw [claims, List.contains_eq_mem]

/-- **The first that claims a path** is a certain one exactly if none in front of it has the path
as a suffix. -/
lemma first_eq_iff {ns : List QualifiedName} {path : String} {i k : Fin ns.length}
    (hi : (ns.get i).claims path = true) (hfirst : ∀ j < i, ¬ (ns.get j).claims path = true)
    (hk : (ns.get k).claims path = true) :
    i = k ↔ ∀ j < k, path ∉ ModulePath.suffixes (ns.get j).path := by
  constructor
  · intro hik j hj
    rw [← claims_iff]
    exact hfirst j (hik ▸ hj)
  · intro h
    have hki : ¬ i < k := fun hlt => h i hlt (claims_iff.1 hi)
    have hik : ¬ k < i := fun hlt => hfirst k hlt hk
    exact le_antisymm (not_lt.1 hik) (not_lt.1 hki)

end QualifiedName

namespace Keyed

variable {α : Type}

/-- What a table has for a key after some keys were claimed. -/
lemma find?_claim (value : α) (key : String) :
    ∀ (keys : List String) (t : Keyed α),
      (keys.foldl (fun t k => t.insertIfNew k value) t).find? key
        = (t.find? key).or (if key ∈ keys then some value else none)
  | [], t => by simp
  | k :: keys, t => by
      rw [List.foldl_cons, find?_claim value key keys, find?_insertIfNew]
      by_cases h : key = k
      · subst h
        cases t.find? key <;> simp
      · simp [h]

end Keyed

end FieldCopy
