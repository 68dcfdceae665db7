import Mathlib
import FieldCopy.Plan.Matching
import FieldCopy.Proofs.Catalog.Pointers
import FieldCopy.Proofs.Pieces

/-!
# Members and paths

A member of a structure is a field or a getter.  A path leads from a structure through members to
others: here that is a relation, spelling and case being those of the declarations.

**What is found is a member**, whatever the case rule is: `member?_member`, `accessor?_member`.

**Identifiers.**  Where the names of fields and methods are identifiers (`StructInfo.Named`), a path
can be cut into the members that it is made of.

**Main statements.**  `reaches_of_follow`: the path that following gives leads to the type that it
gives.  `Reaches.follow`: a path that leads somewhere is followed there under every case rule.
-/

namespace FieldCopy

open Catalog

/-! ## Identifiers -/

/-- A name that the language has as an identifier, or as a raw one. -/
def IsIdentifier (name : String) : Prop :=
  ∃ word : List Char, word ≠ [] ∧ (∀ c ∈ word, isIdentifierPart c = true)
    ∧ (name.toList = word ∨ name.toList = 'r' :: '#' :: word)

lemma not_isIdentifierPart {c : Char} (hc : c ∈ ['.', '(', ')']) : isIdentifierPart c = false := by
  fin_cases hc <;> rfl

namespace IsIdentifier

variable {name : String}

lemma notMem (h : IsIdentifier name) {c : Char} (hc : c ∈ ['.', '(', ')']) : c ∉ name.toList := by
  obtain ⟨word, -, hword, hname⟩ := h
  have hnot : c ∉ word := fun hmem => absurd (not_isIdentifierPart hc) (by simp [hword c hmem])
  rcases hname with hname | hname
  · rwa [hname]
  · rw [hname, List.mem_cons, List.mem_cons]
    rintro (rfl | rfl | hmem)
    · exact absurd hc (by decide)
    · exact absurd hc (by decide)
    · exact hnot hmem

end IsIdentifier

/-- The names of the fields of a structure are identifiers that occur once, and so are those of its
methods. -/
structure StructInfo.Named (s : StructInfo) : Prop where
  fields : (s.fields.map FieldInfo.name).Nodup
  methods : (s.methods.map MethodInfo.name).Nodup
  fieldNames : ∀ f ∈ s.fields, IsIdentifier f.name
  methodNames : ∀ m ∈ s.methods, IsIdentifier m.name

/-! ## Finding by name -/

section

variable {α : Type} {nameOf : α → String} {items : List α} {name : String} {caseSensitive : Bool}

/-- What is found by name is an item. -/
lemma mem_of_findNamed? {i : α} (h : findNamed? nameOf items name caseSensitive = some i) :
    i ∈ items := by
  rw [findNamed?] at h
  split at h
  · rename_i hfound
    exact Option.some.inj h ▸ List.mem_of_find?_eq_some hfound
  · split at h
    · exact absurd h (by simp)
    · exact List.mem_of_find?_eq_some h

/-- An item is found by its name if no other has that name, under every case rule. -/
lemma findNamed?_self (distinct : (items.map nameOf).Nodup) {i : α} (hi : i ∈ items) :
    findNamed? nameOf items (nameOf i) caseSensitive = some i := by
  have hfind : items.find? (fun j => nameOf j == nameOf i) = some i := by
    induction items with
    | nil => exact absurd hi List.not_mem_nil
    | cons j rest ih =>
        rw [List.map_cons, List.nodup_cons] at distinct
        rcases List.mem_cons.1 hi with rfl | hi
        · rw [List.find?_cons_of_pos (by simp)]
        · have hne : nameOf j ≠ nameOf i := fun h =>
            distinct.1 (h ▸ List.mem_map_of_mem hi)
          rw [List.find?_cons_of_neg (by simpa using hne), ih distinct.2 hi]
  rw [findNamed?, hfind]

variable (nameOf items name caseSensitive) in
/-- The item that a name stands for: the first of that name, or, ignoring case, the first whose name
differs in case only, if no item has the name itself. -/
inductive StandsFor : α → Prop where
  | exact {front rest : List α} {i : α} (place : items = front ++ i :: rest)
      (same : nameOf i = name) (first : ∀ j ∈ front, nameOf j ≠ name) : StandsFor i
  | folded {front rest : List α} {i : α} (ignored : caseSensitive = false)
      (missing : ∀ j ∈ items, nameOf j ≠ name) (place : items = front ++ i :: rest)
      (same : sameIgnoringCase (nameOf i) name = true)
      (first : ∀ j ∈ front, sameIgnoringCase (nameOf j) name = false) : StandsFor i

/-- What is found by name is what the name stands for. -/
lemma findNamed?_eq_some_iff {i : α} :
    findNamed? nameOf items name caseSensitive = some i
      ↔ StandsFor nameOf items name caseSensitive i := by
  rw [findNamed?]
  constructor
  · intro h
    split at h
    · rename_i found hfound
      obtain rfl := Option.some.inj h
      obtain ⟨hsame, front, rest, hplace, hfirst⟩ := List.find?_eq_some_iff_append.1 hfound
      exact .exact hplace (by simpa using hsame) fun j hj => by simpa using hfirst j hj
    · rename_i hmissing
      split at h
      · exact absurd h (by simp)
      · rename_i hignored
        obtain ⟨hsame, front, rest, hplace, hfirst⟩ := List.find?_eq_some_iff_append.1 h
        exact .folded (by simpa using hignored) (by simpa using hmissing) hplace hsame
          fun j hj => by simpa using hfirst j hj
  · intro h
    cases h with
    | @exact front rest _ place same first =>
        have hfound : items.find? (fun j => nameOf j == name) = some i :=
          List.find?_eq_some_iff_append.2
            ⟨by simpa using same, front, rest, place, fun j hj => by simpa using first j hj⟩
        rw [hfound]
    | @folded front rest _ ignored missing place same first =>
        have hmissing : items.find? (fun j => nameOf j == name) = none := by simpa using missing
        rw [hmissing, ignored]
        exact List.find?_eq_some_iff_append.2
          ⟨same, front, rest, place, fun j hj => by simpa using first j hj⟩

end

section

variable {α : Type} {nameOf : α → String} {items : List α} {name : String}

/-- The item that a name stands for is one of the items. -/
lemma StandsFor.mem {caseSensitive : Bool} {j : α}
    (h : StandsFor nameOf items name caseSensitive j) : j ∈ items :=
  mem_of_findNamed? (findNamed?_eq_some_iff.2 h)

/-- The item that a name stands for has the name under the case rule. -/
lemma StandsFor.sameName {i : Instructions} {j : α}
    (h : StandsFor nameOf items name i.caseSensitive j) : i.sameName (nameOf j) name = true := by
  rw [Instructions.sameName]
  cases h with
  | exact place same first =>
      rw [same]
      split
      · exact beq_self_eq_true name
      · exact sameIgnoringCase_refl name
  | folded ignored missing place same first => rwa [ignored, if_neg (by simp)]

/-- Nothing is found by name if no item has that name under the case rule. -/
lemma findNamed?_eq_none_iff (i : Instructions) :
    findNamed? nameOf items name i.caseSensitive = none
      ↔ ∀ j ∈ items, i.sameName (nameOf j) name = false := by
  simp only [findNamed?, Instructions.sameName]
  cases hcase : i.caseSensitive with
  | true =>
      cases hfound : items.find? fun j => nameOf j == name with
      | some j =>
          have hsame := List.find?_some hfound
          simp only [reduceCtorEq, if_true, false_iff]
          exact fun h => absurd hsame (by simp [h j (List.mem_of_find?_eq_some hfound)])
      | none => simpa using hfound
  | false =>
      cases hfound : items.find? fun j => nameOf j == name with
      | some j =>
          have hsame : nameOf j = name := by simpa using List.find?_some hfound
          simp only [reduceCtorEq, Bool.false_eq_true, if_false, false_iff]
          intro h
          have hdiffers := h j (List.mem_of_find?_eq_some hfound)
          rw [hsame, sameIgnoringCase_refl] at hdiffers
          simp at hdiffers
      | none => simp

end

namespace Matching

/-! ## Members -/

/-- A structure has this member. -/
inductive Member (s : StructInfo) : Accessor → Prop where
  | field {f : FieldInfo} (declared : f ∈ s.fields) : Member s ⟨f.name, f.type, false⟩
  | getter {m : MethodInfo} {t : TypeId} (declared : m ∈ s.methods) (called : m.isGetter = true)
      (result : m.result = some t) : Member s ⟨m.name ++ "()", t, true⟩

lemma member_of_ofMethod? {s : StructInfo} {m : MethodInfo} (hm : m ∈ s.methods) {a : Accessor}
    (h : ofMethod? m = some a) : Member s a := by
  rw [ofMethod?] at h
  split at h
  · rename_i hgetter
    obtain ⟨t, ht, rfl⟩ := Option.map_eq_some_iff.1 h
    exact .getter hm hgetter ht
  · exact absurd h (by simp)

/-- What a segment of a path finds is a member. -/
lemma member?_member {s : StructInfo} {caseSensitive : Bool} {segment : String} {a : Accessor}
    (h : member? s caseSensitive segment = some a) : Member s a := by
  rw [member?] at h
  split at h
  · obtain ⟨m, hm, ha⟩ := Option.bind_eq_some_iff.1 h
    exact member_of_ofMethod? (mem_of_findNamed? hm) ha
  · obtain ⟨f, hf, rfl⟩ := Option.map_eq_some_iff.1 h
    exact .field (mem_of_findNamed? hf)

/-- What matches a field is a member. -/
lemma accessor?_member {k : Matching} {field : FieldInfo} {a : Accessor}
    (h : k.accessor? field = some a) : Member k.source a := by
  rw [accessor?] at h
  rcases (Option.orElse_eq_some _ _ _).1 h with h | ⟨-, h⟩
  · obtain ⟨f, hf, rfl⟩ := Option.map_eq_some_iff.1 h
    refine .field ?_
    rw [matchingField?] at hf
    split at hf
    · exact List.mem_of_find?_eq_some hf
    · exact mem_of_findNamed? hf
  · rw [matchingGetter?] at h
    split at h
    · obtain ⟨m, hm, ha⟩ := Option.bind_eq_some_iff.1 h
      exact member_of_ofMethod? (mem_of_findNamed? hm) ha
    · exact absurd h (by simp)

lemma calledName?_append (name : String) : calledName? (name ++ "()") = some name := by
  have hreverse : (name ++ "()").toList.reverse = ['(', ')'].reverse ++ name.toList.reverse := by
    rw [String.toList_append, List.reverse_append]
    rfl
  rw [calledName?, hreverse, Text.isPrefixOf?_append, Option.map_some, List.reverse_reverse,
    String.ofList_toList]

lemma calledName?_eq_none {name : String} (h : ')' ∉ name.toList) : calledName? name = none := by
  have hprefix : ¬ ['(', ')'].reverse <+: name.toList.reverse := fun hp =>
    h (List.mem_reverse.1 (hp.subset List.mem_cons_self))
  rw [calledName?, Text.isPrefixOf?_eq_none hprefix, Option.map_none]

namespace Member

variable {s : StructInfo} {a : Accessor}

lemma dot_notMem (h : Member s a) (named : s.Named) : '.' ∉ a.path.toList := by
  cases h with
  | field declared => exact (named.fieldNames _ declared).notMem (by decide)
  | getter declared _ _ =>
      rw [String.toList_append, List.mem_append]
      rintro (h | h)
      · exact (named.methodNames _ declared).notMem (by decide) h
      · exact absurd h (by decide)

/-- The path of a getter is its name with the parentheses of a call. -/
lemma called (h : Member s a) (named : s.Named) (hgetter : a.isGetter = true) :
    ∃ name : String, a.path = name ++ "()" ∧ ')' ∉ name.toList := by
  cases h with
  | field _ => exact absurd hgetter (by simp)
  | getter declared _ _ => exact ⟨_, rfl, (named.methodNames _ declared).notMem (by decide)⟩

/-- A member is found by its path under every case rule. -/
lemma member?_self (h : Member s a) (named : s.Named) (caseSensitive : Bool) :
    member? s caseSensitive a.path = some a := by
  cases h with
  | field declared =>
      rw [member?, calledName?_eq_none ((named.fieldNames _ declared).notMem (by decide))]
      simp only
      rw [StructInfo.field?, findNamed?_self named.fields declared]
      rfl
  | getter declared called result =>
      rw [member?, calledName?_append]
      simp only
      rw [StructInfo.method?, findNamed?_self named.methods declared, Option.bind_some, ofMethod?,
        if_pos called, result]
      rfl

end Member

/-! ## Paths -/

/-- Members, as they are written one after the other, lead from a structure to a last one. -/
inductive Reaches (c : Catalog) : StructInfo → List String → Accessor → Prop where
  | last {s : StructInfo} {m : Accessor} (member : Member s m) : Reaches c s [m.path] m
  | through {s inner : StructInfo} {a m : Accessor} {names : List String} (member : Member s a)
      (leads : c.structOf a.type = .ok (some inner)) (rest : Reaches c inner names m) :
      Reaches c s (a.path :: names) m

/-- All names in a catalog are identifiers that occur once in their structure. -/
def Named (c : Catalog) : Prop := ∀ d s, c.struct? d = some s → s.Named

variable {c : Catalog} {s : StructInfo} {names : List String} {m : Accessor}

namespace Reaches

lemma ne_nil (h : Reaches c s names m) : names ≠ [] := by
  cases h <;> exact List.cons_ne_nil _ _

lemma dot_notMem (h : Reaches c s names m) (named : Named c) (hs : s.Named) :
    ∀ n ∈ names, '.' ∉ n.toList := by
  induction h with
  | last member =>
      intro n hn
      rw [List.mem_singleton.1 hn]
      exact member.dot_notMem hs
  | through member leads _ ih =>
      obtain ⟨d, hd⟩ := exists_struct?_of_structOf leads
      intro n hn
      rcases List.mem_cons.1 hn with rfl | hn
      · exact member.dot_notMem hs
      · exact ih (named d _ hd) n hn

/-- The last name is that of the member that is reached. -/
lemma eq_concat (h : Reaches c s names m) (named : Named c) (hs : s.Named) :
    ∃ (front : List String) (s' : StructInfo),
      names = front ++ [m.path] ∧ s'.Named ∧ Member s' m := by
  induction h with
  | @last s m member => exact ⟨[], s, rfl, hs, member⟩
  | through member leads _ ih =>
      obtain ⟨d, hd⟩ := exists_struct?_of_structOf leads
      obtain ⟨front, s', rfl, hs', member'⟩ := ih (named d _ hd)
      exact ⟨_ :: front, s', rfl, hs', member'⟩

/-- **A path that leads somewhere is followed there under every case rule.** -/
theorem follow (h : Reaches c s names m) (named : Named c) (hs : s.Named) (caseSensitive : Bool)
    (done : List String) :
    Matching.follow c caseSensitive s done names
      = .ok (some ⟨".".intercalate (done ++ names), m.type, m.isGetter⟩) := by
  induction h generalizing done with
  | last member =>
      rw [Matching.follow, member.member?_self hs]
      rfl
  | @through s inner a m names member leads rest ih =>
      obtain ⟨d, hd⟩ := exists_struct?_of_structOf leads
      have hrest : names.isEmpty = false := by simpa using rest.ne_nil
      rw [Matching.follow, member.member?_self hs]
      simp only [hrest, leads, ok_bind]
      rw [if_neg (by simp), ih (named d _ hd), List.append_assoc]
      rfl

end Reaches

/-- What one step of following a path finds: a member, which is the end of the path or leads to the
structure from which the rest is followed. -/
lemma exists_of_follow_cons {caseSensitive : Bool} {segment : String} {rest done : List String}
    {a : Accessor} (h : Matching.follow c caseSensitive s done (segment :: rest) = .ok (some a)) :
    ∃ m, member? s caseSensitive segment = some m
      ∧ (rest = [] ∧ a = ⟨".".intercalate (done ++ [m.path]), m.type, m.isGetter⟩
        ∨ ∃ inner, c.structOf m.type = .ok (some inner)
          ∧ Matching.follow c caseSensitive inner (done ++ [m.path]) rest = .ok (some a)) := by
  rw [Matching.follow] at h
  split at h
  · exact absurd h (by simp [pure, Except.pure])
  · rename_i m hm
    refine ⟨m, hm, ?_⟩
    simp only at h
    split at h
    · rename_i hrest
      exact .inl ⟨List.isEmpty_iff.1 hrest, (Option.some.inj (Except.ok.inj h)).symm⟩
    · obtain ⟨found, hfound, h⟩ := exists_of_bind_eq_ok h
      split at h
      · exact .inr ⟨_, hfound, h⟩
      · exact absurd h (by simp [pure, Except.pure])

/-- **What following a path finds is reached,** by the declared names of the members. -/
theorem reaches_of_follow (caseSensitive : Bool) : ∀ (segments done : List String) {s : StructInfo}
    {a : Accessor}, Matching.follow c caseSensitive s done segments = .ok (some a) →
    ∃ names m, Reaches c s names m ∧ a = ⟨".".intercalate (done ++ names), m.type, m.isGetter⟩
  | [], done, s, a, h => absurd h (by simp [Matching.follow, pure, Except.pure])
  | segment :: rest, done, s, a, h => by
      obtain ⟨m, hm, ⟨rfl, rfl⟩ | ⟨inner, hinner, h⟩⟩ := exists_of_follow_cons h
      · exact ⟨_, m, .last (member?_member hm), rfl⟩
      · obtain ⟨names, last, hreaches, rfl⟩ := reaches_of_follow caseSensitive rest _ h
        exact ⟨_, last, .through (member?_member hm) hinner hreaches, by simp⟩

/-! ## Paths as texts -/

/-- Pieces with dots in between, the last one apart. -/
lemma intercalate_concat (front : List (List Char)) (last : List Char) :
    ['.'].intercalate (front ++ [last]) = front.flatMap (fun p => p ++ ['.']) ++ last := by
  induction front with
  | nil => exact List.intercalate_singleton
  | cons p front ih =>
      rw [List.cons_append, List.intercalate_cons_of_ne_nil (by simp), ih, List.flatMap_cons,
        List.append_assoc (p ++ ['.'])]

/-- What stands in front of the last piece ends with a dot. -/
lemma getLast?_front (front : List (List Char)) (last : List Char) (hlast : ')' ∉ last) :
    (front.flatMap (fun p => p ++ ['.']) ++ last).getLast? ≠ some ')' := by
  intro h
  rcases List.eq_nil_or_concat' last with rfl | ⟨l, c, rfl⟩
  · rcases List.eq_nil_or_concat' front with rfl | ⟨front, p, rfl⟩
    · simp at h
    · simp [List.flatMap_append] at h
  · rw [← List.append_assoc, List.getLast?_concat] at h
    exact hlast (by simp [Option.some.inj h])

lemma toList_intercalate_dot (names : List String) :
    (".".intercalate names).toList = ['.'].intercalate (names.map String.toList) := by
  rw [String.toList_intercalate]
  rfl

lemma segments_intercalate (hne : names ≠ []) (hnames : ∀ n ∈ names, '.' ∉ n.toList) :
    segments (".".intercalate names) = names := by
  have hpieces : ∀ p ∈ names.map String.toList, '.' ∉ p := by
    intro p hp
    obtain ⟨n, hn, rfl⟩ := List.mem_map.1 hp
    exact hnames n hn
  rw [segments, toList_intercalate_dot, List.splitOn_intercalate '.' hpieces (by simpa using hne),
    List.map_map]
  have h : String.ofList ∘ String.toList = id := funext fun s => String.ofList_toList
  rw [h, List.map_id]

/-- What was found from a structure: its path leads to a member of its type, and the path of a
getter ends with one pair of parentheses. -/
structure Reached (c : Catalog) (s : StructInfo) (a : Accessor) : Prop where
  reaches : ∃ m, Reaches c s (segments a.path) m ∧ m.type = a.type
  called : a.isGetter = true →
    ∃ front : String, a.path = front ++ "()" ∧ front.toList.getLast? ≠ some ')'

/-- What a path of members leads to was found. -/
lemma Reaches.reached (h : Reaches c s names m) (named : Named c) (hs : s.Named) :
    Reached c s ⟨".".intercalate names, m.type, m.isGetter⟩ := by
  refine ⟨⟨m, ?_, rfl⟩, fun hgetter => ?_⟩
  · rw [segments_intercalate h.ne_nil (h.dot_notMem named hs)]
    exact h
  · obtain ⟨front, s', rfl, hs', member⟩ := h.eq_concat named hs
    obtain ⟨name, hname, hparenthesis⟩ := member.called hs' hgetter
    refine ⟨".".intercalate (front ++ [name]), ?_, ?_⟩
    · rw [← String.toList_inj, String.toList_append, toList_intercalate_dot, toList_intercalate_dot,
        List.map_append, List.map_append, List.map_singleton, List.map_singleton,
        intercalate_concat, intercalate_concat, hname, String.toList_append, List.append_assoc]
    · rw [toList_intercalate_dot, List.map_append, List.map_singleton, intercalate_concat]
      exact getLast?_front _ _ hparenthesis

/-- A member was found. -/
lemma Member.reached (h : Member s m) (named : Named c) (hs : s.Named) : Reached c s m := by
  have hreached := (Reaches.last (c := c) h).reached named hs
  rwa [String.intercalate_singleton] at hreached

end Matching

end FieldCopy
