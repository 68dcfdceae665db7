import Mathlib
import FieldCopy.Proofs.Grounded

/-!
# Following paths

A path that directives name is cut at its dots, and its segments are followed one by one through the
catalog.  Here that is a relation: each segment names a member of the structure reached so far
(`Matching.Names`), and pointers are looked through from one member to the structure of the next
(`Matching.LeadsTo`).

**Names.**  What a name stands for, its own name stands for under every case rule
(`StandsFor.own`), since nothing that stands in front has that name.

**Texts that differ in case.**  A dot or a parenthesis is no letter.  So two texts that differ in
case only have the same dots, and both end with the parentheses of a call or none does.

**Main statement.**  `Matching.resolvePath_exact`: what is found at the end of a path is what its
segments lead to, and the path under which it is found leads there under every case rule.
-/

namespace FieldCopy

open Catalog

/-! ## Texts that differ in case -/

/-- A character in front of the small letters is no letter turned small. -/
lemma eq_of_toLower_eq {c d : Char} (hc : c < 'a') (h : d.toLower = c) : d = c := by
  rw [Char.toLower] at h
  split at h
  · rename_i hupper
    have hval := congrArg Char.toNat h
    have hlt : c.toNat < 97 := hc
    simp [UInt32.le_iff_toNat_le] at hupper hval
    omega
  · exact h

section

variable {s t s' t' : String}

lemma sameIgnoringCase_iff :
    sameIgnoringCase s t = true ↔ s.toList.map Char.toLower = t.toList.map Char.toLower := by
  rw [sameIgnoringCase, beq_iff_eq]

lemma sameIgnoringCase_append (h : sameIgnoringCase s t = true)
    (h' : sameIgnoringCase s' t' = true) : sameIgnoringCase (s ++ s') (t ++ t') = true := by
  rw [sameIgnoringCase_iff] at h h' ⊢
  rw [String.toList_append, String.toList_append, List.map_append, List.map_append, h, h']

/-- A mark in one of the texts is in the other. -/
lemma mem_of_sameIgnoringCase (h : sameIgnoringCase s t = true) {c : Char} (hc : c < 'a')
    (lower : c.toLower = c) (hmem : c ∈ s.toList) : c ∈ t.toList := by
  have hlower : c ∈ t.toList.map Char.toLower :=
    sameIgnoringCase_iff.1 h ▸ List.mem_map.2 ⟨c, hmem, lower⟩
  obtain ⟨d, hd, hdc⟩ := List.mem_map.1 hlower
  exact eq_of_toLower_eq hc hdc ▸ hd

/-- If one of the texts ends with the parentheses of a call, so does the other. -/
lemma exists_call_of_sameIgnoringCase {name : String}
    (h : sameIgnoringCase s (name ++ "()") = true) : ∃ name', s = name' ++ "()" := by
  rw [sameIgnoringCase_iff, String.toList_append, List.map_append] at h
  obtain ⟨front, call, hs, -, hlower⟩ := List.map_eq_append_iff.1 h
  have hcall : call = ['(', ')'] := by
    change call.map Char.toLower = ['(', ')'] at hlower
    obtain ⟨a, behind, rfl, ha, hbehind⟩ := List.map_eq_cons_iff.1 hlower
    obtain ⟨b, rest, rfl, hb, hrest⟩ := List.map_eq_cons_iff.1 hbehind
    rw [eq_of_toLower_eq (by decide) ha, eq_of_toLower_eq (by decide) hb,
      List.map_eq_nil_iff.1 hrest]
  refine ⟨String.ofList front, ?_⟩
  rw [← String.toList_inj, hs, hcall, String.toList_append, String.toList_ofList]
  rfl

end

/-! ## Names and what they stand for -/

namespace StandsFor

variable {α : Type} {nameOf : α → String} {items : List α} {name : String} {caseSensitive : Bool}
  {i : α}

/-- What a name stands for has the name, but for the case of letters. -/
lemma sameIgnoringCase (h : StandsFor nameOf items name caseSensitive i) :
    sameIgnoringCase (nameOf i) name = true := by
  cases h with
  | exact _ same _ => exact same ▸ sameIgnoringCase_refl _
  | folded _ _ _ same _ => exact same

lemma eq_name (h : StandsFor nameOf items name true i) : nameOf i = name := by
  cases h with
  | exact _ same _ => exact same
  | folded ignored _ _ _ _ => exact absurd ignored (by simp)

/-- **What a name stands for, its own name stands for,** under every case rule. -/
lemma own (h : StandsFor nameOf items name caseSensitive i) (caseSensitive' : Bool) :
    StandsFor nameOf items (nameOf i) caseSensitive' i := by
  cases h with
  | exact place same first => exact .exact place rfl (same ▸ first)
  | folded _ _ place same first =>
      -- an item in front with that very name would have been the first to differ in case only
      refine .exact place rfl fun j hj heq => ?_
      rw [← heq, first j hj] at same
      exact absurd same (by simp)

end StandsFor

namespace Matching

/-! ## Segments -/

lemma calledName?_eq_some_iff {segment name : String} :
    calledName? segment = some name ↔ segment = name ++ "()" := by
  constructor
  · intro h
    obtain ⟨front, hfront, rfl⟩ := Option.map_eq_some_iff.1 h
    have happend := List.append_eq_of_isPrefixOf?_eq_some hfront
    rw [← String.toList_inj, ← List.reverse_inj, ← happend, String.toList_append,
      String.toList_ofList, List.reverse_append, List.reverse_reverse]
    rfl
  · rintro rfl
    exact calledName?_append name

/-- The members that methods are. -/
lemma ofMethod?_eq_some_iff {m : MethodInfo} {a : Accessor} :
    ofMethod? m = some a ↔ m.parameterCount = 0 ∧ m.fallible = false
      ∧ ∃ t, m.result = some t ∧ a = ⟨m.name ++ "()", t, true⟩ := by
  rw [ofMethod?, MethodInfo.isGetter]
  cases hresult : m.result with
  | none => simp
  | some t => by_cases h : m.parameterCount = 0 <;> cases m.fallible <;> simp [h, eq_comm]

variable (s : StructInfo) (caseSensitive : Bool) in
/-- A segment of a path names a member of a structure: a field, or, with the parentheses of a call,
a method that takes nothing, gives a value and cannot fail. -/
inductive Names : String → Accessor → Prop where
  | field {segment : String} {f : FieldInfo} (plain : ∀ name : String, segment ≠ name ++ "()")
      (named : StandsFor FieldInfo.name s.fields segment caseSensitive f) :
      Names segment ⟨f.name, f.type, false⟩
  | getter {name : String} {m : MethodInfo} {t : TypeId}
      (named : StandsFor MethodInfo.name s.methods name caseSensitive m)
      (nothing : m.parameterCount = 0) (infallible : m.fallible = false)
      (result : m.result = some t) : Names (name ++ "()") ⟨m.name ++ "()", t, true⟩

variable {s : StructInfo} {caseSensitive : Bool} {segment : String} {a : Accessor}

/-- **What a segment finds is what it names.** -/
lemma member?_eq_some_iff :
    member? s caseSensitive segment = some a ↔ Names s caseSensitive segment a := by
  rw [member?]
  constructor
  · intro h
    split at h
    · rename_i name hname
      obtain rfl := calledName?_eq_some_iff.1 hname
      obtain ⟨m, hm, ha⟩ := Option.bind_eq_some_iff.1 h
      obtain ⟨nothing, infallible, t, result, rfl⟩ := ofMethod?_eq_some_iff.1 ha
      exact .getter (findNamed?_eq_some_iff.1 hm) nothing infallible result
    · rename_i hname
      obtain ⟨f, hf, rfl⟩ := Option.map_eq_some_iff.1 h
      refine .field (fun name heq => ?_) (findNamed?_eq_some_iff.1 hf)
      exact absurd (calledName?_eq_some_iff.2 heq) (by simp [hname])
  · intro h
    cases h with
    | field plain named =>
        have hname : calledName? segment = none :=
          Option.eq_none_iff_forall_ne_some.2 fun name h => plain name (calledName?_eq_some_iff.1 h)
        rw [hname]
        exact Option.map_eq_some_iff.2 ⟨_, findNamed?_eq_some_iff.2 named, rfl⟩
    | @getter name m t named nothing infallible result =>
        rw [calledName?_append]
        exact Option.bind_eq_some_iff.2 ⟨m, findNamed?_eq_some_iff.2 named,
          ofMethod?_eq_some_iff.2 ⟨nothing, infallible, t, result, rfl⟩⟩

namespace Names

/-- What a segment names is a member. -/
lemma member (h : Names s caseSensitive segment a) : Member s a :=
  member?_member (member?_eq_some_iff.2 h)

lemma sameIgnoringCase (h : Names s caseSensitive segment a) :
    sameIgnoringCase a.path segment = true := by
  cases h with
  | field _ named => exact named.sameIgnoringCase
  | getter named _ _ _ =>
      exact sameIgnoringCase_append named.sameIgnoringCase (sameIgnoringCase_refl _)

lemma path_eq (h : Names s true segment a) : a.path = segment := by
  cases h with
  | field _ named => exact named.eq_name
  | getter named _ _ _ => rw [named.eq_name]

lemma dot_notMem (h : Names s caseSensitive segment a) (plain : '.' ∉ segment.toList) :
    '.' ∉ a.path.toList := fun hmem =>
  plain (mem_of_sameIgnoringCase h.sameIgnoringCase (by decide) (by decide) hmem)

/-- **A member is named by its path,** under every case rule. -/
lemma own (h : Names s caseSensitive segment a) (caseSensitive' : Bool) :
    Names s caseSensitive' a.path a := by
  cases h with
  | @field _ f plain named =>
      refine .field (fun name heq => ?_) (named.own caseSensitive')
      have hsame := named.sameIgnoringCase
      rw [sameIgnoringCase_comm, show f.name = name ++ "()" from heq] at hsame
      obtain ⟨name', hname'⟩ := exists_call_of_sameIgnoringCase hsame
      exact plain name' hname'
  | getter named nothing infallible result =>
      exact .getter (named.own caseSensitive') nothing infallible result

end Names

/-! ## Paths -/

variable (c : Catalog) (caseSensitive : Bool) in
/-- Segments are followed one by one from a structure, each to a member of the structure reached so
far, with pointers looked through in between.  What they lead to is the last member, under the path
that the names of all make up. -/
inductive LeadsTo : StructInfo → List String → Accessor → Prop where
  | last {s : StructInfo} {segment : String} {a : Accessor}
      (names : Names s caseSensitive segment a) : LeadsTo s [segment] a
  | through {s inner : StructInfo} {segment : String} {rest : List String} {a m : Accessor}
      (names : Names s caseSensitive segment a) (behind : c.LeadsToStruct a.type inner)
      (onward : LeadsTo inner rest m) :
      LeadsTo s (segment :: rest) ⟨a.path ++ "." ++ m.path, m.type, m.isGetter⟩

variable {c : Catalog} {path : List String}

lemma LeadsTo.ne_nil (h : LeadsTo c caseSensitive s path a) : path ≠ [] := by
  cases h <;> exact List.cons_ne_nil _ _

/-- Two names at the end are one with a dot in between. -/
lemma intercalate_dot_concat (done : List String) (name rest : String) :
    ".".intercalate (done ++ [name] ++ [rest])
      = ".".intercalate (done ++ [name ++ "." ++ rest]) := by
  induction done with
  | nil =>
      rw [List.nil_append, List.nil_append, List.singleton_append,
        String.intercalate_cons_of_ne_nil (List.cons_ne_nil _ _), String.intercalate_singleton,
        String.intercalate_singleton]
  | cons n done ih =>
      rw [List.cons_append, List.cons_append, List.cons_append,
        String.intercalate_cons_of_ne_nil (by simp), String.intercalate_cons_of_ne_nil (by simp),
        ih]

/-- **What following a path finds, the path leads to.** -/
lemma leadsTo_of_follow : ∀ (path done : List String) {s : StructInfo} {a : Accessor},
    follow c caseSensitive s done path = .ok (some a) →
    ∃ m, LeadsTo c caseSensitive s path m
      ∧ a = ⟨".".intercalate (done ++ [m.path]), m.type, m.isGetter⟩
  | [], done, s, a, h => absurd h (by simp [follow, pure, Except.pure])
  | segment :: rest, done, s, a, h => by
      obtain ⟨m, hm, ⟨rfl, rfl⟩ | ⟨inner, hinner, h⟩⟩ := exists_of_follow_cons h
      · exact ⟨m, .last (member?_eq_some_iff.1 hm), rfl⟩
      · obtain ⟨last, hlast, rfl⟩ := leadsTo_of_follow rest _ h
        have behind := (structOf_eq_some_iff hinner inner).1 rfl
        exact ⟨_, .through (member?_eq_some_iff.1 hm) behind hlast, by rw [intercalate_dot_concat]⟩

/-- **What a path leads to, following it finds.**  The catalog is closed, so that looking through
pointers ends. -/
lemma LeadsTo.follow (h : LeadsTo c caseSensitive s path a) (hc : c.IsClosed) {id : StructId}
    (hs : c.struct? id = some s) (done : List String) :
    follow c caseSensitive s done path
      = .ok (some ⟨".".intercalate (done ++ [a.path]), a.type, a.isGetter⟩) := by
  induction h generalizing id done with
  | last names =>
      rw [Matching.follow, member?_eq_some_iff.2 names]
      rfl
  | @through s inner segment rest a m names behind onward ih =>
      obtain ⟨d, hd⟩ := behind.exists_struct?
      obtain ⟨found, hfound⟩ := hc.structOf (names.member.knows hc hs)
      obtain rfl := (structOf_eq_some_iff hfound inner).2 behind
      have hrest : rest.isEmpty = false := by simpa using onward.ne_nil
      rw [Matching.follow, member?_eq_some_iff.2 names]
      simp only [hrest, hfound, ok_bind]
      rw [if_neg (by simp), ih hd, intercalate_dot_concat]

/-! ## Paths as texts -/

/-- The pieces of a text between the occurrences of a character do not have it. -/
lemma notMem_of_mem_splitOn {mark : Char} {piece : List Char} :
    ∀ {text : List Char}, piece ∈ text.splitOn mark → mark ∉ piece
  | [], h => by
      rw [List.splitOn_nil, List.mem_singleton] at h
      exact h ▸ List.not_mem_nil
  | c :: text, h => by
      rw [List.splitOn_cons_eq_if_modifyHead] at h
      split at h
      · rcases List.mem_cons.1 h with rfl | h
        · exact List.not_mem_nil
        · exact notMem_of_mem_splitOn h
      · rename_i hc
        cases hpieces : text.splitOn mark with
        | nil => exact absurd hpieces (List.splitOn_ne_nil mark text)
        | cons first rest =>
            have hplain : ∀ p ∈ first :: rest, mark ∉ p := fun p hp =>
              notMem_of_mem_splitOn (hpieces ▸ hp)
            rw [hpieces, List.modifyHead_cons] at h
            rcases List.mem_cons.1 h with rfl | h
            · rw [List.mem_cons, not_or]
              exact ⟨fun heq => hc (beq_iff_eq.2 heq.symm), hplain first List.mem_cons_self⟩
            · exact hplain piece (List.mem_cons_of_mem _ h)

lemma dot_notMem_segments (path : String) : ∀ n ∈ segments path, '.' ∉ n.toList := by
  intro n hn
  obtain ⟨piece, hpiece, rfl⟩ := List.mem_map.1 hn
  rw [String.toList_ofList]
  exact notMem_of_mem_splitOn hpiece

lemma intercalate_segments (path : String) : ".".intercalate (segments path) = path := by
  have h : String.toList ∘ String.ofList = id := funext fun s => String.toList_ofList
  rw [← String.toList_inj, toList_intercalate_dot, segments, List.map_map, h, List.map_id,
    List.intercalate_splitOn]

lemma segments_of_notMem {name : String} (h : '.' ∉ name.toList) : segments name = [name] := by
  rw [segments, List.splitOn_eq_singleton h, List.map_singleton, String.ofList_toList]

lemma segments_cons {name : String} (h : '.' ∉ name.toList) (rest : String) :
    segments (name ++ "." ++ rest) = name :: segments rest := by
  have htext : (name ++ "." ++ rest).toList = name.toList ++ '.' :: rest.toList := by
    simp [String.toList_append]
  rw [segments, segments, htext, List.splitOn_append_cons_self_of_not_mem h, List.map_cons,
    String.ofList_toList]

namespace LeadsTo

lemma sameIgnoringCase (h : LeadsTo c caseSensitive s path a) :
    sameIgnoringCase a.path (".".intercalate path) = true := by
  induction h with
  | last names =>
      rw [String.intercalate_singleton]
      exact names.sameIgnoringCase
  | through names _ onward ih =>
      rw [String.intercalate_cons_of_ne_nil onward.ne_nil]
      exact sameIgnoringCase_append
        (sameIgnoringCase_append names.sameIgnoringCase (sameIgnoringCase_refl _)) ih

lemma path_eq (h : LeadsTo c true s path a) : a.path = ".".intercalate path := by
  induction h with
  | last names => rw [String.intercalate_singleton, names.path_eq]
  | through names _ onward ih =>
      rw [String.intercalate_cons_of_ne_nil onward.ne_nil, ← ih, ← names.path_eq]

/-- **A path leads to where the names of its members lead,** one name for each segment, and these
lead there under every case rule. -/
lemma own (h : LeadsTo c caseSensitive s path a) (plain : ∀ n ∈ path, '.' ∉ n.toList)
    (caseSensitive' : Bool) :
    (segments a.path).length = path.length ∧ LeadsTo c caseSensitive' s (segments a.path) a := by
  induction h with
  | last names =>
      rw [segments_of_notMem (names.dot_notMem (plain _ List.mem_cons_self))]
      exact ⟨rfl, .last (names.own caseSensitive')⟩
  | through names behind onward ih =>
      obtain ⟨hlength, hown⟩ := ih fun n hn => plain n (List.mem_cons_of_mem _ hn)
      rw [segments_cons (names.dot_notMem (plain _ List.mem_cons_self)), List.length_cons,
        List.length_cons, hlength]
      exact ⟨rfl, .through (names.own caseSensitive') behind hown⟩

end LeadsTo

/-! ## Resolving paths -/

variable {k : Matching}

/-- The same to match against, under another case rule. -/
def underCase (k : Matching) (caseSensitive : Bool) : Matching :=
  { k with instructions := { k.instructions with caseSensitive := caseSensitive } }

/-- What is found at the end of a path is what its segments lead to. -/
lemma Placed.resolvePath_eq_some_iff (placed : k.Placed) (path : String) :
    k.resolvePath path = .ok (some a)
      ↔ LeadsTo k.catalog k.instructions.caseSensitive k.source (segments path) a := by
  obtain ⟨id, hid⟩ := placed.source
  constructor
  · intro h
    obtain ⟨m, hm, rfl⟩ := leadsTo_of_follow _ _ h
    rwa [List.nil_append, String.intercalate_singleton]
  · intro h
    rw [Matching.resolvePath, h.follow placed.closed hid, List.nil_append,
      String.intercalate_singleton]

/-- **Resolving a path is sound, complete and canonical.**  It always has an answer, and finds a
member exactly if the segments of the path lead to it.  The path under which the member is found has
as many segments, is the same but for the case of letters, and resolves to the same member under
every case rule. -/
theorem resolvePath_exact (placed : k.Placed) (path : String) :
    ∃ found, k.resolvePath path = .ok found
      ∧ (∀ a, found = some a
        ↔ LeadsTo k.catalog k.instructions.caseSensitive k.source (segments path) a)
      ∧ ∀ a, found = some a →
        (segments a.path).length = (segments path).length
          ∧ sameIgnoringCase a.path path = true
          ∧ (k.instructions.caseSensitive = true → a.path = path)
          ∧ ∀ caseSensitive, (k.underCase caseSensitive).resolvePath a.path = .ok (some a) := by
  obtain ⟨found, hfound, -⟩ := placed.resolvePath path
  have hleads : ∀ a, found = some a
      ↔ LeadsTo k.catalog k.instructions.caseSensitive k.source (segments path) a := by
    intro a
    rw [← placed.resolvePath_eq_some_iff, hfound, Except.ok.injEq]
  refine ⟨found, hfound, hleads, fun a ha => ?_⟩
  have h := (hleads a).1 ha
  have hown := h.own (dot_notMem_segments path)
  refine ⟨(hown true).1, ?_, fun hcase => ?_, fun caseSensitive => ?_⟩
  · have hsame := h.sameIgnoringCase
    rwa [intercalate_segments] at hsame
  · rw [hcase] at h
    rw [h.path_eq, intercalate_segments]
  · have hplaced : (k.underCase caseSensitive).Placed := ⟨placed.closed, placed.source⟩
    exact (hplaced.resolvePath_eq_some_iff a.path).2 (hown caseSensitive).2

/-- A pet whose owner is in a box; case is ignored. -/
def boxedOwner : Matching where
  catalog := { Catalog.empty with
    types := #[⟨⟨0⟩, "String", .basic⟩, ⟨⟨1⟩, "Owner", .struct ⟨1⟩⟩,
      ⟨⟨2⟩, "Box<Owner>", .pointer ⟨1⟩⟩]
    structs := #[⟨"Pet", "", [⟨"owner", ⟨2⟩, none, true, false⟩], []⟩,
      ⟨"Owner", "", [], [⟨"EMAIL", 1, some ⟨0⟩, false⟩, ⟨"email", 0, some ⟨0⟩, false⟩]⟩] }
  instructions := { Instructions.default with caseSensitive := false }
  source := ⟨"Pet", "", [⟨"owner", ⟨2⟩, none, true, false⟩], []⟩
  method := "convert"
  anchor := ⟨"pets.rs", 1, 1⟩

lemma boxedOwner_placed : boxedOwner.Placed :=
  ⟨(sound_of_storedNumbers (by decide) (by decide)).closed, ⟨0⟩, rfl⟩

/-- The path `Owner.email()` leads through the box, and is resolved to `owner.email()`. -/
theorem boxedOwner_resolved :
    boxedOwner.resolvePath "Owner.email()" = .ok (some ⟨"owner.email()", ⟨0⟩, true⟩)
      ∧ LeadsTo boxedOwner.catalog false boxedOwner.source ["Owner", "email()"]
        ⟨"owner.email()", ⟨0⟩, true⟩
      ∧ (boxedOwner.underCase true).resolvePath "owner.email()"
        = .ok (some ⟨"owner.email()", ⟨0⟩, true⟩) := by
  have hresolved : boxedOwner.resolvePath "Owner.email()"
      = .ok (some ⟨"owner.email()", ⟨0⟩, true⟩) := by rfl
  have hsegments : segments "Owner.email()" = ["Owner", "email()"] := by decide
  obtain ⟨found, hfound, hleads, hown⟩ := resolvePath_exact boxedOwner_placed "Owner.email()"
  obtain rfl := Except.ok.inj (hresolved.symm.trans hfound)
  exact ⟨hresolved, hsegments ▸ (hleads _).1 rfl, (hown _ rfl).2.2.2 true⟩

end Matching

end FieldCopy
