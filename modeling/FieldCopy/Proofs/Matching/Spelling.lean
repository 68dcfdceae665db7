import Mathlib
import FieldCopy.Code.Conversion
import FieldCopy.Proofs.KnownFailures
import FieldCopy.Proofs.Matching.Typing
import FieldCopy.Proofs.Matching.Unmatched
import FieldCopy.Proofs.PlanShapes
import FieldCopy.Proofs.Propagation

/-!
# How members of the source are spelled

Ignoring case, directives and fields of the destination may spell a member of the source in another
way than its declaration does, while the language distinguishes case.  So it matters which spelling
an assignment carries, because the code reads the source by it (`Conversion.assignment_reads`).

**Declared spelling.**  A member that matching finds, by itself or at the end of a path, is carried
as it is declared.

**Written spelling.**  A path that leads nowhere is carried as directives write it, and so is the
name of a method that directives give (`Matching.methodOverride?`), although the method is looked up
under the case rule.

**Main statement.**  `Matching.resolve_spelled`.
-/

namespace FieldCopy

open Attempt

/-- How an assignment reaches into the source: by the path of a member, or by a method with its
parentheses. -/
def Assignment.access? : Assignment → Option String
  | copy _ path | cast _ path _ | stringer _ path | converter _ path _ _ _ => some path
  | getter _ name | method _ name _ => some (name ++ "()")
  | literal _ _ | skip _ _ | delegateLoop _ _ _ _ _ => none

/-! ## The code -/

namespace Conversion

open Expression

variable (c : Conversion) {path name : String} {e : Expression}

/-- An expression reaches into the source in this way. -/
def Reads (access : String) (e : Expression) : Prop :=
  ∃ d ∈ e.parts, d.text = c.source ++ "." ++ access

lemma reads_member (h : c.sourceMember path ∈ e.parts) : c.Reads path e := ⟨_, h, rfl⟩

lemma reads_invoke (h : c.sourceValue.invoke name ∈ e.parts) : c.Reads (name ++ "()") e :=
  ⟨_, h, by simp [invoke, sourceValue, text, argumentsText, String.append_assoc]⟩

/-- **The code of an assignment reaches into the source as the assignment says.** -/
lemma assignment_reads (k : Catalog) (siblings : Keyed CallShape) {a : Assignment} {access : String}
    (h : a.access? = some access) :
    ∃ e, c.assignment k siblings a = [.assign (.member c.target a.target) e]
      ∧ c.Reads access e := by
  cases a with
  | copy field path =>
      obtain rfl := Option.some.inj h
      refine ⟨_, rfl, c.reads_member ?_⟩
      split <;> simp [parts, clone, invoke, sourceMember]
  | cast field path type =>
      obtain rfl := Option.some.inj h
      refine ⟨_, rfl, c.reads_member ?_⟩
      split <;> simp [parts, argumentsParts, clone, invoke, sourceMember]
  | getter field name =>
      obtain rfl := Option.some.inj h
      exact ⟨_, rfl, c.reads_invoke (self_mem_parts _)⟩
  | stringer field path =>
      obtain rfl := Option.some.inj h
      exact ⟨_, rfl, c.reads_member (by simp [parts, invoke, sourceMember])⟩
  | converter field path function byReference fallible =>
      obtain rfl := Option.some.inj h
      refine ⟨_, rfl, c.reads_member (mem_parts_checked _ ?_)⟩
      cases byReference <;> simp [parts, argumentsParts, clone, invoke, sourceMember]
  | method field name fallible =>
      obtain rfl := Option.some.inj h
      exact ⟨_, rfl, c.reads_invoke (mem_parts_checked _ (self_mem_parts _))⟩
  | literal _ _ | skip _ _ | delegateLoop _ _ _ _ _ => exact absurd h (by simp [Assignment.access?])

end Conversion

namespace Matching

variable (k : Matching) (field : FieldInfo)

/-! ## Members and their spelling -/

/-- The member of the source from which a field is produced, as far as one is found: at the end of
the path that directives name, or else the one that matches. -/
def memberFor : Except Dangling (Option Accessor) :=
  match k.instructions.explicitPath? field.name with
  | some path => k.resolvePath path
  | none => .ok (k.accessor? field)

/-- The path of a member is made of the names of declared members, one after the other. -/
def IsDeclared (m : Accessor) : Prop :=
  ∃ names last, Reaches k.catalog k.source names last ∧ m.path = ".".intercalate names

/-- A member is a method whose name ends with parentheses itself, in front of those of its call. -/
def CalledTwice (m : Accessor) : Prop :=
  m.isGetter = true ∧ ∃ front : String, m.path = front ++ "()()"

/-- What a field carries of the source.  No directive gives a method in the first two cases. -/
inductive Carries : String → Prop where
  | found {m : Accessor} {access : String} (found : k.memberFor field = .ok (some m))
      (spelled : access = m.path ∨ CalledTwice m) : Carries access
  | written (lost : k.memberFor field = .ok none) :
      Carries ((k.instructions.explicitPath? field.name).getD field.name)

variable {k field}

/-- A path of members that ends with a getter ends with parentheses. -/
lemma Reaches.called {c : Catalog} {s : StructInfo} {names : List String} {m : Accessor}
    (h : Reaches c s names m) (getter : m.isGetter = true) :
    ∃ front : String, ".".intercalate names = front ++ "()" := by
  induction h with
  | @last s m member =>
      cases member with
      | field _ => exact absurd getter (by simp)
      | @getter g t _ _ _ => exact ⟨g.name, String.intercalate_singleton⟩
  | @through s inner a m names _ _ rest ih =>
      obtain ⟨front, hfront⟩ := ih getter
      exact ⟨a.path ++ "." ++ front, by
        rw [String.intercalate_cons_of_ne_nil rest.ne_nil, hfront, ← String.append_assoc]⟩

/-- A member that is found has a declared path, and a getter one that ends with parentheses. -/
lemma memberFor_declared {m : Accessor} (h : k.memberFor field = .ok (some m)) :
    k.IsDeclared m ∧ (m.isGetter = true → ∃ front : String, m.path = front ++ "()") := by
  have hreaches : ∃ names last, Reaches k.catalog k.source names last
      ∧ m = ⟨".".intercalate names, last.type, last.isGetter⟩ := by
    rw [memberFor] at h
    split at h
    · simpa using reaches_of_follow _ _ [] h
    · obtain hm := Except.ok.inj h
      exact ⟨_, m, .last (accessor?_member hm), by rw [String.intercalate_singleton]⟩
  obtain ⟨names, last, hreaches, rfl⟩ := hreaches
  exact ⟨⟨names, last, hreaches, rfl⟩, hreaches.called⟩

/-- The parentheses of a getter's path are taken off and put on again. -/
lemma getterName_spelled {m : Accessor} (getter : m.isGetter = true)
    (h : ∃ front : String, m.path = front ++ "()") :
    String.ofList (Text.dropRepeatedEnd ['(', ')'] m.path.toList) ++ "()" = m.path
      ∨ CalledTwice m := by
  obtain ⟨front, hfront⟩ := h
  by_cases htwice : ['(', ')'] <:+ front.toList
  · obtain ⟨rest, hrest⟩ := htwice
    refine .inr ⟨getter, String.ofList rest, ?_⟩
    rw [hfront, ← String.toList_inj]
    simp [← hrest]
  · left
    have hpath : m.path.toList = front.toList ++ ['(', ')'] := by
      rw [hfront, String.toList_append]
      rfl
    rw [hpath, Text.dropRepeatedEnd_append (List.cons_ne_nil _ _) htwice, String.ofList_toList,
      hfront]

/-! ## What assignments carry -/

lemma Called.access?_eq {name source function access : String} {a : Assignment}
    (h : k.Called name source function a) (reads : a.access? = some access) : access = source := by
  cases h with
  | unknown _ | known _ _ _ _ => exact (Option.some.inj reads).symm
  | unusable _ _ => exact absurd reads (by simp [Assignment.access?])

lemma Assigned.access?_eq {m : Accessor} {access : String} {a : Assignment}
    (h : k.Assigned field m a) (reads : a.access? = some access)
    (called : m.isGetter = true → ∃ front : String, m.path = front ++ "()") :
    access = m.path ∨ CalledTwice m := by
  cases h with
  | getter _ getter =>
      obtain rfl := Option.some.inj reads
      exact getterName_spelled getter (called getter)
  | copy _ _ | stringer _ _ _ | cast _ _ _ _ _ => exact .inl (Option.some.inj reads).symm
  | mismatch _ _ _ _ _ => exact absurd reads (by simp [Assignment.access?])

/-- What is left to the members of the source reaches into it, or leaves the field alone. -/
lemma Matched.reads_or_skips {a : Assignment} (h : k.Matched field a) :
    (∃ access, a.access? = some access) ∨ ∃ reason, a = .skip field.name reason := by
  have hassigned : ∀ {m a}, k.Assigned field m a →
      (∃ access, a.access? = some access) ∨ ∃ reason, a = .skip field.name reason := by
    intro m a h
    cases h with
    | mismatch _ _ _ _ _ => exact .inr ⟨_, rfl⟩
    | getter _ _ | copy _ _ | stringer _ _ _ | cast _ _ _ _ _ => exact .inl ⟨_, rfl⟩
  cases h with
  | converter _ call =>
      cases call with
      | unusable _ _ => exact .inr ⟨_, rfl⟩
      | unknown _ | known _ _ _ _ => exact .inl ⟨_, rfl⟩
  | followed _ _ _ assigned | member _ _ _ _ assigned => exact hassigned assigned
  | trusted _ _ _ => exact .inl ⟨_, rfl⟩
  | disabled _ _ _ | missing _ _ _ _ => exact .inr ⟨_, rfl⟩

lemma ensures_assignFound_carries {m : Accessor} (found : k.memberFor field = .ok (some m))
    (converter : Option Converter) :
    Ensures (k.assignFound field m converter) fun a =>
      ∀ access, a.access? = some access → k.Carries field access := by
  cases converter with
  | some c =>
      exact fun a ha access reads =>
        .found found (.inl ((ensures_called _ _ _ a ha).access?_eq reads))
  | none =>
      exact fun a ha access reads =>
        .found found ((ensures_assigned m a ha).access?_eq reads (memberFor_declared found).2)

lemma ensures_assignTrusted_carries (lost : k.memberFor field = .ok none) {path : String}
    (written : (k.instructions.explicitPath? field.name).getD field.name = path)
    (converter : Option Converter) :
    Ensures (k.assignTrusted field.name path converter) fun a =>
      ∀ access, a.access? = some access → k.Carries field access := by
  subst written
  refine .after fun _ => ?_
  cases converter with
  | some c =>
      exact fun a ha access reads => (ensures_called _ _ _ a ha).access?_eq reads ▸ .written lost
  | none => exact .pure fun access reads => Option.some.inj reads ▸ .written lost

lemma ensures_assignMatched_carries :
    Ensures (k.assignMatched field) fun a =>
      ∀ access, a.access? = some access → k.Carries field access := by
  unfold assignMatched
  simp only
  split
  · rename_i path hpath
    change k.instructions.explicitPath? field.name = some path at hpath
    refine .bind (.known fun found hfound => hfound) fun found hfound => ?_
    have hmember : k.memberFor field = .ok found := by rw [memberFor, hpath, ← hfound]
    cases found with
    | some m => exact ensures_assignFound_carries hmember _
    | none => exact ensures_assignTrusted_carries hmember (by rw [hpath, Option.getD_some]) _
  · rename_i hpath
    change k.instructions.explicitPath? field.name = none at hpath
    have hmember : k.memberFor field = .ok (k.accessor? field) := by rw [memberFor, hpath]
    split
    · exact .pure fun access reads => absurd reads (by simp [Assignment.access?])
    · split
      · rename_i hm
        exact ensures_assignFound_carries (hmember.trans (by rw [hm])) _
      · rename_i hm _
        exact ensures_assignTrusted_carries (hmember.trans (by rw [hm]))
          (by rw [hpath, Option.getD_none]) _
      · exact .after fun _ => .pure fun access reads => absurd reads (by simp [Assignment.access?])

/-! ## What fields carry -/

/-- The spelling by which a field reaches into the source. -/
structure Spelled (k : Matching) (field : FieldInfo) (access : String) : Prop where
  /-- A member that is found has the spelling of its declaration. -/
  found : k.methodOverride? field = none → ∀ m, k.memberFor field = .ok (some m) →
    k.IsDeclared m ∧ (access = m.path ∨ CalledTwice m)
  /-- Where none is found, the path is that of the directives, or else the name of the field. -/
  written : k.methodOverride? field = none → k.memberFor field = .ok none →
    access = (k.instructions.explicitPath? field.name).getD field.name
  /-- A method that directives give has the spelling of the directives. -/
  given : ∀ name, k.methodOverride? field = some name → access = name ++ "()"

/-- A method that is found is declared with the name that is looked for, unless no method is. -/
lemma method?_name_iff {s : StructInfo} {name : String} {caseSensitive : Bool} {g : MethodInfo}
    (h : s.method? name caseSensitive = some g) :
    (g.name = name ↔ ∃ m ∈ s.methods, m.name = name) ∧ (caseSensitive = true → g.name = name) := by
  have hstands := findNamed?_eq_some_iff.1 h
  refine ⟨⟨fun hname => ⟨g, hstands.mem, hname⟩, ?_⟩, fun hcase => ?_⟩
  · rintro ⟨m, hm, hname⟩
    cases hstands with
    | exact _ same _ => exact same
    | folded _ missing _ _ _ => exact absurd hname (missing m hm)
  · cases hstands with
    | exact _ same _ => exact same
    | folded ignored _ _ _ _ => exact absurd (ignored.symm.trans hcase) (by simp)

lemma spelled_of_resolve {a : Assignment} {access : String}
    (result : (k.resolve field).outcome.value = .ok a) (reads : a.access? = some access) :
    k.Spelled field access := by
  have hresolve : Ensures (k.resolve field) fun a => ∀ access, a.access? = some access →
      (∃ name, k.methodOverride? field = some name ∧ access = name ++ "()")
        ∨ k.methodOverride? field = none ∧ k.Carries field access := by
    rw [resolve, decide]
    refine .bind ?_ fun a ha => .after fun _ => .pure ha
    simp only
    split
    · exact .pure fun access reads => absurd reads (by simp [Assignment.access?])
    · split
      · exact .pure fun access reads => absurd reads (by simp [Assignment.access?])
      · split
        · rename_i name hname
          exact .pure fun access reads => .inl ⟨name, hname, (Option.some.inj reads).symm⟩
        · rename_i hfree
          exact fun a ha access reads =>
            .inr ⟨hfree, ensures_assignMatched_carries a ha access reads⟩
  rcases hresolve a result access reads with ⟨name, hname, rfl⟩ | ⟨hfree, hcarries⟩
  · refine ⟨fun hfree => ?_, fun hfree => ?_, fun other hother => ?_⟩
    · exact absurd (hname.symm.trans hfree) (by simp)
    · exact absurd (hname.symm.trans hfree) (by simp)
    · rw [Option.some.inj (hname.symm.trans hother)]
  · have hgiven : ∀ name, k.methodOverride? field = some name → access = name ++ "()" :=
      fun name hname => absurd (hfree.symm.trans hname) (by simp)
    cases hcarries with
    | @found m _ found spelled =>
        refine ⟨fun _ m' hm' => ?_, fun _ hlost => ?_, hgiven⟩
        · obtain rfl : m = m' := Option.some.inj (Except.ok.inj (found.symm.trans hm'))
          exact ⟨(memberFor_declared found).1, spelled⟩
        · exact absurd (found.symm.trans hlost) (by simp)
    | written lost =>
        refine ⟨fun _ m hm => ?_, fun _ _ => rfl, hgiven⟩
        exact absurd (lost.symm.trans hm) (by simp)

/-- **Members that are found are spelled as they are declared,** in the plan and in the code, but
for methods that directives give.  Those are spelled as the directives do, which is the declared
spelling only if a method is declared under that very name. -/
theorem resolve_spelled {a : Assignment} {access : String}
    (result : (k.resolve field).outcome.value = .ok a) (reads : a.access? = some access) :
    k.Spelled field access
      ∧ (∀ name g, k.methodOverride? field = some name →
        k.source.method? name k.instructions.caseSensitive = some g →
          (g.name = name ↔ ∃ m ∈ k.source.methods, m.name = name)
            ∧ (k.instructions.caseSensitive = true → g.name = name))
      ∧ ∀ (c : Conversion) (siblings : Keyed CallShape),
        ∃ e, c.assignment k.catalog siblings a = [.assign (.member c.target field.name) e]
          ∧ c.Reads access e := by
  refine ⟨spelled_of_resolve result reads, fun name g _ hg => method?_name_iff hg,
    fun c siblings => ?_⟩
  rw [← (ensures_resolve_outcome a result).target_eq]
  exact c.assignment_reads k.catalog siblings reads

/-- The address of the owner has the declared spelling, where the directives write `owner.Email`. -/
theorem petMail_spelled :
    ∃ m, petMail.memberFor ⟨"mail", ⟨0⟩, none, false, false⟩ = .ok (some m)
      ∧ petMail.IsDeclared m ∧ m.path = "owner.email" := by
  have hresult : (petMail.resolve ⟨"mail", ⟨0⟩, none, false, false⟩).outcome.value
      = .ok (.copy "mail" "owner.email") := by rfl
  have hfound : petMail.memberFor ⟨"mail", ⟨0⟩, none, false, false⟩
      = .ok (some ⟨"owner.email", ⟨0⟩, false⟩) := by rfl
  exact ⟨_, hfound, ((resolve_spelled hresult rfl).1.found rfl _ hfound).1, rfl⟩

/-- A pet whose method `nick` gives its label, where the directives write `NICK`. -/
def nicked : Matching where
  catalog := { Catalog.empty with types := #[⟨⟨0⟩, "String", .basic⟩] }
  instructions := { Instructions.default with
    caseSensitive := false
    methodOverrides := Keyed.empty.insert "label" "NICK" }
  source := ⟨"Pet", "", [], [⟨"nick", 0, some ⟨0⟩, false⟩]⟩
  method := "card"
  anchor := ⟨"pets.rs", 4, 5⟩

/-- The method that is found is called by another name than it is declared with. -/
theorem nicked_misspelled :
    ∃ g a, nicked.methodOverride? label = some "NICK"
      ∧ nicked.source.method? "NICK" nicked.instructions.caseSensitive = some g
      ∧ (nicked.resolve label).outcome.value = .ok a
      ∧ g.name = "nick" ∧ a.access? = some "NICK()"
      ∧ ∀ (c : Conversion) (siblings : Keyed CallShape),
        ∃ e, c.assignment nicked.catalog siblings a = [.assign (.member c.target "label") e]
          ∧ c.Reads "NICK()" e :=
  ⟨⟨"nick", 0, some ⟨0⟩, false⟩, .method "label" "NICK" false, rfl, by decide, rfl, rfl, rfl,
    fun c siblings => c.assignment_reads nicked.catalog siblings rfl⟩

end Matching

end FieldCopy
