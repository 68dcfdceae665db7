import Mathlib
import FieldCopy.Proofs.Matching.Members
import FieldCopy.Proofs.Matching.Outcomes

/-!
# Assignments are well typed

An assignment that takes its value from a member of the source names the member by a path.  In a
catalog whose names are identifiers the path, cut at its dots and followed as it is written, leads
to a member from whose type the field can be produced in that way (`Matching.Fits`).

**Main statement.**  `Matching.resolve_typed`.  The one exception is a path that a directive names
and that leads nowhere: it is used as it is written.
-/

namespace FieldCopy

/-- The path of the source member from which a field is produced without a converter, a getter with
its parentheses. -/
def Assignment.sourcePath? : Assignment → Option String
  | copy _ path | cast _ path _ | stringer _ path => some path
  | getter _ name => some (name ++ "()")
  | converter _ _ _ _ _ | method _ _ _ | literal _ _ | skip _ _ | delegateLoop _ _ _ _ _ => none

namespace Matching

variable {k : Matching} {field : FieldInfo}

/-- A field can be produced in this way from a member of a type. -/
inductive Fits (k : Matching) (field : FieldInfo) (type : TypeId) : Assignment → Prop where
  | copy {path : String} (same : type = field.type) : Fits k field type (.copy field.name path)
  | getter {method : String} (same : type = field.type) :
      Fits k field type (.getter field.name method)
  | cast {path : String} {source target : TypeInfo} (differs : type ≠ field.type)
      (allowed : k.instructions.casts = true) (known : k.catalog.type? type = some source)
      (targetKnown : k.catalog.type? field.type = some target) (basic : source.isBasic = true)
      (targetBasic : target.isBasic = true) :
      Fits k field type (.cast field.name path target.name)
  | stringer {path : String} {target : TypeInfo} (differs : type ≠ field.type)
      (allowed : k.instructions.stringers = true)
      (targetKnown : k.catalog.type? field.type = some target) (text : target.isText = true)
      (turns : k.catalog.isStringer type = .ok true) :
      Fits k field type (.stringer field.name path)

/-- The parentheses of a getter are taken off once. -/
lemma getterName_append {front : String} (h : front.toList.getLast? ≠ some ')') :
    String.ofList (Text.dropRepeatedEnd ['(', ')'] (front ++ "()").toList) = front := by
  have hsuffix : ¬ ['(', ')'] <:+ front.toList := by
    rintro ⟨rest, hrest⟩
    rw [← hrest] at h
    exact h (by simp)
  rw [String.toList_append]
  change String.ofList (Text.dropRepeatedEnd ['(', ')'] (front.toList ++ ['(', ')'])) = front
  rw [Text.dropRepeatedEnd_append (List.cons_ne_nil _ _) hsuffix, String.ofList_toList]

/-- **A member that was found is assigned by a path to it, in a way that fits its type.** -/
lemma Assigned.typed {m : Accessor} (hm : Reached k.catalog k.source m) {a : Assignment}
    (h : k.Assigned field m a) :
    a.sourcePath? = none ∨ a.sourcePath? = some m.path ∧ k.Fits field m.type a := by
  cases h with
  | getter same called =>
      obtain ⟨front, hfront, hlast⟩ := hm.called called
      refine .inr ⟨?_, .getter same⟩
      rw [hfront, getterName_append hlast, Assignment.sourcePath?]
  | copy same _ => exact .inr ⟨rfl, .copy same⟩
  | stringer differs type turns =>
      obtain ⟨allowed, text, hstringer⟩ := turns
      exact .inr ⟨rfl, .stringer differs allowed (Catalog.type?_of_typeAt type) text hstringer⟩
  | cast differs memberType type _ casts =>
      obtain ⟨allowed, basic, targetBasic⟩ := casts
      exact .inr ⟨rfl, .cast differs allowed (Catalog.type?_of_typeAt memberType)
        (Catalog.type?_of_typeAt type) basic targetBasic⟩
  | mismatch _ _ _ _ _ => exact .inl rfl

/-- **Matching is well typed.**  The source path of a field leads to a member whose type fits, or it
is the path that directives name, which leads nowhere and is copied as it is written. -/
theorem resolve_typed (named : Named k.catalog)
    (source : ∃ id, k.catalog.struct? id = some k.source) {a : Assignment}
    (result : (k.resolve field).outcome.value = .ok a) {path : String}
    (hpath : a.sourcePath? = some path) :
    (a = .copy field.name path
        ∧ k.instructions.override? k.instructions.fieldOverrides field.name = some path
        ∧ k.resolvePath path = .ok none
        ∧ ∀ m, ¬ Reaches k.catalog k.source (segments path) m)
      ∨ ∃ m, Reaches k.catalog k.source (segments path) m ∧ k.Fits field m.type a := by
  obtain ⟨id, hid⟩ := source
  have hs := named id _ hid
  have hassigned : ∀ m, Reached k.catalog k.source m → k.Assigned field m a →
      ∃ m, Reaches k.catalog k.source (segments path) m ∧ k.Fits field m.type a := by
    intro m hm h
    rcases h.typed hm with hnone | ⟨hsome, hfits⟩
    · exact absurd (hnone.symm.trans hpath) (by simp)
    · obtain rfl := Option.some.inj (hsome.symm.trans hpath)
      obtain ⟨last, hreaches, htype⟩ := hm.reaches
      exact ⟨last, hreaches, htype ▸ hfits⟩
  cases ensures_resolve_outcome a result with
  | literal _ => exact absurd hpath (by simp [Assignment.sourcePath?])
  | skipped _ _ => exact absurd hpath (by simp [Assignment.sourcePath?])
  | method _ _ _ => exact absurd hpath (by simp [Assignment.sourcePath?])
  | matched _ _ _ matched =>
      cases matched with
      | converter _ call => cases call <;> exact absurd hpath (by simp [Assignment.sourcePath?])
      | trusted _ given lost =>
          obtain rfl := Option.some.inj hpath
          refine .inl ⟨rfl, given, lost, fun m hm => ?_⟩
          have hfollow := hm.follow named hs k.instructions.caseSensitive []
          exact absurd (lost.symm.trans hfollow) (by simp)
      | followed _ _ found assigned =>
          obtain ⟨names, m, hreaches, rfl⟩ := reaches_of_follow _ _ _ found
          exact .inr (hassigned _ (hreaches.reached named hs) assigned)
      | disabled _ _ _ => exact absurd hpath (by simp [Assignment.sourcePath?])
      | member _ _ _ found assigned =>
          exact .inr (hassigned _ ((accessor?_member found).reached named hs) assigned)
      | missing _ _ _ _ => exact absurd hpath (by simp [Assignment.sourcePath?])

/-- A pet with an owner; the text `mail` of the destination is the address of the owner, which the
directives spell in another case. -/
def petMail : Matching where
  catalog := { Catalog.empty with
    types := #[⟨⟨0⟩, "String", .basic⟩, ⟨⟨1⟩, "Owner", .struct ⟨1⟩⟩]
    structs := #[⟨"Pet", "", [⟨"owner", ⟨1⟩, none, false, false⟩], []⟩,
      ⟨"Owner", "", [⟨"email", ⟨0⟩, none, false, false⟩], []⟩] }
  instructions := { Instructions.default with
    caseSensitive := false
    fieldOverrides := Keyed.empty.insert "mail" "owner.Email" }
  source := ⟨"Pet", "", [⟨"owner", ⟨1⟩, none, false, false⟩], []⟩
  method := "convert"
  anchor := ⟨"pets.rs", 1, 1⟩

lemma petMail_named : Named petMail.catalog := by
  intro d s hs
  have hmem := Array.mem_of_getElem? hs
  have hword : ∀ name ∈ ["owner", "email"], IsIdentifier name := by
    intro name hname
    simp only [List.mem_cons, List.not_mem_nil, or_false] at hname
    rcases hname with rfl | rfl <;>
      exact ⟨_, by decide, by simp [isIdentifierPart], .inl rfl⟩
  simp only [petMail, List.mem_toArray, List.mem_cons, List.not_mem_nil, or_false] at hmem
  rcases hmem with rfl | rfl <;>
    exact ⟨by decide, by decide, by simpa using hword _ (by decide), by simp⟩

/-- A path leads to the address of the owner, which has the type of the field. -/
theorem petMail_typed :
    (petMail.resolve ⟨"mail", ⟨0⟩, none, false, false⟩).outcome.value
        = .ok (.copy "mail" "owner.email")
      ∧ ∃ m, Reaches petMail.catalog petMail.source ["owner", "email"] m ∧ m.type = ⟨0⟩ := by
  have hresult : (petMail.resolve ⟨"mail", ⟨0⟩, none, false, false⟩).outcome.value
      = .ok (.copy "mail" "owner.email") := by rfl
  have hpath : segments "owner.email" = ["owner", "email"] := by decide
  refine ⟨hresult, ?_⟩
  rcases resolve_typed petMail_named ⟨⟨0⟩, rfl⟩ hresult rfl with
    ⟨-, -, hlost, -⟩ | ⟨m, hreaches, hfits⟩
  · exact absurd hlost (by decide)
  · rw [hpath] at hreaches
    cases hfits with
    | copy same => exact ⟨m, hreaches, same⟩

end Matching

end FieldCopy
