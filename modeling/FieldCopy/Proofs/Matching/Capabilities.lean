import Mathlib
import FieldCopy.Proofs.Grounded
import FieldCopy.Proofs.Matching.Outcomes

/-!
# Allowing more

Directives allow matching to cast, to turn into text and to call getters.  To allow one thing more
is conservative: a field that was produced stays as it was, but for a cast that gives way to a text,
and for a converter that now is given the getter where it was given the bare name of the field.

**Two runs.**  `Attempt.Relates x y R` says that whatever two attempts give is related.  Two runs of
matching look the same things up in the same order; they differ where the capability is asked for,
and there the one that is allowed less has nothing (`Matching.Gains`).

**Main statement.**  `Matching.allowing_conservative`.
-/

namespace FieldCopy

open Attempt

/-! ## Capabilities -/

/-- What directives can allow: to cast, to turn into text, to call getters. -/
inductive Capability where
  | casts
  | stringers
  | getters
  deriving DecidableEq

namespace Instructions

/-- The instructions with one thing allowed, or forbidden. -/
def allowing (i : Instructions) (allowed : Bool) : Capability → Instructions
  | .casts => { i with casts := allowed }
  | .stringers => { i with stringers := allowed }
  | .getters => { i with getters := allowed }

variable (i : Instructions) (allowed : Bool) (c : Capability)

@[simp] lemma allowing_matching : (i.allowing allowed c).matching = i.matching := by
  cases c <;> rfl

@[simp] lemma allowing_caseSensitive :
    (i.allowing allowed c).caseSensitive = i.caseSensitive := by
  cases c <;> rfl

@[simp] lemma allowing_fieldOverrides :
    (i.allowing allowed c).fieldOverrides = i.fieldOverrides := by
  cases c <;> rfl

@[simp] lemma allowing_methodOverrides :
    (i.allowing allowed c).methodOverrides = i.methodOverrides := by
  cases c <;> rfl

@[simp] lemma allowing_converters : (i.allowing allowed c).converters = i.converters := by
  cases c <;> rfl

@[simp] lemma allowing_literals : (i.allowing allowed c).literals = i.literals := by
  cases c <;> rfl

@[simp] lemma override?_allowing {α : Type} (table : Keyed α) (field : String) :
    (i.allowing allowed c).override? table field = i.override? table field := by
  cases c <;> rfl

@[simp] lemma skipped_allowing (field : String) :
    (i.allowing allowed c).skipped field = i.skipped field := by
  cases c <;> rfl

end Instructions

/-! ## Two attempts -/

namespace Attempt

variable {α β γ δ : Type}

/-- Whatever two attempts give is related. -/
def Relates (x : Attempt α) (y : Attempt β) (R : α → β → Prop) : Prop :=
  ∀ a b, x.outcome.value = .ok a → y.outcome.value = .ok b → R a b

namespace Relates

variable {x : Attempt α} {y : Attempt β} {R : γ → δ → Prop}

lemma refl {R : α → α → Prop} (h : ∀ a, R a a) (x : Attempt α) : Relates x x R := by
  intro a b ha hb
  obtain rfl : a = b := Except.ok.inj (ha.symm.trans hb)
  exact h a

lemma pure {R : α → β → Prop} {a : α} {b : β} (h : R a b) :
    Relates (Pure.pure a : Attempt α) (Pure.pure b : Attempt β) R := by
  intro d e hd he
  obtain rfl : a = d := Except.ok.inj hd
  obtain rfl : b = e := Except.ok.inj he
  exact h

lemma of_ensures {P : α → Prop} {Q : β → Prop} {R : α → β → Prop} (hx : Ensures x P)
    (hy : Ensures y Q) (h : ∀ a b, P a → Q b → R a b) : Relates x y R :=
  fun a b ha hb => h a b (hx a ha) (hy b hb)

lemma bind {S : α → β → Prop} {f : α → Attempt γ} {g : β → Attempt δ} (hxy : Relates x y S)
    (hfg : ∀ a b, S a b → Relates (f a) (g b) R) : Relates (x >>= f) (y >>= g) R := by
  intro d e hd he
  cases hx : x.outcome.value with
  | error f =>
      rw [(outcome_bind_error hx _).1] at hd
      simp at hd
  | ok a =>
      cases hy : y.outcome.value with
      | error f =>
          rw [(outcome_bind_error hy _).1] at he
          simp at he
      | ok b =>
          rw [(outcome_bind_ok hx f).1] at hd
          rw [(outcome_bind_ok hy g).1] at he
          exact hfg a b (hxy a b hx hy) d e hd he

/-- Two attempts that begin alike go on from the same. -/
lemma same {f : α → Attempt γ} {g : α → Attempt δ} (hfg : ∀ a, Relates (f a) (g a) R) :
    Relates (x >>= f) (x >>= g) R := by
  refine (refl (R := Eq) (fun _ => rfl) x).bind fun a b hab => ?_
  rw [← hab]
  exact hfg a

/-- What only the first attempt does before does not matter. -/
lemma after {y : Attempt δ} {f : α → Attempt γ} (hf : ∀ a, Relates (f a) y R) :
    Relates (x >>= f) y R := by
  intro d e hd he
  cases hx : x.outcome.value with
  | error f =>
      rw [(outcome_bind_error hx _).1] at hd
      simp at hd
  | ok a =>
      rw [(outcome_bind_ok hx f).1] at hd
      exact hf a d e hd he

end Relates

end Attempt

namespace Matching

variable (k : Matching) (field : FieldInfo) (c : Capability)

/-- The same matching with one thing allowed, or forbidden. -/
def allowing (allowed : Bool) (c : Capability) : Matching :=
  { k with instructions := k.instructions.allowing allowed c }

/-- A getter of the source that has the name of the field. -/
inductive GetterFor : Accessor → Prop where
  | named {g : MethodInfo} {t : TypeId} (declared : g ∈ k.source.methods)
      (called : g.isGetter = true) (result : g.result = some t)
      (same : k.instructions.sameName g.name field.name = true) :
      GetterFor ⟨g.name ++ "()", t, true⟩

/-- What an assignment changes to when one thing more is allowed. -/
inductive Gains : Capability → Assignment → Assignment → Prop where
  | cast {path target : String} :
      Gains .casts (.skip field.name .typeMismatch) (.cast field.name path target)
  | text {path : String} :
      Gains .stringers (.skip field.name .typeMismatch) (.stringer field.name path)
  | textForCast {path target : String} :
      Gains .stringers (.cast field.name path target) (.stringer field.name path)
  | member {m : Accessor} {a : Assignment} (getter : k.GetterFor field m)
      (assigned : (k.allowing true .getters).Assigned field m a) :
      Gains .getters (.skip field.name .noMatch) a
  | converted {m : Accessor} {function : String} {reference fallible : Bool}
      (getter : k.GetterFor field m) :
      Gains .getters (.converter field.name field.name function reference fallible)
        (.converter field.name m.path function reference fallible)

variable {k field c}

/-! ## Members -/

lemma TurnsIntoText.allow {m : Accessor} {target : TypeInfo}
    (h : (k.allowing false c).TurnsIntoText m target) :
    (k.allowing true c).TurnsIntoText m target := by
  obtain ⟨hallowed, htext, hstringer⟩ := h
  refine ⟨?_, htext, hstringer⟩
  cases c with
  | stringers => rfl
  | casts => exact hallowed
  | getters => exact hallowed

lemma Casts.allow {source target : TypeInfo} (h : (k.allowing false c).Casts source target) :
    (k.allowing true c).Casts source target := by
  obtain ⟨hallowed, hbasic⟩ := h
  refine ⟨?_, hbasic⟩
  cases c with
  | casts => rfl
  | stringers => exact hallowed
  | getters => exact hallowed

/-- Only one capability makes a member turn into text. -/
lemma TurnsIntoText.gained {m : Accessor} {target : TypeInfo}
    (h : (k.allowing true c).TurnsIntoText m target)
    (hnot : ¬ (k.allowing false c).TurnsIntoText m target) : c = .stringers := by
  cases c with
  | stringers => rfl
  | casts => exact absurd h hnot
  | getters => exact absurd h hnot

/-- Only one capability makes a member be cast. -/
lemma Casts.gained {source target : TypeInfo} (h : (k.allowing true c).Casts source target)
    (hnot : ¬ (k.allowing false c).Casts source target) : c = .casts := by
  cases c with
  | casts => rfl
  | stringers => exact absurd h hnot
  | getters => exact absurd h hnot

/-- A member of the type of the field is taken as it is, whatever is allowed. -/
lemma Assigned.of_same {m : Accessor} {a : Assignment} (h : k.Assigned field m a)
    (same : m.type = field.type) :
    a = if m.isGetter then
        .getter field.name (String.ofList (Text.dropRepeatedEnd ['(', ')'] m.path.toList))
      else .copy field.name m.path := by
  cases h with
  | getter _ called => rw [if_pos called]
  | copy _ plain => rw [if_neg (by simp [plain])]
  | stringer differs | cast differs | mismatch differs => exact absurd same differs

/-- What assigning a member comes to when one thing more is allowed. -/
lemma Assigned.allow {m : Accessor} {a b : Assignment}
    (ha : (k.allowing false c).Assigned field m a) (hb : (k.allowing true c).Assigned field m b) :
    b = a ∨ k.Gains field c a b := by
  by_cases hsame : m.type = field.type
  · rw [ha.of_same hsame, hb.of_same hsame]
    exact .inl rfl
  cases ha with
  | getter same | copy same => exact absurd same hsame
  | stringer _ type turns =>
      cases hb with
      | getter same | copy same => exact absurd same hsame
      | stringer => exact .inl rfl
      | cast _ _ type' stays | mismatch _ _ type' stays =>
          obtain rfl := Except.ok.inj (type.symm.trans type')
          exact absurd turns.allow stays
  | cast _ memberType type stays casts =>
      cases hb with
      | getter same | copy same => exact absurd same hsame
      | stringer _ type' turns =>
          obtain rfl := Except.ok.inj (type.symm.trans type')
          obtain rfl := turns.gained stays
          exact .inr .textForCast
      | cast _ _ type' =>
          obtain rfl := Except.ok.inj (type.symm.trans type')
          exact .inl rfl
      | mismatch _ memberType' type' _ unfit =>
          obtain rfl := Except.ok.inj (memberType.symm.trans memberType')
          obtain rfl := Except.ok.inj (type.symm.trans type')
          exact absurd casts.allow unfit
  | mismatch _ memberType type stays unfit =>
      cases hb with
      | getter same | copy same => exact absurd same hsame
      | stringer _ type' turns =>
          obtain rfl := Except.ok.inj (type.symm.trans type')
          obtain rfl := turns.gained stays
          exact .inr .text
      | cast _ memberType' type' _ casts =>
          obtain rfl := Except.ok.inj (memberType.symm.trans memberType')
          obtain rfl := Except.ok.inj (type.symm.trans type')
          obtain rfl := casts.gained unfit
          exact .inr .cast
      | mismatch => exact .inl rfl

variable (k field c) in
/-- A field that matches is found whatever is allowed, and a getter if getters are. -/
lemma accessor?_allow :
    (k.allowing true c).accessor? field = (k.allowing false c).accessor? field
      ∨ c = .getters ∧ (k.allowing false c).accessor? field = none
        ∧ ∀ m, (k.allowing true c).accessor? field = some m → k.GetterFor field m := by
  cases c with
  | casts => exact .inl rfl
  | stringers => exact .inl rfl
  | getters =>
      have hfield : ∀ allowed,
          (k.allowing allowed .getters).matchingField? field = k.matchingField? field :=
        fun _ => rfl
      cases h : k.matchingField? field with
      | some f =>
          rw [accessor?, accessor?, hfield, hfield, h]
          exact .inl rfl
      | none =>
          refine .inr ⟨rfl, ?_, ?_⟩
          · rw [accessor?, hfield, h]
            rfl
          · intro m hm
            rw [accessor?, hfield, h] at hm
            have hgetter : (k.source.method? field.name k.instructions.caseSensitive).bind ofMethod?
                = some m := hm
            obtain ⟨g, hg, hm⟩ := Option.bind_eq_some_iff.1 hgetter
            have hstands := findNamed?_eq_some_iff.1 hg
            rw [ofMethod?] at hm
            split at hm
            · rename_i hcalled
              obtain ⟨t, ht, rfl⟩ := Option.map_eq_some_iff.1 hm
              exact .named hstands.mem hcalled ht hstands.sameName
            · exact absurd hm (by simp)

/-! ## Runs -/

lemma relates_assignMember (m : Accessor) :
    Relates ((k.allowing false c).assignMember field m) ((k.allowing true c).assignMember field m)
      fun a b => b = a ∨ k.Gains field c a b :=
  .of_ensures (ensures_assigned m) (ensures_assigned m) fun _ _ ha hb => ha.allow hb

lemma relates_assignFound (m : Accessor) (converter : Option Converter) :
    Relates ((k.allowing false c).assignFound field m converter)
      ((k.allowing true c).assignFound field m converter)
      fun a b => b = a ∨ k.Gains field c a b := by
  cases converter with
  | some _ => exact .refl (fun _ => .inl rfl) _
  | none => exact relates_assignMember m

/-- A converter is called alike on whatever path it is given. -/
lemma relates_converterCall (name path path' function : String) :
    Relates (k.converterCall name path function) (k.converterCall name path' function)
      fun a b => b = a ∨ ∃ reference fallible,
        a = .converter name path function reference fallible
          ∧ b = .converter name path' function reference fallible := by
  unfold converterCall
  split
  · exact .pure (.inr ⟨true, false, rfl, rfl⟩)
  · rename_i f _
    split
    · exact .same fun t => .pure (.inr ⟨t.name.startsWith "&", f.fallible, rfl, rfl⟩)
    · exact .refl (fun _ => .inl rfl) _

/-- A getter takes the place of nothing. -/
lemma relates_missing {m : Accessor} (getter : k.GetterFor field m) (message : String) :
    Relates (do k.warn message; pure (Assignment.skip field.name .noMatch))
      ((k.allowing true .getters).assignMember field m)
      fun a b => b = a ∨ k.Gains field .getters a b := by
  refine .after fun _ => .of_ensures (P := (· = .skip field.name .noMatch)) (.pure rfl)
    (ensures_assigned m) fun a b ha hb => ?_
  rw [ha]
  exact .inr (.member getter hb)

/-- A getter takes the place of the bare name that a converter is given. -/
lemma relates_bare {m : Accessor} (getter : k.GetterFor field m) (converter : Converter) :
    Relates (k.assignTrusted field.name field.name (some converter))
      (k.assignFound field m (some converter)) fun a b => b = a ∨ k.Gains field .getters a b := by
  refine .after fun _ a b ha hb => ?_
  rcases relates_converterCall _ _ _ _ a b ha hb with h | ⟨reference, fallible, rfl, rfl⟩
  · exact .inl h
  · exact .inr (.converted getter)

/-- What matching a field by directives and by names comes to when one thing more is allowed. -/
lemma relates_assignMatched :
    Relates ((k.allowing false c).assignMatched field) ((k.allowing true c).assignMatched field)
      fun a b => b = a ∨ k.Gains field c a b := by
  have hpath : ∀ allowed path,
      (k.allowing allowed c).resolvePath path = k.resolvePath path := by
    intro allowed path
    cases c <;> rfl
  have hinstructions : ∀ allowed,
      (k.allowing allowed c).instructions = k.instructions.allowing allowed c := fun _ => rfl
  unfold assignMatched
  simp only [hinstructions, hpath, Instructions.override?_allowing,
    Instructions.allowing_converters, Instructions.allowing_fieldOverrides,
    Instructions.allowing_matching]
  generalize k.instructions.override? k.instructions.converters field.name = converter
  split
  · refine .same fun found => ?_
    cases found with
    | some m => exact relates_assignFound m converter
    | none => exact .refl (fun _ => .inl rfl) _
  · split
    · exact .refl (fun _ => .inl rfl) _
    · rcases accessor?_allow k field c with hsame | ⟨rfl, hnone, hgetter⟩
      · rw [hsame]
        cases (k.allowing false c).accessor? field with
        | some m => exact relates_assignFound m converter
        | none => cases converter <;> exact .refl (fun _ => .inl rfl) _
      · rw [hnone]
        cases hfound : (k.allowing true .getters).accessor? field with
        | none => cases converter <;> exact .refl (fun _ => .inl rfl) _
        | some m =>
            cases converter with
            | some v => exact relates_bare (hgetter m hfound) v
            | none => exact relates_missing (hgetter m hfound) _

/-- What a field comes to when one thing more is allowed. -/
lemma relates_resolve :
    Relates ((k.allowing false c).resolve field) ((k.allowing true c).resolve field)
      fun a b => b = a ∨ k.Gains field c a b := by
  have hinstructions : ∀ allowed,
      (k.allowing allowed c).instructions = k.instructions.allowing allowed c := fun _ => rfl
  rw [resolve, resolve]
  refine .bind (S := fun a b => b = a ∨ k.Gains field c a b) ?_ fun a b hab => ?_
  · rw [decide, decide]
    simp only [hinstructions, Instructions.override?_allowing, Instructions.allowing_literals,
      Instructions.skipped_allowing, Instructions.allowing_methodOverrides,
      Instructions.allowing_caseSensitive]
    split
    · exact .refl (fun _ => .inl rfl) _
    · split
      · exact .refl (fun _ => .inl rfl) _
      · split
        · exact .refl (fun _ => .inl rfl) _
        · exact relates_assignMatched
  · exact .bind (S := fun _ _ => True) (fun _ _ _ _ => trivial) fun _ _ _ => .pure hab

/-- **To allow more is conservative.**  Casts produce only fields that were mismatched; texts only
those, or fields that were cast; getters only fields that nothing matched, or they replace the bare
name in the call of a converter.  Where the source and the type of the field are known, both
matchings give something. -/
theorem allowing_conservative (k : Matching) (field : FieldInfo) (c : Capability) :
    (∀ a b, ((k.allowing false c).resolve field).outcome.value = .ok a →
      ((k.allowing true c).resolve field).outcome.value = .ok b → b = a ∨ k.Gains field c a b)
      ∧ (k.Placed → k.catalog.Knows (.type field.type) → ∀ allowed,
        ∃ a, ((k.allowing allowed c).resolve field).outcome.value = .ok a) := by
  refine ⟨relates_resolve, fun hplaced hfield allowed => ?_⟩
  have hplaced' : (k.allowing allowed c).Placed := ⟨hplaced.closed, hplaced.source⟩
  exact hplaced'.resolve_succeeds hfield

/-- A pet with a getter for its weight, which a converter formats; the card wants it under the same
name. -/
def weighed : Matching where
  catalog := { Catalog.empty with
    types := #[⟨⟨0⟩, "String", .basic⟩, ⟨⟨1⟩, "u8", .basic⟩]
    structs := #[⟨"Pet", "", [], [⟨"weight", 0, some ⟨1⟩, false⟩]⟩] }
  instructions := { Instructions.default with
    converters := Keyed.empty.insert "weight" ⟨"grams", none⟩ }
  source := ⟨"Pet", "", [], [⟨"weight", 0, some ⟨1⟩, false⟩]⟩
  method := "card"
  anchor := ⟨"pets.rs", 4, 5⟩

/-- The converter is given the getter instead of the bare name. -/
theorem weighed_converted :
    let weight : FieldInfo := ⟨"weight", ⟨0⟩, none, false, false⟩
    ∃ a b, ((weighed.allowing false .getters).resolve weight).outcome.value = .ok a
      ∧ ((weighed.allowing true .getters).resolve weight).outcome.value = .ok b
      ∧ a = .converter "weight" "weight" "grams" true false
      ∧ b = .converter "weight" "weight()" "grams" true false
      ∧ (b = a ∨ weighed.Gains weight .getters a b) := by
  intro weight
  obtain ⟨hgains, hsucceeds⟩ := allowing_conservative weighed weight .getters
  have hclosed : weighed.catalog.IsClosed :=
    (Catalog.sound_of_storedNumbers (by decide) (by decide)).closed
  have hplaced : weighed.Placed := ⟨hclosed, ⟨0⟩, rfl⟩
  have hknown : weighed.catalog.Knows (.type weight.type) := Nat.zero_lt_succ _
  obtain ⟨a, ha⟩ := hsucceeds hplaced hknown false
  obtain ⟨b, hb⟩ := hsucceeds hplaced hknown true
  refine ⟨a, b, ha, hb, ?_, ?_, hgains a b ha hb⟩
  · exact Except.ok.inj (ha.symm.trans rfl)
  · exact Except.ok.inj (hb.symm.trans rfl)

end Matching

end FieldCopy
