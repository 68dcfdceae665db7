import Mathlib
import FieldCopy.Proofs.Parsing.Types

/-!
# Words in parsed items

A parsed file declares structures with their fields, enumerations and modules by words of its text
(`Item.Worded`), and the types in it are looked up by words (`Item.All`, `Ty.Heard`).  A parser that
takes worded tokens from the front leaves worded tokens, and nothing else needs to be known of what
stands between the names and types.

**Main statement.**  `spoken_of_parseItems?`.
-/

namespace FieldCopy.Source

/-- An item declares structures with their fields, enumerations and modules by words, itself and
inside it. -/
inductive Item.Worded : Item → Prop where
  | record {n : String} {fields : List Field} (hn : IsWord n)
      (hfields : ∀ f ∈ fields, IsWord f.name) : Item.Worded (.record n fields)
  | enumeration {n : String} (hn : IsWord n) : Item.Worded (.enumeration n)
  | module {n : String} {items : List Item} (hn : IsWord n) (h : ∀ i ∈ items, i.Worded) :
      Item.Worded (.module n items)
  | function (s : Signature) : Item.Worded (.function s)
  | implementation (i : Implementation) : Item.Worded (.implementation i)
  | trait (t : Trait) : Item.Worded (.trait t)
  | use (u : Use) : Item.Worded (.use u)
  | other : Item.Worded .other

/-- The types in the head of a function are as required. -/
structure Signature.All (Q : Ty → Prop) (s : Signature) : Prop where
  parameters : ∀ p ∈ s.parameters, Q p.type
  result : ∀ t ∈ s.result, Q t

/-- The types in an item are as required, in itself and inside it. -/
inductive Item.All (Q : Ty → Prop) : Item → Prop where
  | record (n : String) {fields : List Field} (h : ∀ f ∈ fields, Q f.type) :
      Item.All Q (.record n fields)
  | enumeration (n : String) : Item.All Q (.enumeration n)
  | module (n : String) {items : List Item} (h : ∀ i ∈ items, i.All Q) :
      Item.All Q (.module n items)
  | function {s : Signature} (h : s.All Q) : Item.All Q (.function s)
  | implementation {i : Implementation} (subject : Q i.subject)
      (functions : ∀ s ∈ i.functions, s.All Q) : Item.All Q (.implementation i)
  | trait {t : Trait} (h : ∀ f ∈ t.functions, f.signature.All Q) : Item.All Q (.trait t)
  | use (u : Use) : Item.All Q (.use u)
  | other : Item.All Q .other

/-- The name of a field is a word, and its type is looked up by words. -/
structure Field.Spoken (f : Field) : Prop where
  name : IsWord f.name
  type : f.type.Heard

/-- The names that an item declares are words, and its types are looked up by words. -/
structure Item.Spoken (i : Item) : Prop where
  worded : i.Worded
  types : i.All Ty.Heard

namespace Item.Spoken

lemma other : Item.Spoken .other := ⟨.other, .other⟩

lemma record {n : String} {fields : List Field} (hn : IsWord n)
    (h : ∀ f ∈ fields, f.Spoken) : Item.Spoken (.record n fields) :=
  ⟨.record hn fun f hf => (h f hf).name, .record n fun f hf => (h f hf).type⟩

lemma module {n : String} {items : List Item} (hn : IsWord n) (h : ∀ i ∈ items, i.Spoken) :
    Item.Spoken (.module n items) :=
  ⟨.module hn fun i hi => (h i hi).worded, .module n fun i hi => (h i hi).types⟩

end Item.Spoken

namespace Grammar

open Source.Parser

section

variable {g : Grammar} [g.TakesFront] (hg : ∀ plus, (g.type plus).Gives Ty.Heard)

lemma gives_passOver (p : Parser Unit) [p.TakesFront] : (passOver p).Gives Item.Spoken :=
  .bind fun _ => .pure .other

lemma gives_useItem (attributes : List Attribute) (visibility : Visibility) :
    (useItem g attributes visibility).Gives Item.Spoken :=
  .bind fun _ => .bind fun _ => .bind fun tree => .bind fun _ => by
    cases tree with
    | none => exact .pure .other
    | some t => exact .pure ⟨.use _, .use _⟩

lemma gives_enumerationItem : (enumerationItem g).Gives Item.Spoken :=
  .bind fun _ => .bindWith gives_name fun n hn => .bind fun _ => .bind fun _ => .bind fun _ =>
    .pure ⟨.enumeration hn, .enumeration n⟩

lemma gives_moduleItem (hitem : g.item.Gives Item.Spoken) : (moduleItem g).Gives Item.Spoken := by
  have hbehind : ∀ n, IsWord n → (do
      if ← optionalMark ";" then pure .other
      else
        inside .brace do
          let _ ← innerAttributes g
          pure (.module n (← untilEnd g.item)) : Parser Item).Gives Item.Spoken := fun n hn =>
    .bind fun _ => .ite (.pure .other)
      (.inside (.bind fun _ => .bindWith hitem.untilEnd fun _ hitems => .pure (.module hn hitems)))
  exact .bind fun _ => .bind fun _ =>
    .ahead (.bindWith gives_anyWord hbehind) (.bindWith gives_name hbehind)

/-! ## Fields -/

/-- What is kept of the type of a field without a name. -/
lemma heard_other (ps : Pieces) : (Ty.other ps).Heard := ⟨trivial, fun h => nomatch h⟩

lemma gives_nameOrUnderscore : nameOrUnderscore.Gives IsWord := .ahead gives_anyWord gives_name

include hg

omit [g.TakesFront] in
lemma gives_namedFieldFuel (n : Nat) : (namedFieldFuel g n).Gives Field.Spoken := by
  cases n with
  | zero => exact .failure
  | succ n =>
      refine .bind fun attributes => .bind fun _ =>
        .bindWith gives_nameOrUnderscore fun name hname => .bind fun _ => ?_
      dsimp only
      have hfield : (do pure ⟨attributes, name, ← g.type true⟩ : Parser Field).Gives Field.Spoken :=
        .madeOf (hg true) fun _ ht => ⟨hname, ht⟩
      exact .bind fun _ =>
        .ite (.bind fun _ => .bind fun _ => .pure ⟨hname, heard_other []⟩) hfield

lemma gives_structureFields :
    (structureFields g).Gives fun fields => ∀ f ∈ fields, f.Spoken := by
  have hnamed : (namedFields g).Gives fun fields => ∀ f ∈ fields, f.Spoken := by
    intro ts fields rest hts h
    have hfields := ((gives_namedFieldFuel hg (Token.sizeAll ts)).separated .nothing (mark ",")).map
      (f := (·.1)) (Q := fun fields => ∀ f ∈ fields, f.Spoken) fun _ hx => hx
    exact hfields.inside hts h
  refine .bind fun hasWhere => ?_
  have hrest : (do if ← ahead (.group .brace) then namedFields g else (do
      mark ";"
      pure []) : Parser (List Field)).Gives fun fields => ∀ f ∈ fields, f.Spoken :=
    .ahead hnamed (.bind fun _ => .pure (List.forall_mem_nil _))
  cases hasWhere with
  | true => exact hrest
  | false =>
      exact .ahead (.bind fun _ => .bind fun _ => .bind fun _ => .pure (List.forall_mem_nil _))
        hrest

lemma gives_structureItem : (structureItem g).Gives Item.Spoken :=
  .bind fun _ => .bindWith gives_name fun _ hn => .bind fun _ =>
    .bindWith (gives_structureFields hg) fun _ hfields => .pure (.record hn hfields)

/-! ## Functions -/

omit [g.TakesFront] in
lemma gives_result : (result g).Gives fun r => ∀ t ∈ r, t.Heard := by
  refine .bind fun _ => .ite ((hg true).map fun t ht => ?_) (.pure (by simp))
  simpa using ht

/-- The type of a parameter is heard. -/
def ParameterForm.Heard : ParameterForm → Prop
  | .typed p => p.type.Heard
  | .receiver | .variadic => True

lemma gives_typedParameter : (typedParameter g).Gives ParameterForm.Heard := by
  have htyped : ∀ n, (do pure (.typed ⟨n, ← g.type true⟩) : Parser ParameterForm).Gives
      ParameterForm.Heard := fun _ => .madeOf (hg true) fun _ ht => ht
  exact .ahead (htyped none) (.bind fun _ => .bind fun _ => .bind fun _ =>
    .ite (.pure trivial) (htyped _))

lemma gives_parameterForm : (parameterForm g).Gives ParameterForm.Heard :=
  .bind fun _ => .bind fun _ => .ite (.pure trivial)
    (.orElse (.bind fun _ => .pure trivial) (gives_typedParameter hg))

lemma gives_parametersFuel (n : Nat) : ∀ isFirst,
    (parametersFuel g isFirst n).Gives fun x => ∀ p ∈ x.2, p.type.Heard := by
  induction n with
  | zero => exact fun _ => .failure
  | succ n ih =>
      intro isFirst
      refine .ahead (.pure (List.forall_mem_nil _)) (.bindWith (gives_parameterForm hg) ?_)
      intro form hform
      have hnext : (do
          if ← ahead .nothing then pure (false, [])
          else
            mark ","
            parametersFuel g false n : Parser (Bool × List Parameter)).Gives
              fun x => ∀ p ∈ x.2, p.type.Heard :=
        .ahead (.pure (List.forall_mem_nil _)) (.bind fun _ => ih false)
      cases form with
      | variadic => exact .bind fun _ => .bind fun _ => .pure (List.forall_mem_nil _)
      | receiver => exact .ite (.madeOf hnext fun _ h => h) .failure
      | typed p => exact .bindWith hnext fun x hx => .pure (List.forall_mem_cons.2 ⟨hform, hx⟩)

lemma gives_signature (foreign : Bool) : (signature g foreign).Gives (Signature.All Ty.Heard) := by
  have hparameters : (parameters g).Gives fun x => ∀ p ∈ x.2, p.type.Heard :=
    fun _ _ _ hts h => gives_parametersFuel hg _ true hts h
  exact .bind fun _ => .bind fun _ => .bind fun _ => .bind fun _ =>
    .bindWith (.inside hparameters) fun _ hps => .bindWith (gives_result hg) fun _ hr =>
      .bind fun _ => .pure ⟨hps, hr⟩

lemma gives_functionOrHead (foreign : Bool) :
    (functionOrHead g foreign).Gives fun x => x.1.All Ty.Heard :=
  .bindWith (gives_signature hg foreign) fun _ hs => .bind fun _ =>
    .ite (.pure hs) (.made fun _ => hs)

/-! ## Traits and implementations -/

lemma gives_traitMember :
    (traitMember g).Gives fun x => ∀ f ∈ x, f.signature.All Ty.Heard := by
  have hnone := gives_none fun f : TraitFunction => Signature.All Ty.Heard f.signature
  refine .bind fun attributes => .bind fun visibility => .bind fun hasDefault => .ahead ?_ ?_
  · refine .bindWith (gives_functionOrHead hg false) fun x hx => .pure fun f hf => ?_
    split at hf
    · obtain rfl := Option.some.inj hf
      exact hx
    · exact absurd hf (by simp)
  refine .bind fun _ => .ite (.bind fun _ => hnone) (.ahead (.bind fun _ => hnone) ?_)
  refine .bind fun _ => ?_
  dsimp only
  exact .ite (.bind fun _ => hnone) (.bind fun _ => hnone)

lemma gives_traitRest (attributes : List Attribute) (n : String) (place : Place) :
    (traitRest g attributes n place).Gives Item.Spoken := by
  have hmembers : ∀ inner : List Attribute, (do
      let members ← untilEnd (traitMember g)
      pure (.trait ⟨attributes ++ inner, n, place, members.filterMap id⟩) : Parser Item).Gives
        Item.Spoken := by
    refine fun inner => .bindWith (gives_traitMember hg).untilEnd fun members hmembers => .pure ?_
    refine ⟨.trait _, .trait fun f hf => ?_⟩
    obtain ⟨x, hx, rfl⟩ := List.mem_filterMap.1 hf
    exact hmembers _ hx f rfl
  unfold traitRest
  refine .bind fun isSum => ?_
  dsimp only
  refine .ite (.bind fun _ => ?_) ?_ <;>
    exact .bind fun _ => .inside (.bind fun inner => hmembers inner)

lemma gives_traitItem (attributes : List Attribute) :
    (traitItem g attributes).Gives Item.Spoken :=
  .bind fun _ => .bind fun _ => .bind fun _ => .bind fun _ => .bind fun _ => .bind fun _ =>
    .ite (.bind fun _ => .bind fun _ => .bind fun _ => .bind fun _ => .pure .other)
      (gives_traitRest hg attributes _ _)

lemma gives_implementationMember :
    (implementationMember g).Gives fun x => ∀ s ∈ x, s.All Ty.Heard := by
  have hnone := gives_none fun s : Signature => Signature.All Ty.Heard s
  refine .bind fun _ => .bind fun visibility => .bind fun hasDefault => .ahead ?_ ?_
  · refine .bindWith (gives_functionOrHead hg false) fun x hx => .pure fun s hs => ?_
    obtain ⟨_, -, rfl⟩ := Option.map_eq_some_iff.1 hs
    exact hx
  refine .bind fun _ => .ite (.bind fun _ => hnone) (.ahead (.bind fun _ => hnone) ?_)
  refine .bind fun _ => ?_
  dsimp only
  exact .ite (.bind fun _ => hnone) (.bind fun _ => hnone)

lemma gives_implementationItem (isVisible : Bool) :
    (implementationItem g isVisible).Gives Item.Spoken := by
  have hspoken : ∀ p {subject : Ty} {members : List (Option Signature)}, subject.Heard →
      (∀ x ∈ members, ∀ s ∈ x, s.All Ty.Heard) →
      Item.Spoken (.implementation ⟨p, subject, members.filterMap id⟩) := by
    refine fun p _ _ hsubject hmembers =>
      ⟨.implementation _, .implementation hsubject fun s hs => ?_⟩
    obtain ⟨x, hx, rfl⟩ := List.mem_filterMap.1 hs
    exact hmembers _ hx s rfl
  have hbehind : ∀ {k : List (Option Signature) → Parser Item},
      (∀ members, (∀ x ∈ members, ∀ s ∈ x, s.All Ty.Heard) → (k members).Gives Item.Spoken) →
      (do
        let _ ← whereClause g
        let functions ← inside .brace do
          let _ ← innerAttributes g
          untilEnd (implementationMember g)
        k functions : Parser Item).Gives Item.Spoken := fun hk =>
    .bind fun _ => .bindWith
      (.inside (.bind fun _ => (gives_implementationMember hg).untilEnd)) hk
  have hsubject : ∀ (isNegative : Bool) (t : Ty), t.Heard →
      (pure (if isNegative then .other [] else t) : Parser Ty).Gives Ty.Heard := by
    intro isNegative t ht
    split
    · exact .pure (heard_other [])
    · exact .pure ht
  have hother : (pure .other : Parser Item).Gives Item.Spoken := .pure .other
  unfold implementationItem
  dsimp only
  -- What stands in front of the subject is taken or not, and the subject may be the only type.
  repeat' first
    | with_reducible refine hbehind fun members hmembers => .ite hother (.ite ?_ ?_)
    | with_reducible refine .bindWith (hg true) fun t ht => ?_
    | with_reducible refine .bindWith (hsubject _ _ (by assumption)) fun t ht => ?_
    | with_reducible refine .bind fun _ => ?_
    | with_reducible refine .ite ?_ ?_
    | with_reducible exact hother
    | with_reducible exact .pure (hspoken _ (by assumption) hmembers)
    | split

/-! ## Items -/

lemma gives_itemStep (hitem : g.item.Gives Item.Spoken) : (itemStep g).Gives Item.Spoken := by
  refine .bind fun attributes => .bind fun visibility => .ahead ?_ ?_
  · refine .bindWith (gives_functionOrHead hg false) fun s hs => ?_
    dsimp only
    split
    · exact .pure ⟨.function _, .function hs⟩
    · exact .pure .other
  refine .ahead (gives_passOver _) (.ahead (.ite (gives_passOver _) .failure) ?_)
  refine .ahead (gives_useItem attributes visibility) (.ahead (gives_passOver _) ?_)
  refine .ahead (gives_passOver _) (.ahead (gives_moduleItem hitem) (.ahead (gives_passOver _) ?_))
  refine .ahead (gives_structureItem hg) (.ahead gives_enumerationItem ?_)
  refine .ahead (gives_passOver _) (.ahead (gives_traitItem hg attributes) ?_)
  refine .ahead (gives_implementationItem hg _) (.ahead (gives_passOver _) ?_)
  exact .bind fun _ => .ite (gives_passOver _) .failure

end

lemma gives_atDepth (n : Nat) : (atDepth n).item.Gives Item.Spoken := by
  induction n with
  | zero => exact .failure
  | succ n ih => exact gives_itemStep (heard_atDepth n) ih

end Grammar

/-- **Parsed items declare names that are words, and types that are looked up by words.** -/
theorem spoken_of_parseItems? {text : String} {items : List Item}
    (h : parseItems? text = some items) : ∀ i ∈ items, i.Spoken := by
  obtain ⟨ts, hts, h⟩ := Option.bind_eq_some_iff.1 h
  have hfile : (do
      let _ ← Grammar.innerAttributes (Grammar.forTokens ts)
      Parser.untilEnd (Grammar.forTokens ts).item : Parser (List Item)).Gives
        fun items => ∀ i ∈ items, i.Spoken := .bind fun _ => (Grammar.gives_atDepth _).untilEnd
  unfold Parser.all at h
  dsimp only at h
  split at h
  · rename_i hitems
    obtain rfl := Option.some.inj h
    exact hfile (Token.worded_scan? hts) hitems
  · exact absurd h (by simp)

end FieldCopy.Source
