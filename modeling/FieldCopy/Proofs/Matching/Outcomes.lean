import Mathlib
import FieldCopy.Proofs.Loops

/-!
# What matching a field can come to

`Matching.resolve` goes through directives and members of the source until one of them produces the
field.  Here each way through it is one constructor of a predicate, which says what was found on the
way and what was not.

**Main statement.**  `Matching.ensures_resolve_outcome`: what matching gives is an `Outcome`.  As
the constructors exclude each other, the directives for a field tell which of them it is.
-/

namespace FieldCopy.Matching

open Attempt

variable (k : Matching) (field : FieldInfo)

/-- What a call of a converter comes to. -/
inductive Called (field source function : String) : Assignment → Prop where
  | unknown (absent : k.catalog.function? function = none) :
      Called field source function (.converter field source function true false)
  | known {f : FunctionInfo} {input : TypeId} {t : TypeInfo}
      (present : k.catalog.function? function = some f) (parameters : f.parameters = [input])
      (result : f.result.isSome) (type : k.catalog.typeAt input = .ok t) :
      Called field source function
        (.converter field source function (t.name.startsWith "&") f.fallible)
  | unusable {f : FunctionInfo} (present : k.catalog.function? function = some f)
      (unfit : ¬ ((∃ input, f.parameters = [input]) ∧ f.result.isSome)) :
      Called field source function (.skip field .converterSignature)

/-- A member can be turned into text for the field. -/
def TurnsIntoText (m : Accessor) (target : TypeInfo) : Prop :=
  k.instructions.stringers = true ∧ target.isText = true ∧ k.catalog.isStringer m.type = .ok true

/-- A member can be cast for the field. -/
def Casts (source target : TypeInfo) : Prop :=
  k.instructions.casts = true ∧ source.isBasic = true ∧ target.isBasic = true

/-- What assigning a member of the source without a converter comes to. -/
inductive Assigned (m : Accessor) : Assignment → Prop where
  | getter (same : m.type = field.type) (called : m.isGetter = true) :
      Assigned m (.getter field.name
        (String.ofList (Text.dropRepeatedEnd ['(', ')'] m.path.toList)))
  | copy (same : m.type = field.type) (plain : m.isGetter = false) :
      Assigned m (.copy field.name m.path)
  | stringer {target : TypeInfo} (differs : m.type ≠ field.type)
      (type : k.catalog.typeAt field.type = .ok target) (turns : k.TurnsIntoText m target) :
      Assigned m (.stringer field.name m.path)
  | cast {source target : TypeInfo} (differs : m.type ≠ field.type)
      (memberType : k.catalog.typeAt m.type = .ok source)
      (type : k.catalog.typeAt field.type = .ok target) (stays : ¬ k.TurnsIntoText m target)
      (casts : k.Casts source target) : Assigned m (.cast field.name m.path target.name)
  | mismatch {source target : TypeInfo} (differs : m.type ≠ field.type)
      (memberType : k.catalog.typeAt m.type = .ok source)
      (type : k.catalog.typeAt field.type = .ok target) (stays : ¬ k.TurnsIntoText m target)
      (unfit : ¬ k.Casts source target) : Assigned m (.skip field.name .typeMismatch)

/-- The converter for a field. -/
def converter? : Option Converter := k.instructions.override? k.instructions.converters field.name

/-- The source path that directives name for a field. -/
def sourceOverride? : Option String :=
  k.instructions.override? k.instructions.fieldOverrides field.name

/-- What a field comes to for which no literal, no pattern and no method is given. -/
inductive Matched : Assignment → Prop where
  | converter {c : Converter} {path : String} {a : Assignment}
      (given : k.converter? field = some c) (call : k.Called field.name path c.function a) :
      Matched a
  | trusted {path : String} (plain : k.converter? field = none)
      (given : k.sourceOverride? field = some path) (lost : k.resolvePath path = .ok none) :
      Matched (.copy field.name path)
  | followed {path : String} {m : Accessor} {a : Assignment} (plain : k.converter? field = none)
      (given : k.sourceOverride? field = some path) (found : k.resolvePath path = .ok (some m))
      (assigned : k.Assigned field m a) : Matched a
  | disabled (plain : k.converter? field = none) (free : k.sourceOverride? field = none)
      (rule : k.instructions.matching = .none) : Matched (.skip field.name .matchDisabled)
  | member {m : Accessor} {a : Assignment} (plain : k.converter? field = none)
      (free : k.sourceOverride? field = none) (rule : k.instructions.matching ≠ .none)
      (found : k.accessor? field = some m) (assigned : k.Assigned field m a) : Matched a
  | missing (plain : k.converter? field = none) (free : k.sourceOverride? field = none)
      (rule : k.instructions.matching ≠ .none) (absent : k.accessor? field = none) :
      Matched (.skip field.name .noMatch)

/-- The text that is given for a field. -/
def literal? : Option String := k.instructions.override? k.instructions.literals field.name

/-- The method of the source that is given for a field. -/
def methodOverride? : Option String :=
  k.instructions.override? k.instructions.methodOverrides field.name

/-- What a field comes to. -/
inductive Outcome : Assignment → Prop where
  | literal {text : String} (given : k.literal? field = some text) :
      Outcome (.literal field.name text)
  | skipped (unset : k.literal? field = none) (skips : k.instructions.skipped field.name = true) :
      Outcome (.skip field.name .directive)
  | method {m : String} (unset : k.literal? field = none)
      (kept : k.instructions.skipped field.name = false)
      (given : k.methodOverride? field = some m) :
      Outcome (.method field.name m
        ((k.source.method? m k.instructions.caseSensitive).any MethodInfo.fallible))
  | matched {a : Assignment} (unset : k.literal? field = none)
      (kept : k.instructions.skipped field.name = false) (free : k.methodOverride? field = none)
      (matched : k.Matched field a) : Outcome a

/-! ## Every result is an outcome -/

variable {k field}

lemma ensures_called (field source function : String) :
    Ensures (k.converterCall field source function) (k.Called field source function) := by
  rw [converterCall]
  split
  · rename_i habsent
    exact .pure (.unknown habsent)
  · rename_i f hf
    split
    · rename_i input result hparameters hresult
      exact .bind (.known fun t ht => ht) fun t ht =>
        .pure (.known hf hparameters (by rw [hresult]; rfl) ht)
    · rename_i hunfit
      have hnone : ¬ ((∃ input, f.parameters = [input]) ∧ f.result.isSome) := by
        rintro ⟨⟨input, hinput⟩, hsome⟩
        obtain ⟨result, hresult⟩ := Option.isSome_iff_exists.1 hsome
        exact hunfit input result hinput hresult
      exact .after fun _ => .pure (.unusable hf hnone)

lemma ensures_assigned (m : Accessor) :
    Ensures (k.assignMember field m) (k.Assigned field m) := by
  rw [assignMember]
  refine .bind (.known fun s hs => hs) fun source hsource =>
    .bind (.known fun t ht => ht) fun target htarget => ?_
  split
  · rename_i hsame
    split
    · rename_i hgetter
      exact .pure (.getter hsame hgetter)
    · rename_i hplain
      exact .pure (.copy hsame (Bool.eq_false_iff.2 hplain))
  · rename_i hdiffers
    simp only
    -- whether the member is turned into text, in the words of the predicate
    have hrest : ∀ stringer, (stringer = true ↔ k.TurnsIntoText m target) →
        Ensures (if stringer = true then pure (.stringer field.name m.path)
          else if (k.instructions.casts && source.isBasic && target.isBasic) = true then
            pure (.cast field.name m.path target.name)
          else do
            k.warn (k.method ++ ": field \"" ++ field.name ++ "\": type mismatch, " ++ source.name
              ++ " cannot be assigned to " ++ target.name)
            pure (.skip field.name .typeMismatch)) (k.Assigned field m) := by
      intro stringer hstringer
      split
      · rename_i hturns
        exact .pure (.stringer hdiffers htarget (hstringer.1 hturns))
      · rename_i hstays
        have hstays := fun h => hstays (hstringer.2 h)
        split
        · rename_i hcasts
          simp only [Bool.and_eq_true, and_assoc] at hcasts
          exact .pure (.cast hdiffers hsource htarget hstays hcasts)
        · rename_i hunfit
          simp only [Bool.and_eq_true, and_assoc] at hunfit
          exact .after fun _ => .pure (.mismatch hdiffers hsource htarget hstays hunfit)
    split
    · rename_i hallowed
      rw [Bool.and_eq_true] at hallowed
      refine .bind (.known fun b hb => hb) fun stringer hb =>
        hrest stringer ⟨fun h => ?_, fun h => ?_⟩
      · exact ⟨hallowed.1, hallowed.2, h ▸ hb⟩
      · exact Except.ok.inj (hb.symm.trans h.2.2)
    · rename_i hforbidden
      refine .bind (.pure (Q := (· = false)) rfl) fun stringer hb =>
        hrest stringer ⟨fun h => ?_, fun h => ?_⟩
      · exact absurd (h.symm.trans hb) (by simp)
      · exact absurd (by rw [h.1, h.2.1]; rfl) hforbidden

lemma ensures_assignTrusted_converter {c : Converter} (given : k.converter? field = some c)
    (path : String) : Ensures (k.assignTrusted field.name path (some c)) (k.Matched field) :=
  .after fun _ a ha => .converter given (ensures_called _ _ _ a ha)

lemma ensures_assignFound_converter {c : Converter} (given : k.converter? field = some c)
    (m : Accessor) : Ensures (k.assignFound field m (some c)) (k.Matched field) :=
  fun a ha => .converter given (ensures_called _ _ _ a ha)

lemma ensures_matched : Ensures (k.assignMatched field) (k.Matched field) := by
  have hconverter : k.instructions.override? k.instructions.converters field.name
      = k.converter? field := rfl
  have hsource : k.instructions.override? k.instructions.fieldOverrides field.name
      = k.sourceOverride? field := rfl
  unfold assignMatched
  simp only [hconverter, hsource]
  cases hc : k.converter? field with
  | some c =>
      split
      · refine .after fun found => ?_
        cases found with
        | some m => exact ensures_assignFound_converter hc m
        | none => exact ensures_assignTrusted_converter hc _
      · rw [if_neg (by simp)]
        split
        · exact ensures_assignFound_converter hc _
        · exact ensures_assignTrusted_converter hc _
        · rename_i hnone
          exact absurd hnone (by simp)
  | none =>
      cases ho : k.sourceOverride? field with
      | some path =>
          refine .bind (.known fun found hfound => hfound) fun found hfound => ?_
          cases found with
          | some m => exact fun a ha => .followed hc ho hfound (ensures_assigned m a ha)
          | none => exact .after fun _ => .pure (.trusted hc ho hfound)
      | none =>
          simp only [Option.bind_none, Option.orElse_eq_orElse, Option.orElse_none,
            Option.isNone_none, Bool.and_true]
          split
          · rename_i hrule
            exact .pure (.disabled hc ho (by simpa using hrule))
          · rename_i hrule
            have hrule : k.instructions.matching ≠ .none := by simpa using hrule
            split
            · rename_i m hm
              exact fun a ha => .member hc ho hrule hm (ensures_assigned m a ha)
            · rename_i habsurd
              exact absurd habsurd (by simp)
            · rename_i hm _
              exact .after fun _ => .pure (.missing hc ho hrule hm)

/-- **What matching gives is an outcome.** -/
theorem ensures_resolve_outcome : Ensures (k.resolve field) (k.Outcome field) := by
  rw [resolve, decide]
  refine .bind (P := k.Outcome field) ?_ fun a ha => .after fun _ => .pure ha
  simp only
  split
  · rename_i text htext
    exact .pure (.literal htext)
  · rename_i hopen
    split
    · rename_i hskips
      exact .pure (.skipped hopen hskips)
    · rename_i hkept
      rw [Bool.not_eq_true] at hkept
      split
      · rename_i m hm
        exact .pure (.method hopen hkept hm)
      · rename_i hfree
        exact fun a ha => .matched hopen hkept hfree (ensures_matched a ha)

end FieldCopy.Matching
