import Mathlib
import FieldCopy.Proofs.Directives.Reading
import FieldCopy.Proofs.Grounded
import FieldCopy.Proofs.Matching.Outcomes

/-!
# Which directive decides on a field

Several directives may speak of one field.  Literals are stronger than patterns for fields to skip,
those are stronger than methods, methods than converters, converters than source paths, and source
paths than the match rule.  The strongest kind that speaks of the field decides, whatever the order
of the lines is.

**Rulings.**  `CallsFor` says which kinds speak of a field, in terms of the lines; names are
compared under the case rule that is set last.  The *ruling* on a field is the strongest kind that
is called for, and it admits some assignments (`Ruling.Admits`).

**Main statement.**  `Instructions.strongest_decides`, which spells this out for the assignment that
a field gets (`Precedence`).  Lines of a weaker kind than the ruling do not change it when they are
added.
-/

namespace FieldCopy

open Attempt

/-- What decides on a field. -/
inductive Ruling where
  | literal
  | skip
  | method
  | converter
  | source
  | disabled
  | automatic
  deriving DecidableEq

namespace Ruling

/-- The place of a ruling in the order of strength, the strongest first. -/
def rank : Ruling → Nat
  | literal => 0
  | skip => 1
  | method => 2
  | converter => 3
  | source => 4
  | disabled => 5
  | automatic => 6

lemma rank_injective : Function.Injective rank := by
  intro a b h
  cases a <;> cases b <;> first | rfl | exact absurd h (by decide)

/-- A field that is produced from a member of the source without a converter. -/
inductive Taken (name : String) : Assignment → Prop where
  | copy (path : String) : Taken name (.copy name path)
  | getter (method : String) : Taken name (.getter name method)
  | stringer (path : String) : Taken name (.stringer name path)
  | cast (path target : String) : Taken name (.cast name path target)

/-- What a field can get under a ruling. -/
inductive Admits (name : String) : Ruling → Assignment → Prop where
  | literal (text : String) : Admits name literal (.literal name text)
  | skip : Admits name skip (.skip name .directive)
  | method (m : String) (fallible : Bool) : Admits name method (.method name m fallible)
  | converter (path function : String) (byReference fallible : Bool) :
      Admits name converter (.converter name path function byReference fallible)
  | unfit : Admits name converter (.skip name .converterSignature)
  | source {a : Assignment} (taken : Taken name a) : Admits name source a
  | sourceMismatch : Admits name source (.skip name .typeMismatch)
  | disabled : Admits name disabled (.skip name .matchDisabled)
  | automatic {a : Assignment} (taken : Taken name a) : Admits name automatic a
  | mismatch : Admits name automatic (.skip name .typeMismatch)
  | missing : Admits name automatic (.skip name .noMatch)

end Ruling

namespace Directive

/-- The ruling that an override calls for, and the key under which it does. -/
def override? : Directive → Option (Ruling × String)
  | literal key _ => some (.literal, key)
  | method key _ => some (.method, key)
  | converter key _ => some (.converter, key)
  | map _ key | field key _ => some (.source, key)
  | _ => none

/-- The ruling that a directive of this kind calls for where it applies. -/
def kind? : Directive → Option Ruling
  | skip _ => some .skip
  | matching _ => some .disabled
  | d => d.override?.map (·.1)

variable {d : Directive} {r : Ruling} {key : String}

lemma literal?_iff (d : Directive) (key : String) :
    (∃ text, d.literal? = some (key, text)) ↔ d.override? = some (.literal, key) := by
  cases d <;> simp [literal?, override?]

lemma method?_iff (d : Directive) (key : String) :
    (∃ m, d.method? = some (key, m)) ↔ d.override? = some (.method, key) := by
  cases d <;> simp [method?, override?]

lemma converter?_iff (d : Directive) (key : String) :
    (∃ c, d.converter? = some (key, c)) ↔ d.override? = some (.converter, key) := by
  cases d <;> simp [converter?, override?]

lemma source?_iff (d : Directive) (key : String) :
    (∃ path, d.source? = some (key, path)) ↔ d.override? = some (.source, key) := by
  cases d <;> simp [source?, override?]

lemma kind?_of_override? (h : d.override? = some (r, key)) : d.kind? = some r := by
  cases d <;> simp_all [override?, kind?]

lemma override?_plain (h : d.override? = some (r, key)) :
    r ≠ .skip ∧ r ≠ .disabled ∧ r ≠ .automatic := by
  cases d <;> simp only [override?, reduceCtorEq, Option.some.injEq, Prod.mk.injEq] at h
  all_goals
    obtain ⟨rfl, -⟩ := h
    decide

end Directive

namespace Instructions

variable (sayings : List Saying) (name : String)

/-- The case rule that is set last. -/
def caseRule : Bool := (sayings.filterMap fun s => s.directive.case?).getLast?.getD true

/-- The match rule that is set last. -/
def matchRule : MatchRule := (sayings.filterMap fun s => s.directive.rule?).getLast?.getD .name

/-- A key names a field: it is the same name, or differs in case only where case does not count. -/
def Names (key : String) : Prop :=
  key = name ∨ caseRule sayings = false ∧ sameIgnoringCase key name = true

/-- The lines call for a ruling on a field. -/
inductive CallsFor : Ruling → Prop where
  | override {s : Saying} {r : Ruling} {key : String} (mem : s ∈ sayings)
      (writes : s.directive.override? = some (r, key)) (names : Names sayings name key) : CallsFor r
  | skip {s : Saying} {pattern : SkipPattern} (mem : s ∈ sayings)
      (writes : s.directive = .skip pattern)
      (accepts : pattern.accepts name (caseRule sayings) = true) : CallsFor .skip
  | disabled (rule : matchRule sayings = .none) : CallsFor .disabled

/-- The lines call for nothing stronger than a ruling. -/
def Open (r : Ruling) : Prop := ∀ q : Ruling, q.rank < r.rank → ¬ CallsFor sayings name q

/-- The ruling on a field: the strongest that the lines call for. -/
structure Rules (r : Ruling) : Prop where
  called : r = .automatic ∨ CallsFor sayings name r
  strongest : Open sayings name r

/-- The assignment of a field agrees with the order of strength. -/
structure Precedence (a : Assignment) : Prop where
  literal : (∃ text, a = .literal name text) ↔ CallsFor sayings name .literal
  skip : Open sayings name .skip → (a = .skip name .directive ↔ CallsFor sayings name .skip)
  method : Open sayings name .method →
    ((∃ m fallible, a = .method name m fallible) ↔ CallsFor sayings name .method)
  converter : Open sayings name .converter → CallsFor sayings name .converter →
    (∃ path function byReference fallible,
      a = .converter name path function byReference fallible) ∨ a = .skip name .converterSignature
  source : Open sayings name .source → CallsFor sayings name .source →
    a ≠ .skip name .noMatch ∧ a ≠ .skip name .matchDisabled
  disabled : Open sayings name .disabled →
    (a = .skip name .matchDisabled ↔ CallsFor sayings name .disabled)
  automatic : Open sayings name .automatic →
    Ruling.Taken name a ∨ a = .skip name .noMatch ∨ a = .skip name .typeMismatch

variable {sayings name}

/-! ## What the instructions say -/

lemma sameName_iff {key : String} :
    (ofSaid sayings).sameName key name = true ↔ Names sayings name key := by
  rw [sameName, caseSensitive_ofSaid, ← caseRule, Names]
  cases caseRule sayings with
  | true => simp
  | false =>
      have hsame : key = name → sameIgnoringCase key name = true :=
        fun h => h ▸ sameIgnoringCase_refl key
      simpa using hsame

/-- A table of overrides has something for a field if the lines call for the ruling that the
directives for this table call for. -/
lemma override?_ofSaid_iff {α : Type} {table : Keyed α} {item? : Directive → Option (String × α)}
    {r : Ruling} (h : table = .ofList (sayings.filterMap fun s => item? s.directive))
    (hr : ∀ d key, (∃ value, item? d = some (key, value)) ↔ d.override? = some (r, key))
    (hskip : r ≠ .skip) (hdisabled : r ≠ .disabled) :
    ((ofSaid sayings).override? table name).isSome = true ↔ CallsFor sayings name r := by
  rw [h, override?_isSome_iff]
  constructor
  · rintro ⟨⟨key, value⟩, he, hsame⟩
    obtain ⟨s, hs, hitem⟩ := List.mem_filterMap.1 he
    exact .override hs ((hr _ key).1 ⟨value, hitem⟩) (sameName_iff.1 hsame)
  · intro hcalls
    cases hcalls with
    | override mem writes names =>
        obtain ⟨value, hitem⟩ := (hr _ _).2 writes
        exact ⟨_, List.mem_filterMap.2 ⟨_, mem, hitem⟩, sameName_iff.2 names⟩
    | skip => exact absurd rfl hskip
    | disabled => exact absurd rfl hdisabled

lemma literal_iff : ((ofSaid sayings).override? (ofSaid sayings).literals name).isSome = true
    ↔ CallsFor sayings name .literal :=
  override?_ofSaid_iff (literals_ofSaid sayings) Directive.literal?_iff (by decide) (by decide)

lemma method_iff :
    ((ofSaid sayings).override? (ofSaid sayings).methodOverrides name).isSome = true
      ↔ CallsFor sayings name .method :=
  override?_ofSaid_iff (methodOverrides_ofSaid sayings) Directive.method?_iff (by decide)
    (by decide)

lemma converter_iff : ((ofSaid sayings).override? (ofSaid sayings).converters name).isSome = true
    ↔ CallsFor sayings name .converter :=
  override?_ofSaid_iff (converters_ofSaid sayings) Directive.converter?_iff (by decide) (by decide)

lemma source_iff :
    ((ofSaid sayings).override? (ofSaid sayings).fieldOverrides name).isSome = true
      ↔ CallsFor sayings name .source :=
  override?_ofSaid_iff (fieldOverrides_ofSaid sayings) Directive.source?_iff (by decide) (by decide)

lemma skipped_iff :
    (ofSaid sayings).skipped name = true ↔ CallsFor sayings name .skip := by
  rw [skipped, List.any_eq_true, skips_ofSaid, caseSensitive_ofSaid]
  constructor
  · rintro ⟨pattern, hpattern, haccepts⟩
    obtain ⟨s, hs, hitem⟩ := List.mem_filterMap.1 hpattern
    cases hd : s.directive <;> simp only [hd, Directive.skip?, reduceCtorEq] at hitem
    obtain rfl := Option.some.inj hitem
    exact .skip hs hd haccepts
  · intro hcalls
    cases hcalls with
    | override _ writes => exact absurd rfl (Directive.override?_plain writes).1
    | skip mem writes accepts =>
        exact ⟨_, List.mem_filterMap.2 ⟨_, mem, by rw [writes]; rfl⟩, accepts⟩

lemma callsFor_disabled_iff : CallsFor sayings name .disabled ↔ matchRule sayings = .none := by
  refine ⟨fun hcalls => ?_, .disabled⟩
  cases hcalls with
  | override _ writes => exact absurd rfl (Directive.override?_plain writes).2.1
  | disabled rule => exact rule

/-! ## The ruling on a field -/

variable (sayings name) in
lemma open_literal : Open sayings name .literal := fun _ hq => absurd hq (Nat.not_lt_zero _)

/-- If a ruling is not called for, the next one is open. -/
lemma Open.next {r q : Ruling} (h : Open sayings name r) (hr : ¬ CallsFor sayings name r)
    (hq : q.rank = r.rank + 1) : Open sayings name q := by
  intro p hp
  rcases Nat.lt_succ_iff_lt_or_eq.1 (hq ▸ hp) with hlt | heq
  · exact h p hlt
  · exact Ruling.rank_injective heq ▸ hr

namespace Rules

variable {r q : Ruling}

/-- A field has one ruling. -/
lemma unique (h : Rules sayings name r) (hq : Rules sayings name q) : r = q := by
  -- neither of two rulings is stronger, as the weaker one would not be the strongest called for
  have hle : ∀ {a b : Ruling}, Rules sayings name a → Rules sayings name b → b.rank ≤ a.rank := by
    intro a b ha hb
    by_contra hlt
    rcases ha.called with rfl | hcalled
    · exact hlt (by cases b <;> decide)
    · exact hb.strongest a (by omega) hcalled
  exact Ruling.rank_injective (Nat.le_antisymm (hle hq h) (hle h hq))

/-- What is called for with nothing stronger is the ruling. -/
lemma eq_of_callsFor (h : Rules sayings name r) (hopen : Open sayings name q)
    (hq : CallsFor sayings name q) : r = q := h.unique ⟨.inr hq, hopen⟩

/-- The ruling tells which assignment a field gets. -/
lemma precedence {a : Assignment} (h : Rules sayings name r) (ha : r.Admits name a) :
    Precedence sayings name a where
  literal := by
    constructor
    · rintro ⟨text, rfl⟩
      cases ha with
      | literal => exact h.called.resolve_left (by decide)
      | source taken | automatic taken => nomatch taken
    · intro hcalls
      obtain rfl := h.eq_of_callsFor (open_literal _ _) hcalls
      cases ha with
      | literal text => exact ⟨text, rfl⟩
  skip hopen := by
    constructor
    · rintro rfl
      cases ha with
      | skip => exact h.called.resolve_left (by decide)
      | source taken | automatic taken => nomatch taken
    · intro hcalls
      obtain rfl := h.eq_of_callsFor hopen hcalls
      cases ha with
      | skip => rfl
  method hopen := by
    constructor
    · rintro ⟨m, fallible, rfl⟩
      cases ha with
      | method => exact h.called.resolve_left (by decide)
      | source taken | automatic taken => nomatch taken
    · intro hcalls
      obtain rfl := h.eq_of_callsFor hopen hcalls
      cases ha with
      | method m fallible => exact ⟨m, fallible, rfl⟩
  converter hopen hcalls := by
    obtain rfl := h.eq_of_callsFor hopen hcalls
    cases ha with
    | converter path function byReference fallible => exact .inl ⟨_, _, _, _, rfl⟩
    | unfit => exact .inr rfl
  source hopen hcalls := by
    obtain rfl := h.eq_of_callsFor hopen hcalls
    cases ha with
    | source taken => constructor <;> rintro rfl <;> nomatch taken
    | sourceMismatch => simp
  disabled hopen := by
    constructor
    · rintro rfl
      cases ha with
      | disabled => exact h.called.resolve_left (by decide)
      | source taken | automatic taken => nomatch taken
    · intro hcalls
      obtain rfl := h.eq_of_callsFor hopen hcalls
      cases ha with
      | disabled => rfl
  automatic hopen := by
    obtain rfl := h.unique (q := .automatic) ⟨.inl rfl, hopen⟩
    cases ha with
    | automatic taken => exact .inl taken
    | mismatch => exact .inr (.inr rfl)
    | missing => exact .inr (.inl rfl)

end Rules

/-! ## More lines -/

section

variable {more : List Saying} {r q : Ruling}

/-- All lines are of a kind that is weaker than a ruling. -/
def Weaker (r : Ruling) (more : List Saying) : Prop :=
  ∀ s ∈ more, ∃ q, s.directive.kind? = some q ∧ r.rank < q.rank

lemma Weaker.caseRule_append (h : Weaker r more) :
    caseRule (sayings ++ more) = caseRule sayings := by
  have hnone : more.filterMap (fun s => s.directive.case?) = [] := by
    refine List.filterMap_eq_nil_iff.2 fun s hs => ?_
    obtain ⟨q, hq, -⟩ := h s hs
    cases hd : s.directive <;> simp_all [Directive.kind?, Directive.override?, Directive.case?]
  rw [caseRule, caseRule, List.filterMap_append, hnone, List.append_nil]

lemma Weaker.names_append (h : Weaker r more) {key : String} :
    Names (sayings ++ more) name key ↔ Names sayings name key := by
  rw [Names, Names, h.caseRule_append]

/-- No line sets the match rule if that is not weaker. -/
lemma Weaker.matchRule_append (h : Weaker r more) (hr : Ruling.disabled.rank ≤ r.rank) :
    matchRule (sayings ++ more) = matchRule sayings := by
  have hnone : more.filterMap (fun s => s.directive.rule?) = [] := by
    refine List.filterMap_eq_nil_iff.2 fun s hs => ?_
    obtain ⟨q, hq, hlt⟩ := h s hs
    cases hd : s.directive with
    | matching rule =>
        obtain rfl := Option.some.inj ((congrArg Directive.kind? hd).symm.trans hq)
        exact absurd hlt (by omega)
    | _ => rfl
  rw [matchRule, matchRule, List.filterMap_append, hnone, List.append_nil]

/-- What is as strong as a ruling is called for with the weaker lines if it is without them. -/
lemma Weaker.callsFor_append_iff (h : Weaker r more) (hq : q.rank ≤ r.rank) :
    CallsFor (sayings ++ more) name q ↔ CallsFor sayings name q := by
  -- a line that calls for `q` is not among the weaker ones
  have hold : ∀ {s : Saying}, s ∈ sayings ++ more → s.directive.kind? = some q → s ∈ sayings := by
    intro s hs hkind
    refine (List.mem_append.1 hs).resolve_right fun hmore => ?_
    obtain ⟨p, hp, hlt⟩ := h s hmore
    obtain rfl := Option.some.inj (hkind.symm.trans hp)
    omega
  constructor
  · intro hcalls
    cases hcalls with
    | override mem writes names =>
        exact .override (hold mem (Directive.kind?_of_override? writes)) writes
          (h.names_append.1 names)
    | skip mem writes accepts =>
        exact .skip (hold mem (by rw [writes]; rfl)) writes (h.caseRule_append ▸ accepts)
    | disabled rule => exact .disabled (h.matchRule_append hq ▸ rule)
  · intro hcalls
    cases hcalls with
    | override mem writes names =>
        exact .override (List.mem_append_left _ mem) writes (h.names_append.2 names)
    | skip mem writes accepts =>
        exact .skip (List.mem_append_left _ mem) writes (h.caseRule_append.symm ▸ accepts)
    | disabled rule => exact .disabled ((h.matchRule_append hq).symm ▸ rule)

/-- Lines of a weaker kind leave the ruling as it is. -/
lemma Rules.append (h : Rules sayings name r) (weaker : Weaker r more) :
    Rules (sayings ++ more) name r where
  called := h.called.imp_right (weaker.callsFor_append_iff le_rfl).2
  strongest q hq := mt (weaker.callsFor_append_iff hq.le).1 (h.strongest q hq)

end

end Instructions

namespace Matching

open Instructions

variable {k : Matching} {field : FieldInfo} {a : Assignment} {sayings : List Saying}

lemma Called.admits {path function : String} (h : k.Called field.name path function a) :
    Ruling.converter.Admits field.name a := by
  cases h with
  | unknown => exact .converter ..
  | known => exact .converter ..
  | unusable => exact .unfit

lemma Assigned.taken {m : Accessor} (h : k.Assigned field m a) :
    Ruling.Taken field.name a ∨ a = .skip field.name .typeMismatch := by
  cases h with
  | getter => exact .inl (.getter _)
  | copy => exact .inl (.copy _)
  | stringer => exact .inl (.stringer _)
  | cast => exact .inl (.cast ..)
  | mismatch => exact .inr rfl

/-- A field that comes to matching gets what its ruling admits. -/
lemma Matched.exists_rules (hk : k.instructions = ofSaid sayings)
    (hopen : Open sayings field.name .converter) (h : k.Matched field a) :
    ∃ r, Rules sayings field.name r ∧ r.Admits field.name a := by
  have hconverter : (k.converter? field).isSome = true
      ↔ CallsFor sayings field.name .converter := by
    rw [converter?, hk, converter_iff]
  have hsource : (k.sourceOverride? field).isSome = true ↔ CallsFor sayings field.name .source := by
    rw [sourceOverride?, hk, source_iff]
  have hdisabled : k.instructions.matching = .none ↔ CallsFor sayings field.name .disabled := by
    rw [hk, matching_ofSaid, callsFor_disabled_iff, matchRule]
  have hnext : k.converter? field = none → Open sayings field.name .source := fun plain =>
    hopen.next (by simp [← hconverter, plain]) rfl
  have hlast : k.converter? field = none → k.sourceOverride? field = none →
      Open sayings field.name .disabled := fun plain free =>
    (hnext plain).next (by simp [← hsource, free]) rfl
  cases h with
  | converter given call =>
      exact ⟨.converter, ⟨.inr (hconverter.1 (by rw [given]; rfl)), hopen⟩, call.admits⟩
  | trusted plain given =>
      exact ⟨.source, ⟨.inr (hsource.1 (by rw [given]; rfl)), hnext plain⟩, .source (.copy _)⟩
  | followed plain given _ assigned =>
      refine ⟨.source, ⟨.inr (hsource.1 (by rw [given]; rfl)), hnext plain⟩, ?_⟩
      rcases assigned.taken with htaken | rfl
      · exact .source htaken
      · exact .sourceMismatch
  | disabled plain free rule =>
      exact ⟨.disabled, ⟨.inr (hdisabled.1 rule), hlast plain free⟩, .disabled⟩
  | member plain free rule _ assigned =>
      refine ⟨.automatic, ⟨.inl rfl, (hlast plain free).next (mt hdisabled.2 rule) rfl⟩, ?_⟩
      rcases assigned.taken with htaken | rfl
      · exact .automatic htaken
      · exact .mismatch
  | missing plain free rule =>
      exact ⟨.automatic, ⟨.inl rfl, (hlast plain free).next (mt hdisabled.2 rule) rfl⟩, .missing⟩

/-- A field gets what its ruling admits. -/
lemma Outcome.exists_rules (hk : k.instructions = ofSaid sayings) (h : k.Outcome field a) :
    ∃ r, Rules sayings field.name r ∧ r.Admits field.name a := by
  have hliteral : (k.literal? field).isSome = true ↔ CallsFor sayings field.name .literal := by
    rw [literal?, hk, literal_iff]
  have hskip : k.instructions.skipped field.name = true ↔ CallsFor sayings field.name .skip := by
    rw [hk, skipped_iff]
  have hmethod : (k.methodOverride? field).isSome = true ↔ CallsFor sayings field.name .method := by
    rw [methodOverride?, hk, method_iff]
  have hnext : k.literal? field = none → Open sayings field.name .skip := fun unset =>
    (open_literal _ _).next (by simp [← hliteral, unset]) rfl
  have hthen : k.literal? field = none → k.instructions.skipped field.name = false →
      Open sayings field.name .method := fun unset kept =>
    (hnext unset).next (by simp [← hskip, kept]) rfl
  cases h with
  | literal given =>
      exact ⟨.literal, ⟨.inr (hliteral.1 (by rw [given]; rfl)), open_literal _ _⟩, .literal _⟩
  | skipped unset skips => exact ⟨.skip, ⟨.inr (hskip.1 skips), hnext unset⟩, .skip⟩
  | method unset kept given =>
      exact ⟨.method, ⟨.inr (hmethod.1 (by rw [given]; rfl)), hthen unset kept⟩, .method ..⟩
  | matched unset kept free matched =>
      exact matched.exists_rules hk ((hthen unset kept).next (by simp [← hmethod, free]) rfl)

end Matching

open Instructions in
/-- **The strongest kind of directive that speaks of a field decides on it.**  Where the numbers of
the catalog stand for something the field gets an assignment, and lines of a weaker kind do not
change what it may be. -/
theorem Instructions.strongest_decides (valid : List String) (lines : List Annotation)
    (k : Matching) (accepted : (ofLines valid lines).outcome.value = .ok k.instructions)
    (field : FieldInfo) :
    (∀ a, (k.resolve field).outcome.value = .ok a →
        Precedence (said valid lines) field.name a
          ∧ ∃ r, Rules (said valid lines) field.name r ∧ r.Admits field.name a)
      ∧ (k.Grounded → k.catalog.Knows (.type field.type) →
          ∃ a, (k.resolve field).outcome.value = .ok a)
      ∧ ∀ (r : Ruling), Rules (said valid lines) field.name r →
        ∀ (more : List Annotation) (i : Instructions), Weaker r (said valid more) →
          (ofLines valid (lines ++ more)).outcome.value = .ok i →
            Rules (said valid (lines ++ more)) field.name r
              ∧ ∀ a, (Matching.resolve { k with instructions := i } field).outcome.value = .ok a →
                  r.Admits field.name a := by
  have hk := ensures_ofLines valid lines _ accepted
  refine ⟨fun a ha => ?_, fun hgrounded hfield => ?_, fun r hr more i hweaker hi => ?_⟩
  · obtain ⟨r, hr, hadmits⟩ := (Matching.ensures_resolve_outcome a ha).exists_rules hk
    exact ⟨hr.precedence hadmits, r, hr, hadmits⟩
  · cases hvalue : (k.resolve field).outcome.value with
    | ok a => exact ⟨a, rfl⟩
    | error e =>
        have hnever : FailsOnly (k.resolve field) fun _ => False :=
          Matching.resolve_failsOnly hgrounded hfield
        exact (hnever e hvalue).elim
  · have hrules : Rules (said valid (lines ++ more)) field.name r := by
      rw [said_append]
      exact hr.append hweaker
    refine ⟨hrules, fun a ha => ?_⟩
    have hi := ensures_ofLines valid (lines ++ more) _ hi
    obtain ⟨q, hq, hadmits⟩ := (Matching.ensures_resolve_outcome a ha).exists_rules hi
    exact hrules.unique hq ▸ hadmits

/-- A pet whose address is matched as the lines say. -/
def petMatching (lines : List Annotation) : Matching where
  catalog := { Catalog.empty with
    types := #[⟨⟨0⟩, "String", .basic⟩]
    structs := #[⟨"Pet", "", [⟨"email", ⟨0⟩, none, false, false⟩], []⟩] }
  instructions := .ofSaid (Instructions.said DirectiveForm.methodNames lines)
  source := ⟨"Pet", "", [⟨"email", ⟨0⟩, none, false, false⟩], []⟩
  method := "convert"
  anchor := ⟨"pets.rs", 1, 1⟩

open Instructions in
/-- The converter of the address decides on it, and a path and a match rule that are added do not
change that. -/
theorem pet_converter_decides :
    let valid := DirectiveForm.methodNames
    let line (text : String) : Annotation := ⟨text, ⟨"pets.rs", 1, 1⟩⟩
    let lines := [line ":conv MAIL spell", line ":case:off"]
    let more := [line ":map email mail", line ":match none"]
    let field : FieldInfo := ⟨"mail", ⟨0⟩, none, false, false⟩
    ((petMatching lines).resolve field).outcome.value
        = .ok (.converter "mail" "mail" "spell" true false)
      ∧ ((petMatching (lines ++ more)).resolve field).outcome.value
        = .ok (.converter "mail" "email" "spell" true false)
      ∧ Rules (said valid lines) "mail" .converter
      ∧ Rules (said valid (lines ++ more)) "mail" .converter := by
  intro valid line lines more field
  have haccepted := ofLines_eq_ok valid lines (by decide +kernel)
  have haccepted' := ofLines_eq_ok valid (lines ++ more) (by decide +kernel)
  obtain ⟨hprecedence, -, happend⟩ :=
    strongest_decides valid lines (petMatching lines) haccepted field
  have hvalue : ((petMatching lines).resolve field).outcome.value
      = .ok (.converter "mail" "mail" "spell" true false) := by decide +kernel
  have hrules : Rules (said valid lines) "mail" .converter := by
    obtain ⟨-, r, hr, hadmits⟩ := hprecedence _ hvalue
    cases hadmits with
    | converter => exact hr
    | source taken | automatic taken => nomatch taken
  have hkinds : (said valid more).map (fun s => s.directive.kind?)
      = [some .source, some .disabled] := by decide +kernel
  have hweaker : Weaker .converter (said valid more) := by
    intro s hs
    have hkind : s.directive.kind? ∈ [some Ruling.source, some Ruling.disabled] :=
      hkinds ▸ List.mem_map_of_mem hs
    simp only [List.mem_cons, List.not_mem_nil, or_false] at hkind
    rcases hkind with hkind | hkind <;> exact ⟨_, hkind, by decide⟩
  exact ⟨hvalue, by decide +kernel, hrules, (happend _ hrules more _ hweaker haccepted').1⟩

end FieldCopy
