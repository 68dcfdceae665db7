import Mathlib
import FieldCopy.Proofs.Directives.Overrides

/-!
# No override is lost

Every line of a method that is an override ends up as an entry of a table, or in the place of one
that it replaces, and of the latter a warning is recorded.  So the overrides among the lines are as
many as the entries of the four tables and the warnings about replacements together.

**One directive** adds an entry or replaces one (`Directive.overrideCount_apply`), which carries
over to directives in turn (`Instructions.overrideCount_append`).

**Diagnostics.**  Besides those about replacements, there is one for each line whose directive is
unknown or not taken by methods.

**Main statement.**  `Instructions.overrides_conserved`.
-/

namespace FieldCopy

open Attempt

/-! ## Counting -/

/-- The names of the directives that are overrides. -/
def DirectiveForm.overrideNames : List String :=
  ["map", "match_field", "match_method", "conv", "literal"]

/-- The number of entries in the tables of overrides. -/
def Instructions.overrideCount (i : Instructions) : Nat :=
  i.fieldOverrides.size + i.methodOverrides.size + i.converters.size + i.literals.size

/-- Whether a diagnostic is about an override that is replaced. -/
def Diagnostic.isReplacement (d : Diagnostic) : Bool :=
  "override for \"".toList.isPrefixOf d.message.toList

namespace Annotation

variable (line : Annotation)

/-- The name of the directive in a line. -/
def name? : Option String := (split? line.text.toList).map fun parts => String.ofList parts.1

/-- Whether a line is an override. -/
def isOverride : Bool := line.name?.any DirectiveForm.overrideNames.contains

/-- Whether the directive of a line is unknown, or not taken by methods. -/
def isUntaken : Bool := line.name?.any fun name => !DirectiveForm.methodNames.contains name

end Annotation

/-! ## One directive -/

lemma Directive.isSome_replaced {α : Type} (table : Keyed α) (key : String) (value : α)
    (update : Keyed α → Instructions) :
    (overriding table key value update).replaced.isSome = table.contains key := by
  rw [overriding]
  cases table.contains key <;> rfl

/-- An override that is put into one of the tables adds an entry or replaces one. -/
lemma Directive.overrideCount_overriding {α : Type} {table : Keyed α}
    {update : Keyed α → Instructions} (others : Nat)
    (h : ∀ t, (update t).overrideCount = others + t.size) (key : String) (value : α) :
    (overriding table key value update).instructions.overrideCount
        + (overriding table key value update).replaced.isSome.toNat
      = (update table).overrideCount + 1 := by
  have hsize := table.size_insert key value
  rw [isSome_replaced, overriding, h, h]
  omega

/-- **A directive that is an override adds an entry or replaces one.** -/
lemma Directive.overrideCount_apply (d : Directive) (p : Position) (i : Instructions) :
    (d.apply p i).instructions.overrideCount + (d.apply p i).replaced.isSome.toNat
      = i.overrideCount + d.override?.isSome.toNat := by
  cases d with
  | map source key | field key source =>
      refine overrideCount_overriding (i.methodOverrides.size + i.converters.size + i.literals.size)
        (fun t => ?_) key source
      simp only [Instructions.overrideCount]
      omega
  | method key m =>
      refine overrideCount_overriding (i.fieldOverrides.size + i.converters.size + i.literals.size)
        (fun t => ?_) key m
      simp only [Instructions.overrideCount]
      omega
  | converter key c =>
      refine overrideCount_overriding
        (i.fieldOverrides.size + i.methodOverrides.size + i.literals.size) (fun t => ?_) key c
      simp only [Instructions.overrideCount]
      omega
  | literal key text =>
      exact overrideCount_overriding
        (i.fieldOverrides.size + i.methodOverrides.size + i.converters.size) (fun t => rfl) key text
  | _ => rfl

/-- A directive whose form has the name of an override is one. -/
lemma DirectiveForm.override?_isSome_of_read {form : DirectiveForm} (hform : form ∈ all)
    {a : Arguments} {d : Directive} (h : form.read a = .ok d) :
    d.override?.isSome = overrideNames.contains form.name := by
  simp only [all, List.mem_cons, List.not_mem_nil, or_false] at hform
  rcases hform with rfl | rfl | rfl | rfl | rfl | rfl | rfl | rfl | rfl | rfl | rfl | rfl | rfl
    | rfl | rfl | rfl | rfl | rfl | rfl | rfl | rfl | rfl
  -- a rule, a style and a pattern are read if there is one of that text; all else is read as it is
  all_goals
    first
      | obtain rfl := Except.ok.inj h
        rfl
      | simp only [one, readMatching, readStyle, readSkip] at h
        split at h
        · obtain rfl := Except.ok.inj h
          rfl
        · exact absurd h (by simp)

namespace Instructions

/-! ## Directives in turn -/

/-- A directive is an override. -/
def Saying.overrides (s : Saying) : Bool := s.directive.override?.isSome

lemma ofSaid_concat (earlier : List Saying) (s : Saying) :
    ofSaid (earlier ++ [s]) = add (ofSaid earlier) s := by
  rw [ofSaid, List.foldl_append]
  rfl

/-- A directive replaces an override if one before it wrote the same. -/
lemma isSome_replaced (earlier : List Saying) (s : Saying) :
    (s.directive.apply s.position (ofSaid earlier)).replaced.isSome = replaces earlier s := by
  have hreplaced := congrArg Option.isSome (replaced_add earlier s)
  rw [Option.isSome_map, replacement?_eq] at hreplaced
  rw [hreplaced]
  cases h : replaces earlier s with
  | false => rfl
  | true =>
      obtain ⟨o, ho, -⟩ := (Option.any_eq_true ..).1 h
      rw [if_pos rfl, Saying.replacing?, ho]
      rfl

/-- **Overrides become entries, or replace some.** -/
lemma overrideCount_append (earlier sayings : List Saying) :
    (ofSaid (earlier ++ sayings)).overrideCount + (repeats earlier sayings).length
      = (ofSaid earlier).overrideCount + sayings.countP Saying.overrides := by
  induction sayings generalizing earlier with
  | nil => simp [repeats]
  | cons s rest ih =>
      have hstep := s.directive.overrideCount_apply s.position (ofSaid earlier)
      have hrest := ih (earlier ++ [s])
      have hrepeats : (repeats earlier (s :: rest)).length
          = (repeats (earlier ++ [s]) rest).length + (replaces earlier s).toNat := by
        rw [repeats]
        cases replaces earlier s <;> rfl
      have hcount : (s :: rest).countP Saying.overrides
          = rest.countP Saying.overrides + s.directive.override?.isSome.toNat := by
        rw [List.countP_cons, Saying.overrides]
        cases s.directive.override?.isSome <;> rfl
      rw [isSome_replaced] at hstep
      rw [ofSaid_concat, add] at hrest
      rw [List.append_cons, hrepeats, hcount]
      omega

end Instructions

/-! ## Lines -/

lemma Instructions.isReplacement_replacementWarning (p : Position) (field : String) :
    (replacementWarning p field).isReplacement = true := by
  rw [Diagnostic.isReplacement, replacementWarning, List.isPrefixOf_iff_prefix]
  simp only [String.toList_append, List.append_assoc]
  exact List.prefix_append _ _

namespace Annotation

open DirectiveForm (methodNames)

/-- What an accepted line of a method comes to. -/
inductive ReadsAs (line : Annotation) : Prop where
  /-- It is passed over, and one diagnostic says so. -/
  | untaken {notice : Diagnostic} (untaken : line.isUntaken = true)
      (plain : line.isOverride = false) (silent : Instructions.saying? methodNames line = none)
      (own : (line.directive methodNames).outcome.diagnostics = [notice])
      (other : notice.isReplacement = false) : ReadsAs line
  | taken {d : Directive} (taken : line.isUntaken = false) (gives : line.Gives methodNames d)
      (same : d.override?.isSome = line.isOverride) : ReadsAs line

lemma IsAccepted.readsAs {line : Annotation} (h : line.IsAccepted methodNames) : line.ReadsAs := by
  obtain ⟨d, hd⟩ := h
  cases hsplit : split? line.text.toList with
  | none => exact absurd (hd.symm.trans (directive_of_split?_none hsplit).value) (by simp)
  | some parts =>
      obtain ⟨name, rest⟩ := parts
      have hname : line.name? = some (String.ofList name) := by rw [name?, hsplit]; rfl
      by_cases htaken : ∃ form ∈ DirectiveForm.all, form.name = String.ofList name
          ∧ form.name ∈ methodNames
      · obtain ⟨form, hform, hformName, hvalid⟩ := htaken
        have hanswer := hd.symm.trans (directive_of_taken hsplit hform hformName hvalid).value
        rw [answer] at hanswer
        split at hanswer
        · split at hanswer
          · exact absurd hanswer (by simp)
          · rename_i d' hread
            obtain rfl := Except.ok.inj hanswer
            refine .taken ?_ hd ?_
            · rw [isUntaken, hname, Option.any_some, ← hformName]
              simpa using hvalid
            · rw [isOverride, hname, Option.any_some, ← hformName]
              exact DirectiveForm.override?_isSome_of_read hform hread
        · exact absurd hanswer (by simp)
      · push Not at htaken
        have hread := directive_of_untaken hsplit htaken
        have hmissing : String.ofList name ∉ methodNames := by
          intro hmem
          obtain ⟨form, hform, hformName⟩ := List.mem_map.1 (List.mem_filter.1 hmem).1
          exact htaken form hform hformName (hformName ▸ hmem)
        have hplain : String.ofList name ∉ DirectiveForm.overrideNames := by
          have hsubset : DirectiveForm.overrideNames ⊆ methodNames := by decide
          exact fun hmem => hmissing (hsubset hmem)
        refine .untaken ?_ ?_ ?_ hread.diagnostics ?_
        · rw [isUntaken, hname, Option.any_some]
          simpa using hmissing
        · rw [isOverride, hname, Option.any_some]
          simpa using hplain
        · rw [Instructions.saying?, hread.value]
          rfl
        · rw [Diagnostic.isReplacement]
          simp only [String.toList_append]
          rfl

end Annotation

namespace Instructions

open DirectiveForm (methodNames)

variable {lines : List Annotation}

section

variable (accepted : ∀ line ∈ lines, line.IsAccepted methodNames)

include accepted

lemma countP_isOverride :
    lines.countP Annotation.isOverride = (said methodNames lines).countP Saying.overrides := by
  rw [said, List.countP_filterMap]
  refine List.countP_congr fun line hline => ?_
  cases (accepted line hline).readsAs with
  | untaken _ plain silent _ _ => simp [plain, silent]
  | taken _ gives same => simp [gives_iff.1 gives, Saying.overrides, same]

/-- What lines record by themselves is about those that are not taken. -/
lemma own_of_accepted {own : List Diagnostic}
    (h : own = lines.flatMap fun line => (line.directive methodNames).outcome.diagnostics) :
    own.length = lines.countP Annotation.isUntaken ∧ own.countP Diagnostic.isReplacement = 0 := by
  subst h
  induction lines with
  | nil => exact ⟨rfl, rfl⟩
  | cons line rest ih =>
      obtain ⟨hline, hrest⟩ := List.forall_mem_cons.1 accepted
      obtain ⟨hlength, hcount⟩ := ih hrest
      rw [List.flatMap_cons, List.length_append, List.countP_append, List.countP_cons, hlength,
        hcount]
      cases hline.readsAs with
      | untaken untaken _ _ own other => simp [untaken, own, other, Nat.add_comm]
      | taken taken gives _ => simp [taken, gives.diagnostics]

end

/-- Directives that replace an override warn of that, one by one. -/
lemma replacing_repeats (earlier sayings : List Saying) :
    ((repeats earlier sayings).filterMap Saying.replacing?).length
        = (repeats earlier sayings).length
      ∧ ((repeats earlier sayings).filterMap Saying.replacing?).countP Diagnostic.isReplacement
        = (repeats earlier sayings).length := by
  have hwarns : ∀ s ∈ repeats earlier sayings, ∃ d, s.replacing? = some d
      ∧ d.isReplacement = true := by
    intro s hs
    obtain ⟨o, ho⟩ := Option.ne_none_iff_exists'.1 (override?_of_mem_repeats hs)
    exact ⟨_, by rw [Saying.replacing?, ho]; rfl, isReplacement_replacementWarning _ _⟩
  rw [List.length_filterMap_eq_countP, List.countP_filterMap, List.countP_eq_length,
    List.countP_eq_length]
  constructor
  · intro s hs
    obtain ⟨d, hd, -⟩ := hwarns s hs
    rw [hd]
    rfl
  · intro s hs
    obtain ⟨d, hd, hreplacement⟩ := hwarns s hs
    rw [hd]
    exact hreplacement

/-- **Overrides are conserved.**  The lines with overrides are as many as the entries of the four
tables and the warnings about replacements together; every key has the value of the last line that
enters one; and all other diagnostics are about lines whose directive is unknown or not taken, one
for each of them. -/
theorem overrides_conserved {i : Instructions}
    (reading : (ofLines methodNames lines).outcome.value = .ok i) :
    let recorded := (ofLines methodNames lines).outcome.diagnostics
    lines.countP Annotation.isOverride
        = i.overrideCount + recorded.countP Diagnostic.isReplacement
      ∧ (∀ key value, i.fieldOverrides.find? key = some value
          ↔ LastEnters methodNames Directive.source? lines (· = key) value)
      ∧ (∀ key value, i.methodOverrides.find? key = some value
          ↔ LastEnters methodNames Directive.method? lines (· = key) value)
      ∧ (∀ key value, i.converters.find? key = some value
          ↔ LastEnters methodNames Directive.converter? lines (· = key) value)
      ∧ (∀ key value, i.literals.find? key = some value
          ↔ LastEnters methodNames Directive.literal? lines (· = key) value)
      ∧ recorded.length
        = recorded.countP Diagnostic.isReplacement + lines.countP Annotation.isUntaken := by
  intro recorded
  obtain ⟨hall, hfree⟩ := ofLines_isOk_iff.1 ⟨i, reading⟩
  have hleaves := ofLines_of_accepted hall hfree
  obtain rfl := Except.ok.inj (hleaves.value.symm.trans reading)
  have hperm := warnings_perm methodNames [] lines
  rw [← hleaves.diagnostics] at hperm
  obtain ⟨hown, hplain⟩ := own_of_accepted hall rfl
  obtain ⟨hlength, hcount⟩ := replacing_repeats (said methodNames []) (said methodNames lines)
  have htables := overrideCount_append [] (said methodNames lines)
  have hreplacements : recorded.countP Diagnostic.isReplacement
      = (repeats [] (said methodNames lines)).length := by
    rw [hperm.countP_eq, List.countP_append, hplain, hcount, Nat.zero_add]
    rfl
  refine ⟨?_, fun _ _ => find?_iff_lastEnters (fieldOverrides_ofSaid _),
    fun _ _ => find?_iff_lastEnters (methodOverrides_ofSaid _),
    fun _ _ => find?_iff_lastEnters (converters_ofSaid _),
    fun _ _ => find?_iff_lastEnters (literals_ofSaid _), ?_⟩
  · have hempty : (ofSaid []).overrideCount = 0 := rfl
    rw [countP_isOverride hall, hreplacements]
    rw [List.nil_append, hempty, Nat.zero_add] at htables
    exact htables.symm
  · rw [hreplacements, hperm.length_eq, List.length_append, hown, hlength, Nat.add_comm]
    rfl

/-- Lines with three overrides, two of which are for one field, and one that is unknown. -/
theorem pet_overrides_conserved :
    let line (text : String) : Annotation := ⟨text, ⟨"pets.rs", 1, 1⟩⟩
    let lines := [line ":map id user", line ":conv user f", line ":match_field user name",
      line ":structcopygen"]
    ∃ i, (ofLines methodNames lines).outcome.value = .ok i ∧ i.overrideCount = 2
      ∧ (ofLines methodNames lines).outcome.diagnostics.length = 2 := by
  intro line lines
  have hreading := ofLines_eq_ok methodNames lines (by decide +kernel)
  obtain ⟨hoverrides, -, -, -, -, hdiagnostics⟩ := overrides_conserved hreading
  have hlines : lines.countP Annotation.isOverride = 3 ∧ lines.countP Annotation.isUntaken = 1 := by
    decide +kernel
  have hreplacements : (ofLines methodNames lines).outcome.diagnostics.countP
      Diagnostic.isReplacement = 1 := by decide +kernel
  refine ⟨_, hreading, ?_, ?_⟩
  · omega
  · omega

end Instructions

end FieldCopy
