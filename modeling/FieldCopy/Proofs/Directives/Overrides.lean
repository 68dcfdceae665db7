import Mathlib
import FieldCopy.Proofs.Directives.LineForms
import FieldCopy.Proofs.Directives.Reordering
import FieldCopy.Proofs.Matching.Unmatched

/-!
# Which line overrides a field

Several lines may enter an override of one kind for one field.  A table has one value for a key, and
it is that of the last line with this very key (`find?_iff_lastEnters`).  Keys that differ in case
only are different keys of the table, even where the lines say that case does not count.

**Fields.**  A field has the override under its own name.  Ignoring case, it otherwise has that of
the least key, as texts are ordered, which differs in case only; the order of the lines decides
between lines with this very key only.

**Warnings.**  A line warns that it replaces an override if a line before it has the same key.

**Main statement.**  `Instructions.last_override_wins`.  The last line under the case rule wins, and
a line warns of every earlier one that it outdoes, unless keys of one kind differ in case only
although case does not count (`SpelledAlike`).
-/

namespace FieldCopy

open Attempt

variable {α : Type} {valid : List String} {item? : Directive → Option (String × α)}
  {lines : List Annotation} {key name : String} {value : α}

/-! ## Lines that enter overrides -/

variable (valid item?) in
/-- A line enters a value under a key into the table that `item?` reads. -/
def Annotation.Enters (line : Annotation) (key : String) (value : α) : Prop :=
  ∃ d, line.Gives valid d ∧ item? d = some (key, value)

/-- A line that holds a directive which is taken records nothing by itself. -/
lemma Annotation.Gives.diagnostics {line : Annotation} {d : Directive} (h : line.Gives valid d) :
    (line.directive valid).outcome.diagnostics = [] := by
  cases hsplit : split? line.text.toList with
  | none => exact (directive_of_split?_none hsplit).diagnostics
  | some parts =>
      obtain ⟨name, rest⟩ := parts
      by_cases htaken : ∃ form ∈ DirectiveForm.all, form.name = String.ofList name
          ∧ form.name ∈ valid
      · obtain ⟨form, hform, hname, hvalid⟩ := htaken
        exact (directive_of_taken hsplit hform hname hvalid).diagnostics
      · push Not at htaken
        have hnone := (directive_of_untaken hsplit htaken).value
        exact absurd (hnone.symm.trans h) (by simp)

namespace Instructions

variable (valid item?) in
/-- The entry of a line in the table that `item?` reads. -/
def entered? (line : Annotation) : Option (String × α) :=
  (saying? valid line).bind fun s => item? s.directive

lemma enters_iff {line : Annotation} :
    line.Enters valid item? key value ↔ entered? valid item? line = some (key, value) := by
  simp only [gives_iff, Annotation.Enters, entered?, saying?, Option.bind_eq_some_iff,
    Option.map_eq_some_iff]
  constructor
  · rintro ⟨d, hd, hitem⟩
    exact ⟨_, hd, hitem⟩
  · rintro ⟨_, ⟨d, hd, rfl⟩, hitem⟩
    exact ⟨d, ⟨d, hd, rfl⟩, hitem⟩

variable (valid item? lines) in
/-- Some line enters a value under a key. -/
def Entered (key : String) : Prop := ∃ line ∈ lines, ∃ value, line.Enters valid item? key value

variable (valid item? lines) in
/-- The last line with one of some keys enters this value. -/
def LastEnters (keys : String → Prop) (value : α) : Prop :=
  ∃ front line back key, lines = front ++ line :: back ∧ keys key
    ∧ line.Enters valid item? key value
    ∧ ∀ l ∈ back, ∀ other v, l.Enters valid item? other v → ¬ keys other

lemma LastEnters.entered {keys : String → Prop} (h : LastEnters valid item? lines keys value) :
    ∃ key, keys key ∧ Entered valid item? lines key := by
  obtain ⟨front, line, back, key, rfl, hkey, henters, -⟩ := h
  exact ⟨key, hkey, line, by simp, value, henters⟩

variable (valid item? lines) in
/-- A table holds what the lines enter. -/
def Holds (table : Keyed α) : Prop :=
  table = .ofList ((said valid lines).filterMap fun s => item? s.directive)

variable {table : Keyed α}

lemma entries_said : ((said valid lines).filterMap fun s => item? s.directive)
    = lines.filterMap (entered? valid item?) := by
  rw [said, List.filterMap_filterMap]
  rfl

lemma contains_iff_entered (holds : Holds valid item? lines table) :
    table.contains key = true ↔ Entered valid item? lines key := by
  rw [holds, Keyed.contains_ofList_iff, entries_said]
  simp only [List.mem_filterMap, Entered, enters_iff]
  constructor
  · rintro ⟨v, line, hline, h⟩
    exact ⟨line, hline, v, h⟩
  · rintro ⟨line, hline, v, h⟩
    exact ⟨v, line, hline, h⟩

/-- **A key has the value that the last line with this key enters.** -/
lemma find?_iff_lastEnters (holds : Holds valid item? lines table) :
    table.find? key = some value ↔ LastEnters valid item? lines (· = key) value := by
  rw [holds, Keyed.find?_ofList, entries_said, List.filter_filterMap, List.getLast?_filterMap,
    Option.map_eq_some_iff]
  constructor
  · rintro ⟨e, he, rfl⟩
    obtain ⟨back, line, front, hlines, hline, hback⟩ := List.findSome?_eq_some_iff.1 he
    obtain ⟨hentry, hkey⟩ := Option.filter_eq_some_iff.1 hline
    obtain rfl : e.1 = key := by simpa using hkey
    refine ⟨front.reverse, line, back.reverse, e.1, ?_, rfl, enters_iff.2 hentry, ?_⟩
    · rw [← List.reverse_reverse lines, hlines]
      simp
    · rintro l hl other v henters rfl
      have hnone := hback l (List.mem_reverse.1 hl)
      rw [enters_iff.1 henters] at hnone
      simp at hnone
  · rintro ⟨front, line, back, key, rfl, rfl, henters, hback⟩
    refine ⟨(key, value), List.findSome?_eq_some_iff.2
      ⟨back.reverse, line, front.reverse, by simp, ?_, fun l hl => ?_⟩, rfl⟩
    · rw [enters_iff.1 henters]
      simp
    · rw [Option.filter_eq_none_iff]
      intro e he
      simpa using hback l (List.mem_reverse.1 hl) e.1 e.2 (enters_iff.2 he)

/-! ## The override of a field -/

variable (i : Instructions)

variable (valid item? lines) in
/-- The override that the last lines under the case rule enter for a field: the last with the name
of the field itself, or else, ignoring case, the last whose key differs in case only. -/
def LastForField (name : String) (value : α) : Prop :=
  LastEnters valid item? lines (· = name) value
    ∨ ¬ Entered valid item? lines name ∧ i.caseSensitive = false
      ∧ LastEnters valid item? lines (fun key => sameIgnoringCase key name = true) value

variable (valid item? lines) in
/-- Keys that are the same under the case rule are the same. -/
def SpelledAlike : Prop :=
  ∀ key other, Entered valid item? lines key → Entered valid item? lines other →
    i.sameName key other = true → key = other

variable (valid item? lines) in
/-- Among the keys that differ from a name in case only, this is the least. -/
def IsLeastKey (name key : String) : Prop :=
  sameIgnoringCase key name = true
    ∧ ∀ other, Entered valid item? lines other → sameIgnoringCase other name = true → key ≤ other

variable {i}

/-- Where case is distinguished, keys are spelled alike. -/
lemma spelledAlike_of_caseSensitive (h : i.caseSensitive = true) :
    SpelledAlike valid item? lines i := by
  intro key other _ _ hsame
  simpa [sameName, h] using hsame

lemma override?_of_entered (holds : Holds valid item? lines table)
    (h : Entered valid item? lines name) :
    i.override? table name = some value ↔ LastEnters valid item? lines (· = name) value := by
  rw [← find?_iff_lastEnters holds, override?]
  cases hfind : table.find? name with
  | some v => rfl
  | none =>
      have hcontains := (contains_iff_entered holds).2 h
      rw [Keyed.contains, hfind] at hcontains
      exact absurd hcontains (by simp)

/-- **Ignoring case, the least key decides** on a field whose own name is no key. -/
lemma override?_of_not_entered (holds : Holds valid item? lines table)
    (h : ¬ Entered valid item? lines name) :
    i.override? table name = some value
      ↔ i.caseSensitive = false ∧ ∃ key, IsLeastKey valid item? lines name key
        ∧ LastEnters valid item? lines (· = key) value := by
  have hfind : table.find? name = none := by
    rw [← contains_iff_entered holds, Keyed.contains] at h
    simpa using h
  rw [override?, hfind]
  simp only
  cases i.caseSensitive with
  | true => simp
  | false =>
      simp only [Bool.false_eq_true, if_false, true_and, Option.map_eq_some_iff, Prod.exists,
        exists_eq_right,
        Keyed.find?_entries_eq_some_iff table (p := fun key => sameIgnoringCase key name),
        contains_iff_entered holds, find?_iff_lastEnters holds, IsLeastKey]
      exact exists_congr fun key => and_comm

/-- **The last line under the case rule wins** if keys are spelled alike. -/
lemma override?_iff_lastForField (holds : Holds valid item? lines table)
    (alike : SpelledAlike valid item? lines i) :
    i.override? table name = some value ↔ LastForField valid item? lines i name value := by
  rw [LastForField]
  by_cases hentered : Entered valid item? lines name
  · rw [override?_of_entered holds hentered, or_iff_left fun h => h.1 hentered]
  · have hnone : ¬ LastEnters valid item? lines (· = name) value := by
      intro h
      obtain ⟨key, rfl, hkey⟩ := h.entered
      exact hentered hkey
    rw [override?_of_not_entered holds hentered, or_iff_right hnone, and_iff_right hentered]
    refine and_congr_right fun hcase => ?_
    have hsame : ∀ key other, Entered valid item? lines key → Entered valid item? lines other →
        sameIgnoringCase key name = true → sameIgnoringCase other name = true → key = other := by
      have hfolds : ∀ a b, i.sameName a b = sameIgnoringCase a b := fun a b => by
        rw [sameName, hcase, if_neg (by simp)]
      intro key other hkey hother hkeyName hotherName
      rw [← hfolds] at hkeyName hotherName
      rw [sameName_comm] at hotherName
      exact alike key other hkey hother (sameName_trans hkeyName hotherName)
    constructor
    · rintro ⟨key, ⟨hkeyName, -⟩, front, line, back, _, rfl, rfl, henters, hback⟩
      refine ⟨front, line, back, _, rfl, hkeyName, henters, ?_⟩
      intro l hl other v hother hotherName
      exact hback l hl other v hother (hsame _ _ ⟨l, by simp [hl], v, hother⟩
        ⟨line, by simp, value, henters⟩ hotherName hkeyName)
    · rintro ⟨front, line, back, key, rfl, hkeyName, henters, hback⟩
      refine ⟨key, ⟨hkeyName, fun other hother hotherName => ?_⟩, front, line, back, key, rfl, rfl,
        henters, ?_⟩
      · rw [hsame other key hother ⟨line, by simp, value, henters⟩ hotherName hkeyName]
      · rintro l hl other v hother rfl
        exact hback l hl other v hother hkeyName

/-! ## Warnings -/

/-- A line warns that it replaces an override if a line before it has the same key. -/
lemma warningsOf_of_enters {r : Ruling}
    (hr : ∀ d key, (∃ value, item? d = some (key, value)) ↔ d.override? = some (r, key))
    (front : List Annotation) {line : Annotation} (h : line.Enters valid item? key value) :
    (Entered valid item? front key →
        warningsOf valid front line = [replacementWarning line.position key])
      ∧ (¬ Entered valid item? front key → warningsOf valid front line = []) := by
  obtain ⟨d, hgives, hitem⟩ := h
  have hoverride : d.override? = some (r, key) := (hr d key).1 ⟨value, hitem⟩
  have hearlier : ((said valid front).any fun s => s.directive.override? = some (r, key)) = true
      ↔ Entered valid item? front key := by
    simp only [List.any_eq_true, decide_eq_true_eq, ← hr, Entered, enters_iff, entered?, said,
      List.mem_filterMap, Option.bind_eq_some_iff]
    constructor
    · rintro ⟨s, ⟨l, hl, hs⟩, v, hv⟩
      exact ⟨l, hl, v, s, hs, hv⟩
    · rintro ⟨l, hl, v, s, hs, hv⟩
      exact ⟨s, ⟨l, hl, hs⟩, v, hv⟩
  rw [warningsOf, hgives.diagnostics, gives_iff.1 hgives, Option.bind_some, List.nil_append,
    replacement?, hoverride, Option.bind_some, ← hearlier]
  constructor
  · intro h
    rw [if_pos h]
    rfl
  · intro h
    rw [if_neg h, Option.toList_none]

/-! ## All together -/

/-- The overrides of one kind, with what is recorded about them. -/
structure LastWins (valid : List String) (lines : List Annotation) (i : Instructions)
    (recorded : List Diagnostic) (table : Keyed α) (item? : Directive → Option (String × α)) :
    Prop where
  /-- A field has the override under its own name from the last line with that key. -/
  named : ∀ name value, Entered valid item? lines name →
    (i.override? table name = some value ↔ LastEnters valid item? lines (· = name) value)
  /-- Otherwise, ignoring case, it has that of the least key from the last line with that key. -/
  folded : ∀ name value, ¬ Entered valid item? lines name →
    (i.override? table name = some value ↔ i.caseSensitive = false
      ∧ ∃ key, IsLeastKey valid item? lines name key
        ∧ LastEnters valid item? lines (· = key) value)
  /-- A line warns if its key was entered before, and else it does not. -/
  warned : ∀ front line back key value, lines = front ++ line :: back →
    line.Enters valid item? key value → ∃ own,
      recorded = warnings valid [] front ++ (own ++ warnings valid (front ++ [line]) back)
        ∧ (Entered valid item? front key → own = [replacementWarning line.position key])
        ∧ (¬ Entered valid item? front key → own = [])
  /-- Where case is distinguished, keys are spelled alike. -/
  sensitive : i.caseSensitive = true → SpelledAlike valid item? lines i
  /-- The last line under the case rule wins if keys are spelled alike. -/
  alike : SpelledAlike valid item? lines i → ∀ name value,
    (i.override? table name = some value ↔ LastForField valid item? lines i name value)
  /-- Then a line warns of each line before it whose key is the same under the case rule. -/
  warnedAlike : SpelledAlike valid item? lines i →
    ∀ front line back key other value, lines = front ++ line :: back →
      line.Enters valid item? key value → Entered valid item? front other →
        i.sameName other key = true → replacementWarning line.position key ∈ recorded

lemma lastWins {r : Ruling} {recorded : List Diagnostic} (holds : Holds valid item? lines table)
    (hr : ∀ d key, (∃ value, item? d = some (key, value)) ↔ d.override? = some (r, key))
    (hrecorded : recorded = warnings valid [] lines) :
    LastWins valid lines i recorded table item? := by
  subst hrecorded
  have hwarned : ∀ front line back, warnings valid [] (front ++ line :: back)
      = warnings valid [] front
        ++ (warningsOf valid front line ++ warnings valid (front ++ [line]) back) := by
    intro front line back
    rw [warnings_append, warnings, List.nil_append]
  refine ⟨fun name value h => override?_of_entered holds h,
    fun name value h => override?_of_not_entered holds h, ?_, spelledAlike_of_caseSensitive,
    fun h name value => override?_iff_lastForField holds h, ?_⟩
  · rintro front line back key value rfl henters
    exact ⟨_, hwarned front line back, warningsOf_of_enters hr front henters⟩
  · rintro alike front line back key other value rfl henters hother hsame
    have hentered : Entered valid item? (front ++ line :: back) other := by
      obtain ⟨l, hl, v, hv⟩ := hother
      exact ⟨l, List.mem_append_left _ hl, v, hv⟩
    obtain rfl := alike other key hentered ⟨line, by simp, value, henters⟩ hsame
    rw [hwarned, (warningsOf_of_enters hr front henters).1 hother]
    simp

/-- **Which line overrides a field, and which warns,** for each of the four kinds of overrides. -/
theorem last_override_wins
    (accepted : (ofLines valid lines).outcome.value = .ok i) :
    let recorded := (ofLines valid lines).outcome.diagnostics
    LastWins valid lines i recorded i.literals Directive.literal?
      ∧ LastWins valid lines i recorded i.methodOverrides Directive.method?
      ∧ LastWins valid lines i recorded i.converters Directive.converter?
      ∧ LastWins valid lines i recorded i.fieldOverrides Directive.source? := by
  obtain ⟨hall, hfree⟩ := ofLines_isOk_iff.1 ⟨i, accepted⟩
  have hleaves := ofLines_of_accepted hall hfree
  obtain rfl := Except.ok.inj (hleaves.value.symm.trans accepted)
  exact ⟨lastWins (literals_ofSaid _) Directive.literal?_iff hleaves.diagnostics,
    lastWins (methodOverrides_ofSaid _) Directive.method?_iff hleaves.diagnostics,
    lastWins (converters_ofSaid _) Directive.converter?_iff hleaves.diagnostics,
    lastWins (fieldOverrides_ofSaid _) Directive.source?_iff hleaves.diagnostics⟩

/-! ### Two lines for a name -/

/-- Two lines that enter a name, and one that says that case does not count. -/
def nameLines (first second : String) : List Annotation :=
  [⟨":literal " ++ first ++ " 1", ⟨"pets.rs", 1, 1⟩⟩,
    ⟨":literal " ++ second ++ " 2", ⟨"pets.rs", 2, 1⟩⟩, ⟨":case:off", ⟨"pets.rs", 3, 1⟩⟩]

/-- A line behind which no other enters anything is the last. -/
lemma lastEnters_of_entered? {keys : String → Prop} (front : List Annotation) {line : Annotation}
    {back : List Annotation} (hkey : keys key) (h : entered? valid item? line = some (key, value))
    (hback : ∀ l ∈ back, entered? valid item? l = none) :
    LastEnters valid item? (front ++ line :: back) keys value := by
  refine ⟨front, line, back, key, rfl, hkey, enters_iff.2 h, fun l hl other v henters => ?_⟩
  exact absurd ((hback l hl).symm.trans (enters_iff.1 henters)) (by simp)

/-- Of two lines with one key, the second wins, and it warns. -/
theorem nameLines_replaced :
    let valid := DirectiveForm.methodNames
    let lines := nameLines "name" "name"
    ∃ i, (ofLines valid lines).outcome.value = .ok i
      ∧ i.override? i.literals "name" = some "2"
      ∧ replacementWarning ⟨"pets.rs", 2, 1⟩ "name"
        ∈ (ofLines valid lines).outcome.diagnostics := by
  intro valid lines
  have haccepted := ofLines_eq_ok valid lines (by decide +kernel)
  have hwins := (last_override_wins haccepted).1
  have hfirst : Entered valid Directive.literal? (lines.take 1) "name" :=
    ⟨_, List.mem_cons_self, "1", enters_iff.2 (by decide +kernel)⟩
  have hsecond : LastEnters valid Directive.literal? lines (· = "name") "2" :=
    lastEnters_of_entered? (lines.take 1) rfl (by decide +kernel) (by decide +kernel)
  obtain ⟨_, rfl, hentered⟩ := hsecond.entered
  refine ⟨_, haccepted, (hwins.named _ _ hentered).2 hsecond, ?_⟩
  obtain ⟨own, hrecorded, hown, -⟩ := hwins.warned (lines.take 1) _ _ "name" "2" rfl
    (enters_iff.2 (by decide +kernel))
  rw [hrecorded, hown hfirst]
  exact List.mem_append_right _ (List.mem_append_left _ (List.mem_singleton_self _))

/-- **Ignoring case, the first of two lines wins,** and the second does not warn. -/
theorem nameLines_outdone :
    let valid := DirectiveForm.methodNames
    let lines := nameLines "NAME" "Name"
    ∃ i, (ofLines valid lines).outcome.value = .ok i
      ∧ i.sameName "NAME" "Name" = true
      ∧ LastForField valid Directive.literal? lines i "name" "2"
      ∧ i.override? i.literals "name" = some "1"
      ∧ (ofLines valid lines).outcome.diagnostics = [] := by
  intro valid lines
  have haccepted := ofLines_eq_ok valid lines (by decide +kernel)
  have hother : ¬ Entered valid Directive.literal? lines "name" := by
    rw [← contains_iff_entered (literals_ofSaid (said valid lines))]
    decide +kernel
  have hfolds : sameIgnoringCase "Name" "name" = true := by decide
  have hlast : LastEnters valid Directive.literal? lines
      (fun key => sameIgnoringCase key "name" = true) "2" :=
    lastEnters_of_entered? (lines.take 1) hfolds (by decide +kernel) (by decide +kernel)
  exact ⟨_, haccepted, by decide +kernel, .inr ⟨hother, by decide +kernel, hlast⟩,
    by decide +kernel, by decide +kernel⟩

end Instructions

end FieldCopy
