import Mathlib
import FieldCopy.Proofs.Directives.Precedence

/-!
# Which lines are accepted, and what they then say

The lines of a method are read one after the other.  A line may be refused on its own, and lines
that are all accepted may still contradict each other: the arguments cannot be reversed where the
destination is the result.  That is decided behind the last line, since the style may be set there.

**Readings.**  A run over accepted lines leaves what they say behind, together with the place of the
last reversal (`readingOf`), and it records the warnings of each line in turn (`warnings`).  A line
warns on its own account, or because its override replaces one of a line before it
(`replacement?`).  The first line that is refused ends the run and records nothing
(`foldlM_refused`).

**Main statement.**  `Instructions.acceptance`: when lines are accepted, which fault is reported
otherwise, what is recorded in each case, and that among accepted lines the last one that sets
something decides on it (`LastDecides`).
-/

namespace FieldCopy

open Attempt

/-! ## Attempts and what they leave behind -/

namespace Attempt

variable {α β : Type}

/-- An attempt has this outcome and records these diagnostics. -/
structure Leaves (x : Attempt α) (value : Except Fault α) (ds : List Diagnostic) : Prop where
  value : x.outcome.value = value
  diagnostics : x.outcome.diagnostics = ds

namespace Leaves

variable {x : Attempt α} {f : α → Attempt β} {a : α} {ds es : List Diagnostic}

lemma pure (a : α) : Leaves (Pure.pure a : Attempt α) (.ok a) [] := ⟨rfl, rfl⟩

lemma throw (e : Fault) : Leaves (MonadExcept.throw e : Attempt α) (.error e) [] := ⟨rfl, rfl⟩

lemma warnAt (p : Position) (m : String) :
    Leaves (Attempt.warnAt p m) (.ok ()) [⟨.warning, p, m⟩] := ⟨rfl, rfl⟩

lemma log (l : Level) (m : String) : Leaves (Attempt.log l m) (.ok ()) [] := ⟨rfl, rfl⟩

lemma bind {r : Except Fault β} (hx : Leaves x (.ok a) ds) (hf : Leaves (f a) r es) :
    Leaves (x >>= f) r (ds ++ es) := by
  obtain ⟨hvalue, hdiagnostics⟩ := outcome_bind_ok hx.value f
  exact ⟨hvalue.trans hf.value, by rw [hdiagnostics, hx.diagnostics, hf.diagnostics]⟩

lemma bind_error {e : Fault} (hx : Leaves x (.error e) ds) : Leaves (x >>= f) (.error e) ds := by
  obtain ⟨hvalue, hdiagnostics⟩ := outcome_bind_error hx.value f
  exact ⟨hvalue, hdiagnostics.trans hx.diagnostics⟩

end Leaves

/-- An attempt that fails has recorded nothing. -/
def FailsSilently (x : Attempt α) : Prop :=
  ∀ e, x.outcome.value = .error e → x.outcome.diagnostics = []

namespace FailsSilently

lemma throw (e : Fault) : FailsSilently (MonadExcept.throw e : Attempt α) := fun _ _ => rfl

lemma of_leaves {x : Attempt α} {a : α} {ds : List Diagnostic} (h : Leaves x (.ok a) ds) :
    FailsSilently x := fun e he => absurd (h.value.symm.trans he) (by simp)

end FailsSilently

end Attempt

/-! ## One line -/

namespace Annotation

variable (valid : List String) (line : Annotation)

/-- A line is accepted on its own.  One whose directive is unknown or not taken is. -/
def IsAccepted : Prop := ∃ d, (line.directive valid).outcome.value = .ok d

/-- A line is accepted and holds this directive, which is taken. -/
def Gives (d : Directive) : Prop := (line.directive valid).outcome.value = .ok (some d)

/-- A line that is refused records nothing. -/
lemma failsSilently_directive : FailsSilently (line.directive valid) := by
  unfold directive
  simp only
  split
  · exact .throw _
  · split
    · exact .of_leaves ((Leaves.warnAt _ _).bind (.pure none))
    · rename_i form _
      split
      · exact .throw _
      · split
        · exact .throw _
        · rename_i d _
          exact .of_leaves ((Leaves.log _ _).bind (.pure (some d)))

end Annotation

namespace Instructions

/-! ## Overrides that replace others -/

/-- The warning about an override for a field that replaces another. -/
def replacementWarning (p : Position) (field : String) : Diagnostic :=
  ⟨.warning, p, "override for \"" ++ field ++ "\" replaces an earlier one"⟩

/-- The warning about a directive that replaces the override of one before it. -/
def replacement? (earlier : List Saying) (s : Saying) : Option Diagnostic :=
  s.directive.override?.bind fun o =>
    if earlier.any fun e => e.directive.override? = some o then
      some (replacementWarning s.position o.2)
    else none

/-- A table holds a key if a directive before wrote it. -/
lemma contains_ofSaid {α : Type} {sayings : List Saying} {table : Keyed α}
    {item? : Directive → Option (String × α)} {r : Ruling}
    (h : table = .ofList (sayings.filterMap fun s => item? s.directive))
    (hr : ∀ d key, (∃ value, item? d = some (key, value)) ↔ d.override? = some (r, key))
    (key : String) :
    table.contains key = sayings.any fun s => s.directive.override? = some (r, key) := by
  rw [Bool.eq_iff_iff, h, Keyed.contains_ofList_iff, List.any_eq_true]
  simp only [decide_eq_true_eq, ← hr, List.mem_filterMap]
  exact ⟨fun ⟨value, s, hs, hitem⟩ => ⟨s, hs, value, hitem⟩,
    fun ⟨s, hs, value, hitem⟩ => ⟨value, s, hs, hitem⟩⟩

variable (earlier : List Saying)

/-- An override that is put into a table replaces one that a directive before it wrote. -/
lemma replaced_overriding {α : Type} {table : Keyed α} {item? : Directive → Option (String × α)}
    {r : Ruling} {key : String} {s : Saying} (hs : s.directive.override? = some (r, key))
    (h : table = .ofList (earlier.filterMap fun e => item? e.directive))
    (hr : ∀ d key, (∃ value, item? d = some (key, value)) ↔ d.override? = some (r, key))
    (value : α) (update : Keyed α → Instructions) :
    (Directive.overriding table key value update).replaced.map (replacementWarning s.position)
      = replacement? earlier s := by
  rw [Directive.overriding, contains_ofSaid h hr, replacement?, hs, Option.bind_some]
  split <;> rfl

/-- The warning about an override that is replaced is the one about a directive before. -/
lemma replaced_add (s : Saying) :
    (s.directive.apply s.position (ofSaid earlier)).replaced.map (replacementWarning s.position)
      = replacement? earlier s := by
  obtain ⟨p, d⟩ := s
  cases d with
  | literal key text =>
      exact replaced_overriding earlier rfl (literals_ofSaid earlier) Directive.literal?_iff _ _
  | method key m =>
      exact replaced_overriding earlier rfl (methodOverrides_ofSaid earlier) Directive.method?_iff
        _ _
  | converter key c =>
      exact replaced_overriding earlier rfl (converters_ofSaid earlier) Directive.converter?_iff _ _
  | map path key | field key path =>
      exact replaced_overriding earlier rfl (fieldOverrides_ofSaid earlier) Directive.source?_iff
        _ _
  | _ => rfl

/-! ## Lines in turn -/

/-- The place of a directive that reverses the arguments. -/
def Saying.reversal? (s : Saying) : Option Position :=
  if s.directive.isReversed then some s.position else none

/-- What is known behind some directives. -/
def readingOf (sayings : List Saying) : Reading :=
  ⟨ofSaid sayings, (sayings.filterMap Saying.reversal?).getLast?⟩

lemma readingOf_concat (sayings : List Saying) (s : Saying) :
    readingOf (sayings ++ [s])
      = ⟨add (ofSaid sayings) s,
          if s.directive.isReversed then some s.position else (readingOf sayings).reversedAt⟩ := by
  have hreversal : s.reversal? = if s.directive.isReversed then some s.position else none := rfl
  rw [readingOf, readingOf, List.filterMap_append, ofSaid, List.foldl_append]
  cases hs : s.directive.isReversed with
  | true => simp [hreversal, hs]; rfl
  | false => simp [hreversal, hs]; rfl

variable (valid : List String)

/-- The warnings of a line behind others: its own, and that it replaces an override of theirs. -/
def warningsOf (before : List Annotation) (line : Annotation) : List Diagnostic :=
  (line.directive valid).outcome.diagnostics
    ++ ((saying? valid line).bind (replacement? (said valid before))).toList

/-- The warnings of some lines, each behind those in front of it. -/
def warnings (before : List Annotation) : List Annotation → List Diagnostic
  | [] => []
  | line :: rest => warningsOf valid before line ++ warnings (before ++ [line]) rest

lemma warnings_append (before a b : List Annotation) :
    warnings valid before (a ++ b) = warnings valid before a ++ warnings valid (before ++ a) b := by
  induction a generalizing before with
  | nil => simp [warnings]
  | cons line a ih => simp [warnings, ih]

/-- An accepted line adds what it says, and warns. -/
lemma readLine_accepted (before : List Annotation) {line : Annotation}
    (h : line.IsAccepted valid) :
    Leaves (readLine valid (readingOf (said valid before)) line)
      (.ok (readingOf (said valid (before ++ [line])))) (warningsOf valid before line) := by
  obtain ⟨d, hd⟩ := h
  have hline : Leaves (line.directive valid) (.ok d) _ := ⟨hd, rfl⟩
  have hsaying : saying? valid line = d.map (Saying.mk line.position) := by
    rw [saying?, hd]
    rfl
  rw [readLine, said_append, warningsOf, hsaying]
  refine hline.bind ?_
  cases d with
  | none =>
      have hnone : said valid [line] = [] := List.filterMap_cons_none hsaying
      rw [hnone, List.append_nil]
      exact .pure _
  | some d =>
      have hsome : said valid [line] = [⟨line.position, d⟩] := List.filterMap_cons_some hsaying
      have hreplaced := replaced_add (said valid before) ⟨line.position, d⟩
      have hinstructions : (readingOf (said valid before)).instructions
          = ofSaid (said valid before) := rfl
      rw [hsome, readingOf_concat, Option.map_some, Option.bind_some, ← hreplaced, hinstructions]
      simp only
      cases hfield : (d.apply line.position (ofSaid (said valid before))).replaced with
      | some field => exact (Leaves.warnAt _ _).bind (.pure _)
      | none => exact .pure _

/-- **Accepted lines come to what they say, with their warnings.** -/
lemma foldlM_accepted (lines : List Annotation) (h : ∀ line ∈ lines, line.IsAccepted valid) :
    Leaves (lines.foldlM (readLine valid) ⟨default, none⟩) (.ok (readingOf (said valid lines)))
      (warnings valid [] lines) := by
  induction lines using List.reverseRecOn with
  | nil => exact .pure _
  | append_singleton lines line ih =>
      have hlines := ih fun l hl => h l (List.mem_append_left _ hl)
      have hline := readLine_accepted valid lines
        (h line (List.mem_append_right _ (List.mem_singleton_self line)))
      rw [List.foldlM_append, warnings_append, List.nil_append]
      refine hlines.bind ?_
      rw [List.foldlM_cons, warnings]
      exact hline.bind (.pure _)

/-- **The first line that is refused ends the reading** and records nothing. -/
lemma foldlM_refused {before : List Annotation} {line : Annotation} (after : List Annotation)
    {e : Fault} (hbefore : ∀ l ∈ before, l.IsAccepted valid)
    (hline : (line.directive valid).outcome.value = .error e) :
    Leaves ((before ++ line :: after).foldlM (readLine valid) ⟨default, none⟩) (.error e)
      (warnings valid [] before) := by
  have hread : Leaves (readLine valid (readingOf (said valid before)) line) (.error e) [] :=
    .bind_error ⟨hline, line.failsSilently_directive valid e hline⟩
  rw [List.foldlM_append, ← List.append_nil (warnings valid [] before)]
  refine (foldlM_accepted valid before hbefore).bind ?_
  rw [List.foldlM_cons]
  exact hread.bind_error

end Instructions

/-! ## What is set last -/

namespace Directive

/-- The style that a directive sets. -/
def style? : Directive → Option Style
  | style s => some s
  | _ => none

/-- The receiver that a directive names. -/
def receiver? : Directive → Option String
  | receiver p => some p
  | _ => none

/-- Whether getters may be used, if a directive says so. -/
def getters? : Directive → Option Bool
  | getters on => some on
  | _ => none

/-- Whether members may be turned into text, if a directive says so. -/
def stringers? : Directive → Option Bool
  | stringers on => some on
  | _ => none

/-- Whether members may be converted to basic types, if a directive says so. -/
def casts? : Directive → Option Bool
  | casts on => some on
  | _ => none

/-- Whether the arguments are reversed, if a directive says so. -/
def reversed? : Directive → Option Bool
  | reversed => some true
  | _ => none

/-- The function for the elements that a directive names. -/
def delegate? : Directive → Option String
  | delegate f => some f
  | _ => none

/-- The function to be called before the assignments that a directive names. -/
def before? : Directive → Option String
  | before f => some f
  | _ => none

/-- The function to be called after the assignments that a directive names. -/
def after? : Directive → Option String
  | after f => some f
  | _ => none

end Directive

namespace Instructions

/-- What directives set last of what `set?` finds in them. -/
def last? {α : Type} (sayings : List Saying) (set? : Directive → Option α) : Option α :=
  (sayings.filterMap fun s => set? s.directive).getLast?

/-- The function that directives name last, with the position of that directive. -/
def lastFunction? (sayings : List Saying) (name? : Directive → Option String) :
    Option FunctionRef :=
  (sayings.filterMap fun s => (name? s.directive).map (FunctionRef.mk · s.position)).getLast?

/-- Everything that directives set as a whole is as the last of them says that speaks of it, or as
it is without directives. -/
structure LastDecides (sayings : List Saying) (i : Instructions) : Prop where
  matching : i.matching = (last? sayings Directive.rule?).getD .name
  caseSensitive : i.caseSensitive = (last? sayings Directive.case?).getD true
  getters : i.getters = (last? sayings Directive.getters?).getD false
  stringers : i.stringers = (last? sayings Directive.stringers?).getD false
  casts : i.casts = (last? sayings Directive.casts?).getD false
  style : i.style = (last? sayings Directive.style?).getD .result
  reversed : i.reversed = (last? sayings Directive.reversed?).getD false
  receiver : i.receiver = last? sayings Directive.receiver?
  delegate : i.delegate = lastFunction? sayings Directive.delegate?
  before : i.before = lastFunction? sayings Directive.before?
  after : i.after = lastFunction? sayings Directive.after?

/-- **The last directive that sets something decides on it.** -/
lemma lastDecides_ofSaid (sayings : List Saying) : LastDecides sayings (ofSaid sayings) where
  matching := matching_ofSaid sayings
  caseSensitive := caseSensitive_ofSaid sayings
  getters := flag_ofSaid _ Directive.getters? (fun _ ⟨_, d⟩ => by cases d <;> rfl) sayings
  stringers := flag_ofSaid _ Directive.stringers? (fun _ ⟨_, d⟩ => by cases d <;> rfl) sayings
  casts := flag_ofSaid _ Directive.casts? (fun _ ⟨_, d⟩ => by cases d <;> rfl) sayings
  style := flag_ofSaid _ Directive.style? (fun _ ⟨_, d⟩ => by cases d <;> rfl) sayings
  reversed := flag_ofSaid _ Directive.reversed? (fun _ ⟨_, d⟩ => by cases d <;> rfl) sayings
  receiver := gift_ofSaid _ (fun s => s.directive.receiver?) rfl
    (fun _ ⟨_, d⟩ => by cases d <;> rfl) sayings
  delegate := gift_ofSaid _ (fun s => s.directive.delegate?.map (FunctionRef.mk · s.position)) rfl
    (fun _ ⟨_, d⟩ => by cases d <;> rfl) sayings
  before := gift_ofSaid _ (fun s => s.directive.before?.map (FunctionRef.mk · s.position)) rfl
    (fun _ ⟨_, d⟩ => by cases d <;> rfl) sayings
  after := gift_ofSaid _ (fun s => s.directive.after?.map (FunctionRef.mk · s.position)) rfl
    (fun _ ⟨_, d⟩ => by cases d <;> rfl) sayings

/-! ## All lines together -/

section

variable (valid : List String) (lines : List Annotation)

/-- Lines contradict each other: the arguments are reversed, but the style that is set last, or that
holds without directives, has the destination as result. -/
def Contradict : Prop :=
  (∃ line ∈ lines, line.Gives valid .reversed)
    ∧ (last? (said valid lines) Directive.style?).getD .result = .result

/-- The place where a line reverses the arguments. -/
def reversal? (line : Annotation) : Option Position :=
  (saying? valid line).bind Saying.reversal?

variable {valid lines}

lemma gives_iff {line : Annotation} {d : Directive} :
    line.Gives valid d ↔ saying? valid line = some ⟨line.position, d⟩ := by
  unfold Annotation.Gives
  rw [saying?]
  cases (line.directive valid).outcome.value with
  | error e => simp [Except.toOption]
  | ok d' => cases d' <;> simp [Except.toOption]

lemma reversal?_eq_some_iff {line : Annotation} {p : Position} :
    reversal? valid line = some p ↔ line.Gives valid .reversed ∧ line.position = p := by
  rw [reversal?, gives_iff, saying?]
  cases (line.directive valid).outcome.value.toOption.join with
  | none => simp
  | some d => cases d <;> simp [Saying.reversal?, Directive.isReversed]

/-- The arguments are reversed where a line says so last. -/
lemma reversedAt_eq_some {p : Position}
    (h : (readingOf (said valid lines)).reversedAt = some p) :
    ∃ front line back, lines = front ++ line :: back ∧ line.Gives valid .reversed
      ∧ (∀ l ∈ back, ¬ l.Gives valid .reversed) ∧ line.position = p := by
  rw [readingOf, said, List.filterMap_filterMap, List.getLast?_filterMap,
    List.findSome?_eq_some_iff] at h
  obtain ⟨back, line, front, hlines, hline, hback⟩ := h
  obtain ⟨hgives, hp⟩ := reversal?_eq_some_iff.1 hline
  refine ⟨front.reverse, line, back.reverse, ?_, hgives, fun l hl hreversed => ?_, hp⟩
  · rw [← List.reverse_reverse lines, hlines]
    simp
  · have hnone := hback l (List.mem_reverse.1 hl)
    exact absurd (hnone.symm.trans (reversal?_eq_some_iff.2 ⟨hreversed, rfl⟩)) (by simp)

lemma reversedAt_eq_none_iff :
    (readingOf (said valid lines)).reversedAt = none
      ↔ ∀ line ∈ lines, ¬ line.Gives valid .reversed := by
  rw [readingOf, said, List.filterMap_filterMap, List.getLast?_eq_none_iff,
    List.filterMap_eq_nil_iff]
  refine forall₂_congr fun line _ => ?_
  change reversal? valid line = none ↔ _
  rw [Option.eq_none_iff_forall_ne_some]
  exact ⟨fun h hgives => h _ (reversal?_eq_some_iff.2 ⟨hgives, rfl⟩),
    fun h p hp => h (reversal?_eq_some_iff.1 hp).1⟩

/-- The arguments are reversed only if a line says so. -/
lemma exists_gives_of_reversed (h : (ofSaid (said valid lines)).reversed = true) :
    ∃ line ∈ lines, line.Gives valid .reversed := by
  rw [(lastDecides_ofSaid (said valid lines)).reversed, last?] at h
  cases hlast : ((said valid lines).filterMap fun s => s.directive.reversed?).getLast? with
  | none => exact absurd h (by simp [hlast])
  | some on =>
      obtain ⟨s, hs, hon⟩ := List.mem_filterMap.1 (List.mem_of_getLast? hlast)
      obtain ⟨line, hline, hsaying⟩ := List.mem_filterMap.1 hs
      obtain ⟨p, d⟩ := s
      cases d with
      | reversed =>
          obtain ⟨d, -, hd⟩ := Option.map_eq_some_iff.1 hsaying
          obtain ⟨rfl, rfl⟩ := Saying.mk.inj hd
          exact ⟨line, hline, gives_iff.2 hsaying⟩
      | _ => exact absurd hon (by simp [Directive.reversed?])

variable (haccepted : ∀ line ∈ lines, line.IsAccepted valid)

include haccepted

/-- **Accepted lines that do not contradict each other** are accepted together. -/
lemma ofLines_of_accepted (h : ¬ Contradict valid lines) :
    Leaves (ofLines valid lines) (.ok (ofSaid (said valid lines))) (warnings valid [] lines) := by
  have hstyle := (lastDecides_ofSaid (said valid lines)).style
  rw [ofLines, ← List.append_nil (warnings valid [] lines)]
  refine (foldlM_accepted valid lines haccepted).bind ?_
  split
  · rename_i p hp
    obtain ⟨front, line, back, hlines, hgives, -, -⟩ := reversedAt_eq_some hp
    have hargument : (readingOf (said valid lines)).instructions.style ≠ .result := fun hresult =>
      h ⟨⟨line, hlines ▸ List.mem_append_right _ List.mem_cons_self, hgives⟩,
        hstyle.symm.trans hresult⟩
    rw [if_neg hargument]
    exact .pure _
  · exact .pure _

/-- **Accepted lines that contradict each other** are refused at the last reversal. -/
lemma ofLines_of_contradict (h : Contradict valid lines) :
    ∃ front line back, lines = front ++ line :: back ∧ line.Gives valid .reversed
      ∧ (∀ l ∈ back, ¬ l.Gives valid .reversed)
      ∧ Leaves (ofLines valid lines) (.error (.misconfigured line.position .reversedResult))
          (warnings valid [] lines) := by
  have hstyle := (lastDecides_ofSaid (said valid lines)).style
  obtain ⟨⟨l, hl, hreversed⟩, hresult⟩ := h
  cases hp : (readingOf (said valid lines)).reversedAt with
  | none => exact absurd hreversed (reversedAt_eq_none_iff.1 hp l hl)
  | some p =>
      obtain ⟨front, line, back, hlines, hgives, hback, rfl⟩ := reversedAt_eq_some hp
      refine ⟨front, line, back, hlines, hgives, hback, ?_⟩
      rw [ofLines, ← List.append_nil (warnings valid [] lines)]
      refine (foldlM_accepted valid lines haccepted).bind ?_
      have hargument : (readingOf (said valid lines)).instructions.style = .result :=
        hstyle.trans hresult
      rw [hp]
      simp only
      rw [if_pos hargument]
      exact .throw _

end

/-- If not all lines are accepted, one is the first that is not. -/
lemma exists_first_refused {valid : List String} {lines : List Annotation}
    (h : ¬ ∀ line ∈ lines, line.IsAccepted valid) :
    ∃ before line after e, lines = before ++ line :: after ∧ (∀ l ∈ before, l.IsAccepted valid)
      ∧ (line.directive valid).outcome.value = .error e := by
  induction lines with
  | nil => exact absurd (fun _ hl => absurd hl List.not_mem_nil) h
  | cons line lines ih =>
      cases hline : (line.directive valid).outcome.value with
      | error e => exact ⟨[], line, lines, e, rfl, fun _ hl => absurd hl List.not_mem_nil, hline⟩
      | ok d =>
          have hrest : ¬ ∀ l ∈ lines, l.IsAccepted valid := fun hall =>
            h (List.forall_mem_cons.2 ⟨⟨d, hline⟩, hall⟩)
          obtain ⟨before, l, after, e, rfl, hbefore, hl⟩ := ih hrest
          exact ⟨line :: before, l, after, e, rfl, List.forall_mem_cons.2 ⟨⟨d, hline⟩, hbefore⟩, hl⟩

/-- **Lines behind one that is refused** do not matter. -/
lemma ofLines_of_refused {valid : List String} {before : List Annotation} {line : Annotation}
    {e : Fault} (after : List Annotation) (hbefore : ∀ l ∈ before, l.IsAccepted valid)
    (hline : (line.directive valid).outcome.value = .error e) :
    Leaves (ofLines valid (before ++ line :: after)) (.error e) (warnings valid [] before) :=
  (foldlM_refused valid after hbefore hline).bind_error

/-- Lines are accepted together if each of them is and they do not contradict each other. -/
lemma ofLines_isOk_iff {valid : List String} {lines : List Annotation} :
    (∃ i, (ofLines valid lines).outcome.value = .ok i)
      ↔ (∀ line ∈ lines, line.IsAccepted valid) ∧ ¬ Contradict valid lines := by
  refine ⟨fun ⟨i, hi⟩ => ?_, fun ⟨hall, hfree⟩ => ⟨_, (ofLines_of_accepted hall hfree).value⟩⟩
  by_cases hall : ∀ line ∈ lines, line.IsAccepted valid
  · refine ⟨hall, fun hcontradict => ?_⟩
    obtain ⟨_, _, _, -, -, -, hleaves⟩ := ofLines_of_contradict hall hcontradict
    exact absurd (hi.symm.trans hleaves.value) (by simp)
  · obtain ⟨before, line, after, e, rfl, hbefore, hline⟩ := exists_first_refused hall
    have hleaves := ofLines_of_refused after hbefore hline
    exact absurd (hi.symm.trans hleaves.value) (by simp)

/-- **When lines are accepted, and what they leave behind.** -/
theorem acceptance (valid : List String) (lines : List Annotation) :
    ((∃ i, (ofLines valid lines).outcome.value = .ok i)
        ↔ (∀ line ∈ lines, line.IsAccepted valid) ∧ ¬ Contradict valid lines)
      ∧ (∀ before line after e, lines = before ++ line :: after →
          (∀ l ∈ before, l.IsAccepted valid) → (line.directive valid).outcome.value = .error e →
            Leaves (ofLines valid lines) (.error e) (warnings valid [] before))
      ∧ ((∀ line ∈ lines, line.IsAccepted valid) → Contradict valid lines →
          ∃ front line back, lines = front ++ line :: back ∧ line.Gives valid .reversed
            ∧ (∀ l ∈ back, ¬ l.Gives valid .reversed)
            ∧ Leaves (ofLines valid lines) (.error (.misconfigured line.position .reversedResult))
                (warnings valid [] lines))
      ∧ ∀ i, (ofLines valid lines).outcome.value = .ok i →
          (ofLines valid lines).outcome.diagnostics = warnings valid [] lines
            ∧ (i.reversed = true → i.style = .argument)
            ∧ LastDecides (said valid lines) i := by
  refine ⟨ofLines_isOk_iff, ?_, ofLines_of_contradict, fun i hi => ?_⟩
  · rintro before line after e rfl hbefore hline
    exact ofLines_of_refused after hbefore hline
  · obtain ⟨hall, hfree⟩ := ofLines_isOk_iff.1 ⟨i, hi⟩
    have hleaves := ofLines_of_accepted hall hfree
    obtain rfl := Except.ok.inj (hleaves.value.symm.trans hi)
    have hlast := lastDecides_ofSaid (said valid lines)
    refine ⟨hleaves.diagnostics, fun hreversed => ?_, hlast⟩
    cases hstyle : (ofSaid (said valid lines)).style with
    | argument => rfl
    | result => exact absurd ⟨exists_gives_of_reversed hreversed, hlast.style ▸ hstyle⟩ hfree

end Instructions

end FieldCopy
