import Mathlib
import FieldCopy.Loading.SerializedName
import FieldCopy.Proofs.Parsing.Fronts

/-!
# Names for serialization

The name of a field can be set by `#[serde(rename = "name")]`.  What such attributes say is told
here by rules, one for each form of an entry, and the parsers are shown to follow them.

**Entries.**  An entry is a path with nothing behind it, with a value or with entries of its own
(`SerializedName.HasEntry`).  The rules leave it no choice where it ends.

**Names.**  The entries of an attribute are gone through up to the first one that is malformed, or
that no comma follows (`SerializedName.HasNames`).  Of all names that are come by, in all attributes
of the field, the last one counts.

**Main statement.**  `SerializedName.givesName_iff`: the name that is read is the one that the rules
give.
-/

namespace FieldCopy

open Source Parser

/-! ## Parsers in sequence -/

namespace Source.Parser

variable {α β : Type} {ts rest : Tokens}

lemma bind_eq_some_iff {p : Parser α} {f : α → Parser β} {x : β × Tokens} :
    (p >>= f) ts = some x ↔ ∃ a ts', p ts = some (a, ts') ∧ f a ts' = some x := by
  rw [bind_apply, Option.bind_eq_some_iff]
  exact Prod.exists

lemma pure_eq_some_iff {a b : α} :
    (pure a : Parser α) ts = some (b, rest) ↔ a = b ∧ ts = rest :=
  ⟨pure_eq_some, fun h => by rw [h.1, h.2]; rfl⟩

lemma ahead_eq_some_iff {a : Ahead} {p q : Parser α} {x : α × Tokens} :
    (do if ← ahead a then p else q) ts = some x
      ↔ a ts = true ∧ p ts = some x ∨ a ts = false ∧ q ts = some x := by
  cases ha : a ts with
  | true => rw [ahead_pos ha]; simp
  | false => rw [ahead_neg ha]; simp

lemma anyWord_eq_some_iff {w : String} :
    anyWord ts = some (w, rest) ↔ ∃ p, ts = .word w p :: rest :=
  ⟨anyWord_eq_some, fun ⟨_, h⟩ => by rw [h]; rfl⟩

lemma inside_eq_some_iff {d : Delimiter} {p : Parser α} {a : α} :
    inside d p ts = some (a, rest)
      ↔ ∃ inner q, ts = .group d inner q :: rest ∧ p inner = some (a, []) := by
  refine ⟨inside_eq_some, ?_⟩
  rintro ⟨inner, q, rfl, h⟩
  simp [inside, all, h]

end Source.Parser

namespace SerializedName

variable {g : Grammar} {ts rest : Tokens}

/-! ## Marks -/

/-- A mark stands in front of the other tokens. -/
def Mark (c : Char) (ts rest : Tokens) : Prop := ∃ joint p, ts = .mark c joint p :: rest

/-- Two colons stand in front of the other tokens. -/
def Colons (ts rest : Tokens) : Prop :=
  ∃ p joint q, ts = .mark ':' true p :: .mark ':' joint q :: rest

section

variable {operator : String} {c : Char} {u : Unit}

lemma ahead_mark_iff (h : operator.toList = [c]) :
    Ahead.mark operator ts = true ↔ ∃ rest, Mark c ts rest := by
  rw [Ahead.mark, h]
  rcases ts with _ | ⟨_ | ⟨d, joint, p⟩ | _ | _, ts⟩ <;> simp [Ahead.marks, Mark]
  exact eq_comm

lemma mark_eq_some_iff (h : operator.toList = [c]) :
    mark operator ts = some (u, rest) ↔ Mark c ts rest := by
  have hlength : operator.length = 1 := by rw [← String.length_toList, h, List.length_singleton]
  rw [mark, hlength, Option.ite_none_right_eq_some, ahead_mark_iff h]
  constructor
  · rintro ⟨⟨_, joint, p, rfl⟩, hrest⟩
    exact ⟨joint, p, by simpa using hrest⟩
  · rintro ⟨joint, p, rfl⟩
    exact ⟨⟨rest, joint, p, rfl⟩, rfl⟩

lemma ahead_colons_iff : Ahead.mark "::" ts = true ↔ ∃ rest, Colons ts rest := by
  change Ahead.marks [':', ':'] ts = true ↔ _
  rcases ts with _ | ⟨_ | ⟨c, _ | _, p⟩ | _ | _, _ | ⟨_ | ⟨d, joint, q⟩ | _ | _, ts⟩⟩ <;>
    simp [Ahead.marks, Colons]
  exact and_congr eq_comm eq_comm

lemma mark_colons_eq_some_iff : mark "::" ts = some (u, rest) ↔ Colons ts rest := by
  change (if Ahead.mark "::" ts then some ((), ts.drop 2) else none) = _ ↔ _
  rw [Option.ite_none_right_eq_some, ahead_colons_iff]
  constructor
  · rintro ⟨⟨_, p, joint, q, rfl⟩, hrest⟩
    exact ⟨p, joint, q, by simpa using hrest⟩
  · rintro ⟨p, joint, q, rfl⟩
    exact ⟨⟨rest, p, joint, q, rfl⟩, rfl⟩

end

/-! ## Paths -/

/-- Words stand in front, each behind two colons, and as many as there are. -/
inductive HasWords : List String → Tokens → Tokens → Prop where
  | done {rest : Tokens} : (∀ after, ¬ Colons rest after) → HasWords [] rest rest
  | more {w : String} {ws : List String} {ts after rest : Tokens} {p : Source.Place} :
      Colons ts (.word w p :: after) → HasWords ws after rest → HasWords (w :: ws) ts rest

/-- A path stands in front: words with two colons between them. -/
inductive HasPath : Path → Tokens → Tokens → Prop where
  | plain {w : String} {ws : List String} {after rest : Tokens} {p : Source.Place} :
      HasWords ws after rest →
      HasPath (.mk false ((w :: ws).map fun n => .mk n .none)) (.word w p :: after) rest
  | rooted {w : String} {ws : List String} {ts after rest : Tokens} {p : Source.Place} :
      Colons ts (.word w p :: after) → HasWords ws after rest →
      HasPath (.mk true ((w :: ws).map fun n => .mk n .none)) ts rest

lemma hasWords_iff {ws : List String} : HasWords ws ts rest ↔
    (∃ w ws' p after, ws = w :: ws' ∧ Colons ts (.word w p :: after) ∧ HasWords ws' after rest)
      ∨ ws = [] ∧ ts = rest ∧ ∀ after, ¬ Colons ts after := by
  constructor
  · rintro (hnone | ⟨hcolons, h⟩)
    · exact .inr ⟨rfl, rfl, hnone⟩
    · exact .inl ⟨_, _, _, _, rfl, hcolons, h⟩
  · rintro (⟨w, ws', p, after, rfl, hcolons, h⟩ | ⟨rfl, rfl, hnone⟩)
    · exact .more hcolons h
    · exact .done hnone

lemma Colons.length_lt (h : Colons ts rest) : rest.length < ts.length := by
  obtain ⟨p, joint, q, rfl⟩ := h
  simp only [List.length_cons]
  omega

lemma not_ahead_colons_iff : Ahead.mark "::" ts = false ↔ ∀ after, ¬ Colons ts after := by
  rw [← Bool.not_eq_true, ahead_colons_iff, not_exists]

lemma whileFuel_eq_some_iff {n : Nat} {ws : List String} (hn : ts.length < n) :
    whileFuel (.mark "::") (do mark "::"; anyWord) n ts = some (ws, rest)
      ↔ HasWords ws ts rest := by
  induction n generalizing ts ws with
  | zero => exact absurd hn (Nat.not_lt_zero _)
  | succ n ih =>
      rw [whileFuel, ahead_eq_some_iff, hasWords_iff, not_ahead_colons_iff]
      simp only [bind_eq_some_iff, pure_eq_some_iff, mark_colons_eq_some_iff, anyWord_eq_some_iff]
      refine or_congr ⟨?_, ?_⟩ ?_
      · rintro ⟨-, w, after, ⟨_, _, hcolons, p, rfl⟩, ws', _, hws, rfl, rfl⟩
        have hlength := hcolons.length_lt
        rw [List.length_cons] at hlength
        exact ⟨w, ws', p, after, rfl, hcolons, (ih (by omega)).1 hws⟩
      · rintro ⟨w, ws', p, after, rfl, hcolons, hws⟩
        have hlength := hcolons.length_lt
        rw [List.length_cons] at hlength
        exact ⟨ahead_colons_iff.2 ⟨_, hcolons⟩, w, after, ⟨(), _, hcolons, p, rfl⟩, ws', rest,
          (ih (by omega)).2 hws, rfl, rfl⟩
      · rw [eq_comm (a := ws), and_comm, and_assoc]

lemma optionalMark_colons_eq_some_iff {found : Bool} :
    optionalMark "::" ts = some (found, rest)
      ↔ found = true ∧ Colons ts rest ∨ found = false ∧ ts = rest ∧ ∀ after, ¬ Colons ts after := by
  rw [optionalMark, ahead_eq_some_iff, not_ahead_colons_iff]
  simp only [bind_eq_some_iff, pure_eq_some_iff, mark_colons_eq_some_iff]
  constructor
  · rintro (⟨-, _, _, hcolons, rfl, rfl⟩ | ⟨hnone, rfl, rfl⟩)
    · exact .inl ⟨rfl, hcolons⟩
    · exact .inr ⟨rfl, rfl, hnone⟩
  · rintro (⟨rfl, hcolons⟩ | ⟨rfl, rfl, hnone⟩)
    · exact .inl ⟨ahead_colons_iff.2 ⟨_, hcolons⟩, (), _, hcolons, rfl, rfl⟩
    · exact .inr ⟨hnone, rfl, rfl⟩

lemma path_eq_some_iff {q : Path} : path ts = some (q, rest) ↔ HasPath q ts rest := by
  simp only [path, bind_eq_some_iff, pure_eq_some_iff, optionalMark_colons_eq_some_iff,
    anyWord_eq_some_iff, repeatWhile]
  constructor
  · rintro ⟨isRooted, after, hrooted, w, _, ⟨p, rfl⟩, ws, _, hws, rfl, rfl⟩
    have hwords := (whileFuel_eq_some_iff (Nat.lt_succ_self _)).1 hws
    rcases hrooted with ⟨rfl, hcolons⟩ | ⟨rfl, rfl, -⟩
    · exact .rooted hcolons hwords
    · exact .plain hwords
  · rintro (hwords | ⟨hcolons, hwords⟩)
    · refine ⟨false, _, .inr ⟨rfl, rfl, ?_⟩, _, _, ⟨_, rfl⟩, _, _,
        (whileFuel_eq_some_iff (Nat.lt_succ_self _)).2 hwords, rfl, rfl⟩
      rintro after ⟨p, joint, q, h⟩
      exact absurd (List.cons.inj h).1 (by simp)
    · exact ⟨true, _, .inl ⟨rfl, hcolons⟩, _, _, ⟨_, rfl⟩, _, _,
        (whileFuel_eq_some_iff (Nat.lt_succ_self _)).2 hwords, rfl, rfl⟩

/-! ## Entries -/

/-- A value stands behind an equals sign. -/
inductive HasValue (g : Grammar) : Tokens → Tokens → Prop where
  | intro {ts after rest : Tokens} {e : Phrase} :
      Mark '=' ts after → g.expression true after = some (e, rest) → HasValue g ts rest

lemma HasValue.exists_mark (h : HasValue g ts rest) : ∃ after, Mark '=' ts after := by
  obtain ⟨hmark, -⟩ := h
  exact ⟨_, hmark⟩

/-- An entry of another entry stands in front: a path, alone or with a value. -/
inductive HasInner (g : Grammar) : Tokens → Tokens → Prop where
  | alone {q : Path} {ts rest : Tokens} :
      HasPath q ts rest → (∀ after, ¬ Mark '=' rest after) → HasInner g ts rest
  | value {q : Path} {ts after rest : Tokens} :
      HasPath q ts after → HasValue g after rest → HasInner g ts rest

/-- The tokens are entries with commas between them.  One may stand behind the last. -/
inductive AreInner (g : Grammar) : Tokens → Prop where
  | none : AreInner g []
  | last {ts : Tokens} : HasInner g ts [] → AreInner g ts
  | more {ts after rest : Tokens} :
      HasInner g ts after → Mark ',' after rest → AreInner g rest → AreInner g ts

/-- The path of the entry that sets the name. -/
def renamePath : Path := .mk false [.mk "rename" .none]

/-- An entry stands in front.  The name is the one that it gives, if it does. -/
inductive HasEntry (g : Grammar) : Tokens → Option String → Tokens → Prop where
  | rename {ts after rest : Tokens} {literal name : String} {p : Source.Place} :
      HasPath renamePath ts after → Mark '=' after (.literal literal p :: rest) →
      Literal.stringValue? literal = some name → HasEntry g ts (some name) rest
  | value {q : Path} {ts after rest : Tokens} :
      HasPath q ts after → q ≠ renamePath → HasValue g after rest → HasEntry g ts none rest
  | group {q : Path} {ts inner rest : Tokens} {p : Source.Place} :
      HasPath q ts (.group .parenthesis inner p :: rest) → inner ≠ [] → AreInner g inner →
      HasEntry g ts none rest
  | alone {q : Path} {ts rest : Tokens} :
      HasPath q ts rest → (∀ after, ¬ Mark '=' rest after) →
      (∀ inner p after, rest ≠ .group .parenthesis inner p :: after) → HasEntry g ts none rest

/-- The names that entries give, in order, up to where reading ends. -/
inductive HasNames (g : Grammar) : Tokens → List String → Prop where
  | malformed {ts : Tokens} : (∀ found rest, ¬ HasEntry g ts found rest) → HasNames g ts []
  | last {ts rest : Tokens} {found : Option String} :
      HasEntry g ts found rest → (∀ after, Mark ',' rest after → after = []) →
      HasNames g ts found.toList
  | more {ts after rest : Tokens} {found : Option String} {names : List String} :
      HasEntry g ts found after → Mark ',' after rest → rest ≠ [] → HasNames g rest names →
      HasNames g ts (found.toList ++ names)

/-- The names that an attribute gives a field: none if it is no `serde` attribute with entries. -/
inductive AttributeNames : Source.Attribute → List String → Prop where
  | entries {a : Source.Attribute} {d : Delimiter} {inner : Tokens} {names : List String} :
      a.path = .mk false [.mk "serde" .none] → a.content = .tokens d inner →
      HasNames (Grammar.forTokens inner) inner names → AttributeNames a names
  | other {a : Source.Attribute} :
      (a.path = .mk false [.mk "serde" .none] → ∀ d inner, a.content ≠ .tokens d inner) →
      AttributeNames a []

/-- The name that attributes give a field: the last one of all. -/
def GivesName (attributes : List Source.Attribute) (name : Option String) : Prop :=
  ∃ names, List.Forall₂ AttributeNames attributes names ∧ name = names.flatten.getLast?

/-! ## What is taken -/

lemma Mark.length_lt {c : Char} (h : Mark c ts rest) : rest.length < ts.length := by
  obtain ⟨joint, p, rfl⟩ := h
  exact Nat.lt_succ_self _

lemma HasWords.length_le {ws : List String} (h : HasWords ws ts rest) :
    rest.length ≤ ts.length := by
  induction h with
  | done => exact le_rfl
  | more hcolons _ ih =>
      have hlength := hcolons.length_lt
      rw [List.length_cons] at hlength
      omega

lemma HasPath.length_lt {q : Path} (h : HasPath q ts rest) : rest.length < ts.length := by
  cases h with
  | plain h => exact Nat.lt_succ_of_le h.length_le
  | rooted hcolons h =>
      have hlength := hcolons.length_lt
      have hwords := h.length_le
      rw [List.length_cons] at hlength
      omega

section

variable [g.TakesFront]

lemma HasValue.length_lt (h : HasValue g ts rest) : rest.length < ts.length := by
  obtain ⟨hmark, he⟩ := h
  exact (TakesFront.suffix he).length_le.trans_lt hmark.length_lt

lemma HasInner.length_lt (h : HasInner g ts rest) : rest.length < ts.length := by
  cases h with
  | alone hpath => exact hpath.length_lt
  | value hpath hvalue => exact hvalue.length_lt.trans hpath.length_lt

lemma HasEntry.length_lt {found : Option String} (h : HasEntry g ts found rest) :
    rest.length < ts.length := by
  cases h with
  | rename hpath hmark =>
      have hlength := hmark.length_lt
      rw [List.length_cons] at hlength
      exact (Nat.lt_of_succ_lt hlength).trans hpath.length_lt
  | value hpath _ hvalue => exact hvalue.length_lt.trans hpath.length_lt
  | group hpath => exact Nat.lt_of_succ_lt hpath.length_lt
  | alone hpath => exact hpath.length_lt

end

/-! ## Parsers and rules -/

lemma isName_iff {q : Path} {n : String} : q.isName n = true ↔ q = .mk false [.mk n .none] := by
  rcases q with ⟨_ | _, _ | ⟨⟨m, _ | _ | _⟩, _ | _⟩⟩ <;> simp [Path.isName, Arguments.isNone]

lemma mark_equals_eq_some_iff {u : Unit} : mark "=" ts = some (u, rest) ↔ Mark '=' ts rest :=
  mark_eq_some_iff rfl

lemma ahead_equals_iff : Ahead.mark "=" ts = true ↔ ∃ rest, Mark '=' ts rest :=
  ahead_mark_iff rfl

lemma not_ahead_equals_iff : Ahead.mark "=" ts = false ↔ ∀ after, ¬ Mark '=' ts after := by
  rw [← Bool.not_eq_true, ahead_equals_iff, not_exists]

lemma value_eq_some_iff {u : Unit} : value g ts = some (u, rest) ↔ HasValue g ts rest := by
  rw [value, bind_eq_some_iff]
  simp only [bind_eq_some_iff, pure_eq_some_iff, mark_equals_eq_some_iff]
  constructor
  · rintro ⟨_, after, hmark, e, _, he, -, rfl⟩
    exact ⟨hmark, he⟩
  · rintro ⟨hmark, he⟩
    exact ⟨(), _, hmark, _, _, he, trivial, rfl⟩

lemma innerEntry_eq_some_iff {u : Unit} :
    innerEntry g ts = some (u, rest) ↔ HasInner g ts rest := by
  rw [innerEntry, bind_eq_some_iff]
  simp only [ahead_eq_some_iff, pure_eq_some_iff, path_eq_some_iff, value_eq_some_iff,
    not_ahead_equals_iff]
  constructor
  · rintro ⟨q, after, hpath, ⟨-, hvalue⟩ | ⟨hnone, -, rfl⟩⟩
    · exact .value hpath hvalue
    · exact .alone hpath hnone
  · rintro (⟨hpath, hnone⟩ | ⟨hpath, hvalue⟩)
    · exact ⟨_, _, hpath, .inr ⟨hnone, trivial, rfl⟩⟩
    · exact ⟨_, _, hpath, .inl ⟨ahead_equals_iff.2 hvalue.exists_mark, hvalue⟩⟩

lemma nothing_iff : Ahead.nothing ts = true ↔ ts = [] := List.isEmpty_iff

lemma not_nothing_iff : Ahead.nothing ts = false ↔ ts ≠ [] := by
  rw [← Bool.not_eq_true, nothing_iff, Ne]

lemma separatedFuel_iff [g.TakesFront] {n : Nat} (hn : ts.length < n) :
    (∃ found, separatedFuel .nothing (mark ",") (innerEntry g) n ts = some (found, []))
      ↔ AreInner g ts := by
  induction n generalizing ts with
  | zero => exact absurd hn (Nat.not_lt_zero _)
  | succ n ih =>
      constructor
      · rintro ⟨found, h⟩
        rcases ahead_eq_some_iff.1 h with ⟨hnothing, -⟩ | ⟨-, h⟩
        · rw [nothing_iff.1 hnothing]
          exact .none
        obtain ⟨_, after, hinner, h⟩ := bind_eq_some_iff.1 h
        rw [innerEntry_eq_some_iff] at hinner
        rcases ahead_eq_some_iff.1 h with ⟨hnothing, -⟩ | ⟨-, h⟩
        · rw [nothing_iff.1 hnothing] at hinner
          exact .last hinner
        obtain ⟨_, rest, hmark, h⟩ := bind_eq_some_iff.1 h
        obtain ⟨⟨xs, trailing⟩, _, hxs, h⟩ := bind_eq_some_iff.1 h
        obtain ⟨-, rfl⟩ := pure_eq_some h
        rw [mark_eq_some_iff rfl] at hmark
        have hlength := hmark.length_lt.trans hinner.length_lt
        exact .more hinner hmark ((ih (by omega)).1 ⟨_, hxs⟩)
      · intro h
        rw [separatedFuel]
        cases h with
        | none => exact ⟨_, ahead_eq_some_iff.2 (.inl ⟨rfl, rfl⟩)⟩
        | last hinner =>
            have hne : ts ≠ [] := List.ne_nil_of_length_pos hinner.length_lt
            exact ⟨_, ahead_eq_some_iff.2 (.inr ⟨not_nothing_iff.2 hne, bind_eq_some_iff.2
              ⟨(), _, innerEntry_eq_some_iff.2 hinner, ahead_eq_some_iff.2 (.inl ⟨rfl, rfl⟩)⟩⟩)⟩
        | more hinner hmark hrest =>
            have hlength := hmark.length_lt.trans hinner.length_lt
            have hne : ts ≠ [] := List.ne_nil_of_length_pos (by omega)
            have hafter := List.ne_nil_of_length_pos (Nat.zero_lt_of_lt hmark.length_lt)
            obtain ⟨⟨xs, trailing⟩, hxs⟩ := (ih (by omega)).2 hrest
            refine ⟨_, ahead_eq_some_iff.2 (.inr ⟨not_nothing_iff.2 hne, bind_eq_some_iff.2
              ⟨(), _, innerEntry_eq_some_iff.2 hinner, ahead_eq_some_iff.2 (.inr
                ⟨not_nothing_iff.2 hafter, bind_eq_some_iff.2 ⟨(), _,
                  (mark_eq_some_iff rfl).2 hmark, bind_eq_some_iff.2 ⟨_, _, hxs, rfl⟩⟩⟩)⟩⟩)⟩

lemma innerEntries_eq_some_iff [g.TakesFront] {u : Unit} :
    innerEntries g ts = some (u, []) ↔ ts ≠ [] ∧ AreInner g ts := by
  rw [← separatedFuel_iff (Nat.lt_succ_self ts.length), innerEntries, bind_eq_some_iff]
  constructor
  · rintro ⟨_, ts', hexpect, h⟩
    obtain ⟨found, _, hfound, h⟩ := bind_eq_some_iff.1 h
    obtain ⟨-, rfl⟩ := pure_eq_some h
    obtain ⟨hne, hts⟩ := Option.ite_none_right_eq_some.1 hexpect
    obtain ⟨-, rfl⟩ := Prod.mk.inj (Option.some.inj hts)
    exact ⟨by simpa [Ahead.notNext, Ahead.nothing] using hne, found, hfound⟩
  · rintro ⟨hne, found, hfound⟩
    have hexpect : expect (.notNext .nothing) ts = some ((), ts) :=
      if_pos (by simpa [Ahead.notNext, Ahead.nothing] using hne)
    exact ⟨(), ts, hexpect, bind_eq_some_iff.2 ⟨found, [], hfound, rfl⟩⟩

lemma string_of_stringValue? {literal name : String} (h : Literal.stringValue? literal = some name)
    (p : Source.Place) : string (.literal literal p :: rest) = some (literal, rest) := by
  have hstring : Ahead.string (.literal literal p :: rest) = true := by
    rw [Literal.stringValue?] at h
    rw [Ahead.string]
    split at h
    all_goals simp_all
  exact if_pos hstring

lemma string_eq_some {literal : String} (h : string ts = some (literal, rest)) :
    ∃ p, ts = .literal literal p :: rest := by
  unfold string at h
  split at h
  · rename_i p _
    obtain ⟨-, heq⟩ := Option.ite_none_right_eq_some.1 h
    obtain ⟨rfl, rfl⟩ := Prod.mk.inj (Option.some.inj heq)
    exact ⟨p, rfl⟩
  · exact absurd h (by simp)

/-- A name is set behind a path. -/
lemma renamed_eq_some_iff {found : Option String} : (do
      mark "="
      match Literal.stringValue? (← string) with
      | some name => pure (some name)
      | none => failure : Parser (Option String)) ts = some (found, rest)
    ↔ ∃ literal p name, Mark '=' ts (.literal literal p :: rest)
      ∧ Literal.stringValue? literal = some name ∧ found = some name := by
  simp only [bind_eq_some_iff, mark_equals_eq_some_iff]
  constructor
  · rintro ⟨_, after, hmark, literal, rest', hstring, h⟩
    obtain ⟨p, rfl⟩ := string_eq_some hstring
    cases hname : Literal.stringValue? literal with
    | none =>
        rw [hname] at h
        exact absurd h (by simp [failure, StateT.failure])
    | some name =>
        rw [hname] at h
        obtain ⟨rfl, rfl⟩ := pure_eq_some h
        exact ⟨literal, p, name, hmark, hname, rfl⟩
  · rintro ⟨literal, p, name, hmark, hname, rfl⟩
    exact ⟨(), _, hmark, literal, rest, string_of_stringValue? hname p, by rw [hname]; rfl⟩

lemma ahead_group_iff :
    Ahead.group .parenthesis ts = true
      ↔ ∃ inner p rest, ts = .group .parenthesis inner p :: rest := by
  rcases ts with _ | ⟨_ | _ | _ | ⟨_ | _ | _, inner, p⟩, ts⟩ <;> simp [Ahead.group]

/-- Behind a path that sets no name. -/
lemma entry_apply {q : Path} {after : Tokens} (hpath : HasPath q ts after)
    (hrename : (q.isName "rename" && Ahead.mark "=" after) = false) :
    entry g ts = (do
      if ← ahead (.mark "=") then value g; pure none
      else if ← ahead (.group .parenthesis) then inside .parenthesis (innerEntries g); pure none
      else pure none : Parser (Option String)) after := by
  rw [entry, bind_apply, path_eq_some_iff.2 hpath, Option.bind_some, bind_apply, ahead_apply,
    Option.bind_some, hrename]
  rfl

/-- **An entry is read by the rules.** -/
lemma entry_eq_some_iff [g.TakesFront] {found : Option String} :
    entry g ts = some (found, rest) ↔ HasEntry g ts found rest := by
  constructor
  · intro h
    obtain ⟨q, after, hpath, h⟩ := bind_eq_some_iff.1 h
    rw [path_eq_some_iff] at hpath
    rw [bind_apply, ahead_apply, Option.bind_some] at h
    split at h
    · rename_i hrename
      obtain ⟨hname, -⟩ := Bool.and_eq_true_iff.1 hrename
      obtain ⟨literal, p, name, hmark, hvalue, rfl⟩ := renamed_eq_some_iff.1 h
      rw [isName_iff.1 hname] at hpath
      exact .rename hpath hmark hvalue
    rename_i hrename
    rcases ahead_eq_some_iff.1 h with ⟨hequals, h⟩ | ⟨hequals, h⟩
    · obtain ⟨_, _, hvalue, h⟩ := bind_eq_some_iff.1 h
      obtain ⟨rfl, rfl⟩ := pure_eq_some h
      refine .value hpath (fun hq => hrename ?_) (value_eq_some_iff.1 hvalue)
      rw [isName_iff.2 hq, hequals]
      rfl
    rcases ahead_eq_some_iff.1 h with ⟨-, h⟩ | ⟨hgroup, h⟩
    · obtain ⟨_, _, hinside, h⟩ := bind_eq_some_iff.1 h
      obtain ⟨rfl, rfl⟩ := pure_eq_some h
      obtain ⟨inner, p, rfl, hinner⟩ := inside_eq_some hinside
      obtain ⟨hne, hinner⟩ := innerEntries_eq_some_iff.1 hinner
      exact .group hpath hne hinner
    · obtain ⟨rfl, rfl⟩ := pure_eq_some h
      refine .alone hpath (not_ahead_equals_iff.1 hequals) fun inner p after heq => ?_
      rw [ahead_group_iff.2 ⟨inner, p, after, heq⟩] at hgroup
      exact Bool.false_ne_true hgroup.symm
  · intro h
    cases h with
    | rename hpath hmark hvalue =>
        have hrename : renamePath.isName "rename" = true := isName_iff.2 rfl
        refine bind_eq_some_iff.2 ⟨_, _, path_eq_some_iff.2 hpath, ?_⟩
        rw [bind_apply, ahead_apply, Option.bind_some, hrename, ahead_equals_iff.2 ⟨_, hmark⟩]
        exact renamed_eq_some_iff.2 ⟨_, _, _, hmark, hvalue, rfl⟩
    | value hpath hname hvalue =>
        have hrename := Bool.eq_false_iff.2 fun h => hname (isName_iff.1 h)
        have hmark : Ahead.mark "=" _ = true := ahead_equals_iff.2 hvalue.exists_mark
        rw [entry_apply hpath (by rw [hrename, Bool.false_and]), ahead_pos hmark]
        exact bind_eq_some_iff.2 ⟨(), _, value_eq_some_iff.2 hvalue, rfl⟩
    | group hpath hne hinner =>
        rw [entry_apply hpath (Bool.and_false _), ahead_neg rfl, ahead_pos rfl]
        exact bind_eq_some_iff.2 ⟨(), _, inside_eq_some_iff.2
          ⟨_, _, rfl, innerEntries_eq_some_iff.2 ⟨hne, hinner⟩⟩, rfl⟩
    | alone hpath hmark hgroup =>
        have hnone := not_ahead_equals_iff.2 hmark
        have hnext : Ahead.group .parenthesis rest = false := Bool.eq_false_iff.2 fun h => by
          obtain ⟨inner, p, after, heq⟩ := ahead_group_iff.1 h
          exact hgroup inner p after heq
        rw [entry_apply hpath (by rw [hnone, Bool.and_false]), ahead_neg hnone, ahead_neg hnext]
        rfl

/-! ## Names -/

/-- The rules give names for all tokens. -/
lemma exists_hasNames [g.TakesFront] (ts : Tokens) : ∃ names, HasNames g ts names := by
  by_cases hentry : ∃ found rest, HasEntry g ts found rest
  · obtain ⟨found, after, hentry⟩ := hentry
    by_cases hmore : ∃ rest, Mark ',' after rest ∧ rest ≠ []
    · obtain ⟨rest, hmark, hne⟩ := hmore
      have hlength := hmark.length_lt.trans hentry.length_lt
      obtain ⟨names, hnames⟩ := exists_hasNames rest
      exact ⟨_, .more hentry hmark hne hnames⟩
    · exact ⟨_, .last hentry fun rest hmark => by_contra fun hne => hmore ⟨rest, hmark, hne⟩⟩
  · exact ⟨[], .malformed fun found rest h => hentry ⟨found, rest, h⟩⟩
termination_by ts.length

/-- **The names of entries are read by the rules**, and the last one is kept. -/
lemma HasNames.readFuel_eq [g.TakesFront] {names : List String} (h : HasNames g ts names) :
    ∀ {n : Nat} (name : Option String), ts.length < n →
      readFuel g name n ts = (names.getLast?).or name := by
  induction h with
  | malformed hnone =>
      intro n name hn
      obtain ⟨n, rfl⟩ := Nat.exists_eq_add_one_of_ne_zero (Nat.ne_zero_of_lt hn)
      rw [readFuel]
      split
      · rfl
      · rename_i found rest hentry
        exact absurd (entry_eq_some_iff.1 hentry) (hnone found rest)
  | @last ts rest found hentry hlast =>
      intro n name hn
      obtain ⟨n, rfl⟩ := Nat.exists_eq_add_one_of_ne_zero (Nat.ne_zero_of_lt hn)
      have hname : (found.toList.getLast?).or name = (found <|> name) := by cases found <;> rfl
      rw [readFuel, entry_eq_some_iff.2 hentry, hname]
      dsimp only
      split
      · rename_i joint p after
        rw [hlast after ⟨joint, p, rfl⟩]
        rfl
      · rfl
  | @more ts after rest found names hentry hmark hne _ ih =>
      intro n name hn
      obtain ⟨n, rfl⟩ := Nat.exists_eq_add_one_of_ne_zero (Nat.ne_zero_of_lt hn)
      have hlength := hmark.length_lt.trans hentry.length_lt
      have hname : ((found.toList ++ names).getLast?).or name
          = (names.getLast?).or (found <|> name) := by
        rw [List.getLast?_append, Option.or_assoc]
        cases found <;> rfl
      have hempty : ¬ rest.isEmpty = true := mt List.isEmpty_iff.1 hne
      obtain ⟨joint, p, rfl⟩ := hmark
      rw [readFuel, entry_eq_some_iff.2 hentry, hname, ← ih (n := n) _ (by omega)]
      exact if_neg hempty

instance (ts : Tokens) : (Grammar.forTokens ts).TakesFront := Grammar.takesFront_atDepth _

lemma AttributeNames.afterAttribute_eq {a : Source.Attribute} {names : List String}
    (h : AttributeNames a names) (name : Option String) :
    afterAttribute name a = (names.getLast?).or name := by
  cases h with
  | entries hpath hcontent hnames =>
      rw [afterAttribute, hcontent, isName_iff.2 hpath]
      exact hnames.readFuel_eq name (Nat.lt_succ_self _)
  | other hother =>
      rw [afterAttribute]
      split
      · rename_i d inner hcontent
        rw [if_neg fun hpath => hother (isName_iff.1 hpath) d inner hcontent]
        rfl
      · rfl

lemma exists_attributeNames (a : Source.Attribute) : ∃ names, AttributeNames a names := by
  by_cases h : a.path = .mk false [.mk "serde" .none] ∧ ∃ d inner, a.content = .tokens d inner
  · obtain ⟨hpath, d, inner, hcontent⟩ := h
    obtain ⟨names, hnames⟩ := exists_hasNames (g := Grammar.forTokens inner) inner
    exact ⟨names, .entries hpath hcontent hnames⟩
  · exact ⟨[], .other fun hpath d inner hcontent => h ⟨hpath, d, inner, hcontent⟩⟩

lemma foldl_afterAttribute {attributes : List Source.Attribute} {names : List (List String)}
    (h : List.Forall₂ AttributeNames attributes names) : ∀ name : Option String,
    attributes.foldl afterAttribute name = (names.flatten.getLast?).or name := by
  induction h with
  | nil => exact fun _ => rfl
  | cons ha _ ih =>
      intro name
      rw [List.foldl_cons, ih, ha.afterAttribute_eq, List.flatten_cons, List.getLast?_append,
        Option.or_assoc]

/-- **The name of a field is read by the rules.** -/
theorem givesName_iff {attributes : List Source.Attribute} {name : Option String} :
    GivesName attributes name ↔ ofAttributes? attributes = name := by
  constructor
  · rintro ⟨names, hnames, rfl⟩
    rw [ofAttributes?, foldl_afterAttribute hnames, Option.or_none]
  · rintro rfl
    choose names hnames using exists_attributeNames
    have h : List.Forall₂ AttributeNames attributes (attributes.map names) := by
      rw [List.forall₂_map_right_iff, List.forall₂_same]
      exact fun a _ => hnames a
    exact ⟨_, h, by rw [ofAttributes?, foldl_afterAttribute h, Option.or_none]⟩

end SerializedName

end FieldCopy
