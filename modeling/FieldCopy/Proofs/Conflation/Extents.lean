import Mathlib

/-!
# Where a text ends inside another

The text of a type or of an argument stands inside brackets, with commas between arguments.  It can
be told where such a text ends if the brackets inside it are closed.

**Nesting.**  A scan counts the brackets that are open (`Nesting`).  Angle brackets count where no
others are open, unless they are part of an arrow, and no bracket counts inside a literal.  A mark
that belongs to what stands around the text ends the scan (`Nesting.step`).

**Main statement.**  `Extent.eq_of_append`: of two closed texts with a mark of the surroundings
behind them, neither goes on where the other ends.
-/

namespace FieldCopy

/-- What a character is read after. -/
inductive Nesting.Reading where
  | plain
  /-- A dash, which can begin an arrow. -/
  | dash
  /-- An apostrophe, which begins a lifetime or a character literal. -/
  | apostrophe
  /-- One character behind an apostrophe: a literal ends if there is another apostrophe. -/
  | letter
  /-- An apostrophe and a backslash. -/
  | escape
  /-- More of a character literal that is escaped. -/
  | escaped
  /-- The inside of a string literal. -/
  | text
  /-- A backslash inside a string literal. -/
  | textEscape
  deriving DecidableEq

/-- How deep a place in a text is nested. -/
structure Nesting where
  /-- The number of open parentheses, square brackets and braces. -/
  groups : Nat
  /-- The number of angle brackets that were opened outside of them. -/
  angles : Nat
  reading : Nesting.Reading

/-- What a text is inside of. -/
inductive Extent where
  /-- Angle brackets with commas, or anything that a type can stand in. -/
  | argument
  /-- The end of a square bracket. -/
  | length
  deriving DecidableEq

namespace Nesting

/-- What the next character is read after, if this one is no bracket. -/
def readingAfter (c : Char) : Reading :=
  if c = '-' then .dash else if c = '\'' then .apostrophe else if c = '"' then .text else .plain

/-- The nesting behind a character outside of literals, unless that belongs to the surroundings. -/
def stepOutside (extent : Extent) (n : Nesting) (c : Char) : Option Nesting :=
  if ['(', '[', '{'].contains c then some ⟨n.groups + 1, n.angles, .plain⟩
  else if [')', ']', '}'].contains c then
    if n.groups = 0 then none else some ⟨n.groups - 1, n.angles, .plain⟩
  else if n.groups ≠ 0 ∨ extent = .length then some ⟨n.groups, n.angles, readingAfter c⟩
  else if c = '<' then some ⟨0, n.angles + 1, .plain⟩
  else if c = '>' then
    if n.reading = .dash then some ⟨0, n.angles, .plain⟩
    else if n.angles = 0 then none else some ⟨0, n.angles - 1, .plain⟩
  else if [',', ';'].contains c ∧ n.angles = 0 then none
  else some ⟨0, n.angles, readingAfter c⟩

/-- The nesting behind one more character, unless that belongs to the surroundings. -/
def step (extent : Extent) (n : Nesting) (c : Char) : Option Nesting :=
  match n.reading with
  | .plain | .dash => n.stepOutside extent c
  | .apostrophe => some { n with reading := if c = '\\' then .escape else .letter }
  | .letter => if c = '\'' then some { n with reading := .plain } else n.stepOutside extent c
  | .escape => some { n with reading := .escaped }
  | .escaped => some { n with reading := if c = '\'' then .plain else .escaped }
  | .text =>
      some { n with
        reading := if c = '"' then .plain else if c = '\\' then .textEscape else .text }
  | .textEscape => some { n with reading := .text }

/-- The nesting behind a text that belongs to one place as a whole. -/
def scan (extent : Extent) : Nesting → List Char → Option Nesting
  | n, [] => some n
  | n, c :: rest => (n.step extent c).bind fun n => scan extent n rest

lemma scan_append (extent : Extent) : ∀ (n : Nesting) (s t : List Char),
    scan extent n (s ++ t) = (scan extent n s).bind fun n => scan extent n t
  | _, [], _ => rfl
  | n, c :: s, t => by
      rw [List.cons_append, scan, scan, Option.bind_assoc]
      congr 1
      funext n
      exact scan_append extent n s t

/-- Nothing is open, and no literal is being read.  A lifetime of one letter may have been. -/
def isClosed (n : Nesting) : Bool :=
  n.groups == 0 && n.angles == 0 && (n.reading = .plain || n.reading = .letter)

end Nesting

namespace Extent

/-- All brackets are closed in a text. -/
def Closes (extent : Extent) (s : List Char) : Prop :=
  (Nesting.scan extent ⟨0, 0, .plain⟩ s).any Nesting.isClosed = true

instance (extent : Extent) (s : List Char) : Decidable (extent.Closes s) :=
  inferInstanceAs (Decidable (_ = true))

/-- The marks behind a text that belong to its surroundings. -/
def ends : Extent → List Char
  | argument => ['>', ',', ';', ']']
  | length => [']']

/-- What stands behind a text: nothing, or a mark of the surroundings. -/
def Follows (extent : Extent) (s : List Char) : Prop := ∀ c ∈ s.head?, c ∈ extent.ends

lemma follows_nil (extent : Extent) : extent.Follows [] := fun _ hc => absurd hc (by simp)

lemma follows_cons {extent : Extent} {c : Char} (h : c ∈ extent.ends) (s : List Char) :
    extent.Follows (c :: s) := fun d hd => by
  obtain rfl : c = d := by simpa using hd
  exact h

/-- A mark of the surroundings ends the scan of a closed text. -/
lemma step_of_mem_ends {extent : Extent} {n : Nesting} (hn : n.isClosed = true) {c : Char}
    (hc : c ∈ extent.ends) : n.step extent c = none := by
  obtain ⟨groups, angles, reading⟩ := n
  simp only [Nesting.isClosed, Bool.and_eq_true, beq_iff_eq, Bool.or_eq_true,
    decide_eq_true_eq] at hn
  obtain ⟨⟨rfl, rfl⟩, hreading⟩ := hn
  cases extent with
  | argument =>
      simp only [ends, List.mem_cons, List.not_mem_nil, or_false] at hc
      rcases hc with rfl | rfl | rfl | rfl <;> rcases hreading with rfl | rfl <;> rfl
  | length =>
      obtain rfl : c = ']' := by simpa [ends] using hc
      rcases hreading with rfl | rfl <;> rfl

/-- A closed text does not go on with a mark of the surroundings behind a closed one. -/
lemma Closes.not_closes_append {extent : Extent} {s : List Char} (hs : extent.Closes s) {c : Char}
    (hc : c ∈ extent.ends) (t : List Char) : ¬ extent.Closes (s ++ c :: t) := by
  rw [Closes, Option.any_eq_true] at hs
  obtain ⟨n, hscan, hn⟩ := hs
  rw [Closes, Nesting.scan_append, hscan, Option.bind_some, Nesting.scan, step_of_mem_ends hn hc]
  exact Bool.false_ne_true

/-- **Where a closed text ends is told by the text.** -/
theorem eq_of_append {extent : Extent} {s t x y : List Char} (hs : extent.Closes s)
    (ht : extent.Closes t) (hx : extent.Follows x) (hy : extent.Follows y)
    (h : s ++ x = t ++ y) : s = t ∧ x = y := by
  rcases List.append_eq_append_iff.1 h with ⟨more, rfl, rfl⟩ | ⟨more, rfl, rfl⟩
  · cases more with
    | nil => simp
    | cons c more => exact absurd ht (hs.not_closes_append (hx c rfl) more)
  · cases more with
    | nil => simp
    | cons c more => exact absurd hs (ht.not_closes_append (hy c rfl) more)

/-- An arrow and a literal close nothing. -/
example : Closes .argument "Table<'<', dyn Fn (&str) -> Vec<u8>>".toList := by decide

end Extent

end FieldCopy
