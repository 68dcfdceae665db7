import Mathlib
import FieldCopy.Proofs.Canonical.Spelling

/-!
# Scanning words and marks

A text begins with some tokens if the scan takes them from its front and goes on behind them
(`Scan.Begins`).  The tokens are compared up to their places (`Token.Shows`).

**Steps.**  A mark is scanned whatever follows it.  A word ends where a space, a mark of a type or a
closing delimiter stands (`Scan.Ends`), since none of them is a part of an identifier; a group is
scanned if its content is (`Scan.begins_group`).

**Main statements.**  `Scan.begins_word`, `Scan.begins_lifetime`: words and lifetimes are scanned to
their ends.
-/

namespace FieldCopy.Source

/-! ## Tokens that show others -/

/-- A token of a text shows another if they are the same but for the place, and joined to the next
one if that asks for it. -/
inductive Token.Shows : Token Place → Lexeme → Prop where
  | word (w : String) (p : Place) : Shows (.word w p) (.word w ())
  | mark (c : Char) {joint joint' : Bool} (p : Place) (h : joint' = true → joint = true) :
      Shows (.mark c joint p) (.mark c joint' ())
  | literal (t : String) (p : Place) : Shows (.literal t p) (.literal t ())
  | group (d : Delimiter) {inner : List (Token Place)} {inner' : List Lexeme} (p : Place)
      (h : List.Forall₂ Shows inner inner') : Shows (.group d inner p) (.group d inner' ())

/-- The tokens of a text are these. -/
abbrev Shown (ts : List (Token Place)) (l : List Lexeme) : Prop := List.Forall₂ Token.Shows ts l

namespace Scan

/-- A text begins with some tokens, and another text is behind them. -/
def Begins (s : List Char) (l : List Lexeme) (rest : List Char) : Prop :=
  ∀ p n, s.length < n → ∃ p' n' ts, rest.length < n' ∧ Shown ts l ∧ ∀ outer level,
    (leavesFuel n p s).bind (Leaf.nestFrom outer level)
      = (leavesFuel n' p' rest).bind (Leaf.nestFrom outer (ts.reverse ++ level))

namespace Begins

lemma refl (s : List Char) : Begins s [] s := fun p n hn => ⟨p, n, [], hn, .nil, fun _ _ => rfl⟩

lemma trans {s s' s'' : List Char} {l l' : List Lexeme} (h : Begins s l s')
    (h' : Begins s' l' s'') : Begins s (l ++ l') s'' := by
  intro p n hn
  obtain ⟨p', n', ts, hn', hts, heq⟩ := h p n hn
  obtain ⟨p'', n'', ts', hn'', hts', heq'⟩ := h' p' n' hn'
  refine ⟨p'', n'', ts ++ ts', hn'', List.rel_append hts hts', fun outer level => ?_⟩
  rw [heq, heq', List.reverse_append, List.append_assoc]

end Begins

/-! ### Steps -/

/-- One step of the scan. -/
lemma bind_leavesFuel {c : Char} {s rest : List Char} {p : Place} {found : List Leaf}
    (comment : afterComment (c :: s) = none) (separator : isSeparator c = false)
    (hstep : step p (c :: s) = some (found, rest)) :
    ∃ p', ∀ n (f : List Leaf → Option (List (Token Place))),
      (leavesFuel (n + 1) p (c :: s)).bind f
        = (leavesFuel n p' rest).bind fun others => f (found ++ others) := by
  refine ⟨p.afterText ((c :: s).take ((c :: s).length - rest.length)), fun n f => ?_⟩
  rw [leavesFuel, comment]
  simp only [separator, Bool.false_eq_true, if_false, hstep, Option.bind_eq_bind,
    Option.bind_some, Option.bind_assoc]

lemma begins_space (s : List Char) : Begins (' ' :: s) [] s := by
  intro p n hn
  obtain ⟨n, rfl⟩ : ∃ m, n = m + 1 := ⟨n - 1, by rw [List.length_cons] at hn; omega⟩
  refine ⟨p.after ' ', n, [], by simpa using hn, .nil, fun outer level => ?_⟩
  rfl

/-- A token that is scanned in one step. -/
lemma begins_token {c : Char} {s rest : List Char} {l : Lexeme}
    (comment : afterComment (c :: s) = none) (separator : isSeparator c = false)
    (shorter : rest.length < (c :: s).length)
    (hstep : ∀ p, ∃ t : Token Place, step p (c :: s) = some ([.token t], rest) ∧ t.Shows l) :
    Begins (c :: s) [l] rest := by
  intro p n hn
  obtain ⟨n, rfl⟩ : ∃ m, n = m + 1 := ⟨n - 1, by omega⟩
  obtain ⟨t, ht, hshows⟩ := hstep p
  obtain ⟨p', heq⟩ := bind_leavesFuel comment separator ht
  exact ⟨p', n, [t], by omega, .cons hshows .nil, fun outer level => heq n _⟩

/-- A group is scanned from its opening delimiter to the closing one. -/
lemma begins_group {d : Delimiter} {s rest : List Char} {inner : List Lexeme} (hd : d ≠ .brace)
    (h : Begins s inner (Token.closingText false d ++ rest)) :
    Begins (Token.openingText d ++ s) [.group d inner ()] rest := by
  intro p n hn
  have hopen : ∀ p, ∃ c, Token.openingText d = [c] ∧ afterComment (c :: s) = none
      ∧ isSeparator c = false ∧ step p (c :: s) = some ([.opening d p], s) := by
    intro p
    cases d
    · exact ⟨'(', rfl, rfl, rfl, rfl⟩
    · exact ⟨'[', rfl, rfl, rfl, rfl⟩
    · exact absurd rfl hd
  have hclose : ∀ p, ∃ c, Token.closingText false d = [c] ∧ afterComment (c :: rest) = none
      ∧ isSeparator c = false ∧ step p (c :: rest) = some ([.closing d], rest) := by
    intro p
    cases d
    · exact ⟨')', rfl, rfl, rfl, rfl⟩
    · exact ⟨']', rfl, rfl, rfl, rfl⟩
    · exact absurd rfl hd
  obtain ⟨c, hc, hcomment, hseparator, hstep⟩ := hopen p
  rw [hc] at hn ⊢
  simp only [List.singleton_append, List.length_cons] at hn ⊢
  obtain ⟨n, rfl⟩ : ∃ m, n = m + 1 := ⟨n - 1, by omega⟩
  obtain ⟨p₁, hfirst⟩ := bind_leavesFuel hcomment hseparator hstep
  obtain ⟨p₂, n₂, ts, hn₂, hts, heq⟩ := h p₁ n (by omega)
  obtain ⟨c', hc', hcomment', hseparator', hstep'⟩ := hclose p₂
  rw [hc'] at hn₂ heq
  obtain ⟨n', rfl⟩ : ∃ m, n₂ = m + 1 := ⟨n₂ - 1, by omega⟩
  obtain ⟨p', hlast⟩ := bind_leavesFuel hcomment' hseparator' hstep'
  refine ⟨p', n', [.group d ts p], by simpa using hn₂, .cons (.group d p hts) .nil,
    fun outer level => ?_⟩
  rw [hfirst]
  refine (heq ((d, p, level) :: outer) []).trans ?_
  rw [List.singleton_append, hlast]
  congr 1
  funext others
  simp [Leaf.nestFrom]

/-! ### Marks -/

/-- The marks in types that mean something on their own. -/
def typeMarks : List Char := ['&', '<', '>', ',', ';', ':']

lemma begins_mark {c : Char} (hc : c ∈ typeMarks) {joint : Bool} {rest : List Char}
    (hjoint : joint = true → startsWithMark rest = true) :
    Begins (c :: rest) [.mark c joint ()] rest := by
  have hscan : afterComment (c :: rest) = none ∧ isSeparator c = false
      ∧ ∀ p, step p (c :: rest) = some ([.token (.mark c (startsWithMark rest) p)], rest) := by
    simp only [typeMarks, List.mem_cons, List.not_mem_nil, or_false] at hc
    rcases hc with rfl | rfl | rfl | rfl | rfl | rfl <;> exact ⟨rfl, rfl, fun _ => rfl⟩
  exact begins_token hscan.1 hscan.2.1 (by simp) fun p => ⟨_, hscan.2.2 p, .mark c p hjoint⟩

/-! ### Words -/

/-- What may stand behind a word or a number so that it ends there. -/
def endMarks : List Char := [' ', '<', '>', ',', ';', ')', ']', ':']

/-- A word or a number in front of this text ends there. -/
def Ends (s : List Char) : Prop := ∀ c ∈ s.head?, c ∈ endMarks

lemma ends_nil : Ends [] := by
  rintro c ⟨⟩

/-- A character is none with which no identifier begins. -/
lemma start_ne {c d : Char} (hc : isIdentifierStart c = true) (hd : isIdentifierStart d = false) :
    c ≠ d := by
  rintro rfl
  rw [hc] at hd
  exact absurd hd (by simp)

lemma not_part_of_mem_endMarks {c : Char} (hc : c ∈ endMarks) : isIdentifierPart c = false := by
  simp only [endMarks, List.mem_cons, List.not_mem_nil, or_false] at hc
  rcases hc with rfl | rfl | rfl | rfl | rfl | rfl | rfl | rfl <;> rfl

lemma documentation?_of_ne {c : Char} (hc : c ≠ '/') (s : List Char) :
    documentation? (c :: s) = none := by
  rw [documentation?]
  all_goals
    intros
    simp_all

lemma afterComment_of_ne {c : Char} (hc : c ≠ '/') (s : List Char) :
    afterComment (c :: s) = none := by
  rw [afterComment]
  all_goals
    intros
    simp_all

/-- A character of an identifier, be it the first or a later one. -/
def isNameChar (c : Char) : Bool := isIdentifierStart c || isIdentifierPart c

lemma isNameChar_of_start {c : Char} (hc : isIdentifierStart c = true) : isNameChar c = true := by
  rw [isNameChar, hc, Bool.true_or]

lemma isNameChar_of_part {c : Char} (hc : isIdentifierPart c = true) : isNameChar c = true := by
  rw [isNameChar, hc, Bool.or_true]

lemma nameChar_ne {c d : Char} (hc : isNameChar c = true) (hd : isNameChar d = false) : c ≠ d := by
  rintro rfl
  rw [hc] at hd
  exact Bool.noConfusion hd

/-- The delimiters of groups. -/
def delimiters : List Char := ['(', '[', '\x7b', ')', ']', '\x7d']

/-- A step at a text that begins with no comment and no delimiter. -/
lemma step_of_not_mem {c : Char} (hc : c ≠ '/') (hd : c ∉ delimiters) (p : Place) (s : List Char) :
    step p (c :: s)
      = match Literal.after (c :: s) with
        | some rest =>
            some ([.token (.literal
              (String.ofList ((c :: s).take ((c :: s).length - rest.length))) p)], rest)
        | none =>
            match mark? (c :: s) with
            | some (c, joint, rest) => some ([.token (.mark c joint p)], rest)
            | none =>
                if literalBeginnings.any fun b => b.isPrefixOf (c :: s) then none
                else (name? (c :: s)).map fun (n, rest) =>
                  ([.token (.word (String.ofList n) p)], rest) := by
  simp only [delimiters, List.mem_cons, List.not_mem_nil, or_false, not_or] at hd
  rewrite [step, documentation?_of_ne hc]
  · rfl
  all_goals
    intros
    simp_all

/-- A text whose front goes on an identifier, up to where a word ends. -/
def EndsLater (s : List Char) : Prop := Ends (s.dropWhile isIdentifierPart)

lemma endsLater_append {t rest : List Char} (ht : ∀ c ∈ t, isIdentifierPart c = true)
    (hrest : Ends rest) :
    EndsLater (t ++ rest) ∧ (t ++ rest).span isIdentifierPart = (t, rest) := by
  have hhead : ∀ c ∈ rest.head?, isIdentifierPart c = false := fun c hc =>
    not_part_of_mem_endMarks (hrest c hc)
  have hdrop : rest.dropWhile isIdentifierPart = rest ∧ rest.takeWhile isIdentifierPart = [] := by
    cases rest with
    | nil => exact ⟨rfl, rfl⟩
    | cons c rest => simp [hhead c rfl]
  have hall : (t ++ rest).dropWhile isIdentifierPart = rest :=
    (List.dropWhile_append_of_pos ht).trans hdrop.1
  have htake : (t ++ rest).takeWhile isIdentifierPart = t := by
    rw [List.takeWhile_append_of_pos ht, hdrop.2, List.append_nil]
  exact ⟨by rw [EndsLater, hall]; exact hrest,
    by rw [List.span_eq_takeWhile_dropWhile, hall, htake]⟩

namespace EndsLater

variable {s : List Char} (h : EndsLater s)

include h

/-- A mark that ends no word is not next. -/
lemma head_ne {d : Char} (hpart : isIdentifierPart d = false) (hend : d ∉ endMarks) :
    ∀ c ∈ s.head?, c ≠ d := by
  rintro c hc rfl
  cases s with
  | nil => exact absurd hc (by simp)
  | cons a s =>
      obtain rfl : a = c := by simpa using hc
      rw [EndsLater, List.dropWhile_cons_of_neg (by simp [hpart])] at h
      exact hend (h a rfl)

lemma tail {c : Char} {t : List Char} (hs : s = c :: t) (hc : isIdentifierPart c = true) :
    EndsLater t := by
  rw [EndsLater, hs, List.dropWhile_cons_of_pos hc] at h
  exact h

/-- No raw literal goes on here. -/
lemma raw (kind : Literal.Quotation) : Literal.raw kind s = none := by
  have hquote := h.head_ne (d := '"') rfl (by decide)
  have hhash := h.head_ne (d := '#') rfl (by decide)
  cases s with
  | nil => rfl
  | cons c s =>
      have hc := hquote c rfl
      have hc' := hhash c rfl
      rw [Literal.raw, List.takeWhile_cons_of_neg (by simpa using hc')]
      simp only [List.length_nil, List.drop_zero]
      split
      · simp_all
      · rfl

end EndsLater

/-- No identifier begins with a digit. -/
lemma isDigit_of_start {c : Char} (hc : isIdentifierStart c = true) : c.isDigit = false := by
  refine Bool.eq_false_iff.2 fun hdigit => ?_
  simp only [isIdentifierStart, Char.isAlpha, Char.isUpper, Char.isLower, Char.isDigit,
    Bool.or_eq_true, Bool.and_eq_true, decide_eq_true_eq, beq_iff_eq, Char.toNat,
    UInt32.le_iff_toNat_le] at hc hdigit
  have hhigh : c.val.toNat ≤ (57 : UInt32).toNat := hdigit.2
  obtain ((⟨h, -⟩ | ⟨h, -⟩) | rfl) | ⟨h, -⟩ := hc
  · exact absurd (h.trans hhigh) (by decide)
  · exact absurd (h.trans hhigh) (by decide)
  · exact absurd hhigh (by decide)
  · exact absurd (h.trans hhigh) (by decide)

lemma decimal_of_start {c : Char} (hc : isIdentifierStart c = true) (s : List Char) :
    Literal.decimal (c :: s) = none := by
  rw [Literal.decimal, isDigit_of_start hc]
  rfl

/-- A letter that is a hexadecimal digit is beyond the decimal ones. -/
lemma not_hexValue_lt {c : Char} (hc : c.isDigit = false) :
    (Literal.isHexDigit c && decide (CharSet.hexValue c < 10)) = false := by
  refine Bool.eq_false_iff.2 fun hhex => ?_
  obtain ⟨hhex, hvalue⟩ := Bool.and_eq_true_iff.1 hhex
  rw [Literal.isHexDigit, hc, Bool.false_or] at hhex
  have hnot : ¬ ('0' ≤ c ∧ c ≤ '9') := fun h => by
    have hdigit : c.isDigit = true :=
      Bool.and_eq_true_iff.2 ⟨decide_eq_true h.1, decide_eq_true h.2⟩
    rw [hdigit] at hc
    exact Bool.noConfusion hc
  rw [decide_eq_true_eq, CharSet.hexValue, if_neg hnot] at hvalue
  split_ifs at hvalue
  all_goals simp_all

lemma whole_of_start {c : Char} (hc : isIdentifierStart c = true) (s : List Char) :
    Literal.whole (c :: s) = none := by
  have hzero := start_ne hc (d := '0') rfl
  have hdigits : Literal.wholeDigits 10 true (c :: s) = none := by
    rw [Literal.wholeDigits, isDigit_of_start hc, not_hexValue_lt (isDigit_of_start hc)]
    simp
  rw [Literal.whole]
  · rw [hdigits]
    rfl
  all_goals
    intros
    simp_all

lemma anyQuoted_of_start {c : Char} {s : List Char} (hc : isIdentifierStart c = true)
    (hs : EndsLater s) : Literal.anyQuoted (c :: s) = none := by
  have hquote := hs.head_ne (d := '"') rfl (by decide)
  have happly := hs.head_ne (d := '\'') rfl (by decide)
  have hc₁ := start_ne hc (d := '"') rfl
  have hc₂ := start_ne hc (d := '\'') rfl
  unfold Literal.anyQuoted
  split
  case h_2 rest heq => exact (List.cons.inj heq).2 ▸ hs.raw _
  case h_4 rest heq => exact (hs.tail (List.cons.inj heq).2 rfl).raw _
  case h_7 rest heq => exact (hs.tail (List.cons.inj heq).2 rfl).raw _
  all_goals simp_all

/-- A raw word is no raw literal. -/
lemma anyQuoted_raw {c : Char} (hc : isIdentifierStart c = true) (s : List Char) :
    Literal.anyQuoted ('r' :: '#' :: c :: s) = none := by
  have hquote := start_ne hc (d := '"') rfl
  have hhash := start_ne hc (d := '#') rfl
  rw [Literal.anyQuoted, Literal.raw, List.takeWhile_cons_of_pos (by simp),
    List.takeWhile_cons_of_neg (by simpa using hhash)]
  simp only [List.length_cons, List.length_nil, Nat.zero_add, List.drop_succ_cons, List.drop_zero]
  split
  · simp_all
  · rfl

lemma after_of_start {c : Char} {s : List Char} (hc : isIdentifierStart c = true)
    (hs : EndsLater s) : Literal.after (c :: s) = none := by
  rw [Literal.after, anyQuoted_of_start hc hs, decimal_of_start hc, whole_of_start hc]
  rfl

lemma literalBeginnings_eq : literalBeginnings = [['r', '"'], ['r', '#', '"'], ['r', '#', '#'],
    ['b', '"'], ['b', '\''], ['b', 'r', '"'], ['b', 'r', '#'], ['c', '"'], ['c', 'r', '"'],
    ['c', 'r', '#']] := rfl

/-- A name does not begin like a literal. -/
lemma literalBeginnings_of_start {c : Char} {s : List Char} (hs : EndsLater s) :
    (literalBeginnings.any fun b => b.isPrefixOf (c :: s)) = false := by
  have hquote := hs.head_ne (d := '"') rfl (by decide)
  have happly := hs.head_ne (d := '\'') rfl (by decide)
  have hhash := hs.head_ne (d := '#') rfl (by decide)
  rcases s with _ | ⟨d, s⟩
  · simp [literalBeginnings_eq, List.isPrefixOf]
  · have hd : d ≠ '"' ∧ d ≠ '\'' ∧ d ≠ '#' := ⟨hquote d rfl, happly d rfl, hhash d rfl⟩
    by_cases hr : d = 'r'
    · have htail := hs.tail (congrArg (· :: s) hr) rfl
      have hquote' := htail.head_ne (d := '"') rfl (by decide)
      have hhash' := htail.head_ne (d := '#') rfl (by decide)
      rcases s with _ | ⟨e, s⟩
      · simp [literalBeginnings_eq, List.isPrefixOf, hr]
      · have he : e ≠ '"' ∧ e ≠ '#' := ⟨hquote' e rfl, hhash' e rfl⟩
        simp [literalBeginnings_eq, List.isPrefixOf, hr, he.1.symm, he.2.symm]
    · simp [literalBeginnings_eq, List.isPrefixOf, hd.1.symm, hd.2.1.symm, hd.2.2.symm, Ne.symm hr]

lemma mark?_of_start {c : Char} (hc : isIdentifierStart c = true) (s : List Char) :
    mark? (c :: s) = none := by
  have hall : (markCharacters.all fun d => !isIdentifierStart d) = true := rfl
  have hmark : startsWithMark (c :: s) = false := by
    have hslash := start_ne hc (d := '/') rfl
    rw [startsWithMark]
    · refine Bool.eq_false_iff.2 fun hmem => ?_
      have hnot := List.all_eq_true.1 hall c (List.contains_iff_mem.1 hmem)
      rw [hc] at hnot
      exact Bool.noConfusion hnot
    all_goals
      intros
      simp_all
  unfold mark?
  rw [if_neg (by rw [hmark]; exact Bool.false_ne_true)]

/-- How a word is scanned, if it begins like one. -/
lemma step_of_start {c : Char} {s n rest : List Char} (hc : isIdentifierStart c = true)
    (hafter : Literal.after (c :: s) = none)
    (hbeginnings : (literalBeginnings.any fun b => b.isPrefixOf (c :: s)) = false)
    (hname : name? (c :: s) = some (n, rest)) (p : Place) :
    step p (c :: s) = some ([.token (.word (String.ofList n) p)], rest) := by
  have hall : (delimiters.all fun d => !isIdentifierStart d) = true := rfl
  have hdelimiter : c ∉ delimiters := fun hmem => by
    have hnot := List.all_eq_true.1 hall c hmem
    rw [hc] at hnot
    exact Bool.noConfusion hnot
  rw [step_of_not_mem (start_ne hc rfl) hdelimiter, hafter, mark?_of_start hc, hbeginnings, hname]
  rfl

lemma identifier?_eq_some {s n : List Char} (h : identifier? s = some (n, [])) :
    n = s ∧ ∃ c t, s = c :: t ∧ isIdentifierStart c = true
      ∧ ∀ d ∈ t, isIdentifierPart d = true := by
  cases s with
  | nil => exact absurd h (by simp [identifier?])
  | cons c t =>
      cases hc : isIdentifierStart c with
      | false => exact absurd h (by simp [identifier?, hc])
      | true =>
          simp only [identifier?, hc, if_true, List.span_eq_takeWhile_dropWhile, Option.some.injEq,
            Prod.mk.injEq] at h
          have hparts := List.dropWhile_eq_nil_iff.1 h.2
          rw [List.takeWhile_eq_self_iff.2 hparts] at h
          exact ⟨h.1.symm, c, t, rfl, hc, hparts⟩

lemma identifier?_append {c : Char} {t rest : List Char} (hc : isIdentifierStart c = true)
    (ht : ∀ d ∈ t, isIdentifierPart d = true) (hrest : Ends rest) :
    identifier? (c :: (t ++ rest)) = some (c :: t, rest) := by
  simp only [identifier?, hc, if_true, (endsLater_append ht hrest).2]

/-- A word is an identifier, or a raw one. -/
lemma word_cases {w : String} (hw : IsWord w) :
    (∃ c t, w.toList = c :: t ∧ isIdentifierStart c = true ∧ ∀ d ∈ t, isIdentifierPart d = true)
      ∨ ∃ c t, w.toList = 'r' :: '#' :: c :: t ∧ isIdentifierStart c = true
        ∧ (∀ d ∈ t, isIdentifierPart d = true) ∧ neverRaw.contains (c :: t) = false := by
  have hname := hw.name
  rw [name?.eq_def] at hname
  split at hname
  · rename_i s hs
    split at hname
    · rename_i n after hn
      split_ifs at hname with hraw
      rw [hs] at hname
      simp only [Option.some.injEq, Prod.mk.injEq, List.cons.injEq, true_and] at hname
      obtain ⟨rfl, rfl⟩ := hname
      obtain ⟨-, c, t, rfl, hc, ht⟩ := identifier?_eq_some hn
      exact .inr ⟨c, t, hs, hc, ht, by simpa using hraw⟩
    · exact absurd hname (by simp)
  · exact .inl (identifier?_eq_some hname).2

lemma ne_nil_of_isWord {w : String} (hw : IsWord w) : w.toList ≠ [] := by
  rcases word_cases hw with ⟨c, t, hwt, -⟩ | ⟨c, t, hwt, -⟩
  · simp [hwt]
  · simp [hwt]

/-- What the scan sees of a text that begins with a word. -/
structure WordAhead (w s rest : List Char) : Prop where
  start : ∃ c t, s = c :: t ∧ isIdentifierStart c = true ∧ ∀ d ∈ t.head?, d ≠ '\''
  after : Literal.after s = none
  beginnings : (literalBeginnings.any fun b => b.isPrefixOf s) = false
  name : name? s = some (w, rest)

lemma wordAhead {w : String} {rest : List Char} (hw : IsWord w) (hrest : Ends rest) :
    WordAhead w.toList (w.toList ++ rest) rest := by
  rcases word_cases hw with ⟨c, t, hwt, hc, ht⟩ | ⟨c, t, hwt, hc, ht, hraw⟩
  · have hends := (endsLater_append ht hrest).1
    have hhash := hends.head_ne (d := '#') rfl (by decide)
    rw [hwt, List.cons_append]
    refine ⟨⟨c, _, rfl, hc, hends.head_ne rfl (by decide)⟩, after_of_start hc hends,
      literalBeginnings_of_start hends, ?_⟩
    rw [name?]
    · exact identifier?_append hc ht hrest
    · intro s hs
      exact hhash '#' (by rw [(List.cons.inj hs).2]; rfl) rfl
  · rw [hwt]
    refine ⟨⟨'r', _, rfl, rfl, by simp⟩, ?_, ?_, ?_⟩
    · rw [List.cons_append, List.cons_append, List.cons_append, Literal.after, anyQuoted_raw hc,
        decimal_of_start rfl, whole_of_start rfl]
      rfl
    · simp [literalBeginnings_eq, List.isPrefixOf, (start_ne hc (d := '"') rfl).symm,
        (start_ne hc (d := '#') rfl).symm]
    · simp only [List.cons_append, name?, identifier?_append hc ht hrest, hraw,
        Bool.false_eq_true, if_false]

/-- **A word is scanned to its end.** -/
lemma begins_word {w : String} {rest : List Char} (hw : IsWord w) (hrest : Ends rest) :
    Begins (w.toList ++ rest) [.word w ()] rest := by
  have hahead := wordAhead hw hrest
  obtain ⟨a, t, hct, ha, -⟩ := hahead.start
  obtain ⟨c, u, hau⟩ := List.exists_cons_of_ne_nil (ne_nil_of_isWord hw)
  obtain ⟨rfl, rfl⟩ : c = a ∧ u ++ rest = t := by
    rw [hau, List.cons_append] at hct
    exact List.cons.inj hct
  have hvisible := (hw.visible c (by rw [hau]; rfl)).1
  have hshorter : rest.length < (c :: (u ++ rest)).length := by
    rw [List.length_cons, List.length_append]
    omega
  rw [hct] at hahead ⊢
  refine begins_token (afterComment_of_ne (start_ne ha rfl) _) hvisible hshorter fun p =>
    ⟨_, step_of_start ha hahead.after hahead.beginnings hahead.name p, ?_⟩
  rw [String.ofList_toList]
  exact .word w p

lemma after_quote {w rest : List Char} {s : List Char} (h : WordAhead w s rest) :
    Literal.after ('\'' :: s) = none := by
  obtain ⟨c, t, rfl, hc, ht⟩ := h.start
  have hslash := start_ne hc (d := '\\') rfl
  have hcharacter : Literal.character .text (c :: t) = none := by
    cases t with
    | nil => simp_all [Literal.character]
    | cons d t =>
        have hd := ht d rfl
        simp_all [Literal.character]
  have hdecimal : Literal.decimal ('\'' :: c :: t) = none := rfl
  have hwhole : Literal.whole ('\'' :: c :: t) = none := rfl
  rw [Literal.after, Literal.anyQuoted, hcharacter, hdecimal, hwhole]
  rfl

/-- **A lifetime is scanned to the end of its name.** -/
lemma begins_lifetime {w : String} {rest : List Char} (hw : IsWord w) (hrest : Ends rest) :
    Begins ('\'' :: (w.toList ++ rest)) (Token.lifetime w) rest := by
  have hahead := wordAhead hw hrest
  have hmark : mark? ('\'' :: (w.toList ++ rest)) = some ('\'', true, w.toList ++ rest) := by
    have hstarts : startsWithMark ('\'' :: (w.toList ++ rest)) = true := rfl
    rw [mark?, hstarts]
    simp only [if_true, hahead.name]
    split
    · exact absurd (hrest '\'' rfl) (by decide)
    · exact absurd (hrest '#' rfl) (by decide)
    · rfl
  refine Begins.trans (l := [.mark '\'' true ()]) (begins_token rfl rfl (by simp) fun p =>
    ⟨.mark '\'' true p, ?_, .mark '\'' p fun _ => rfl⟩) (begins_word hw hrest)
  rw [step_of_not_mem (by decide) (by decide), after_quote hahead, hmark]

/-- The tokens of a text that begins with nothing else. -/
lemma Begins.scan? {s : List Char} {l : List Lexeme} (h : Begins s l [])
    (mark : ∀ c ∈ s.head?, c ≠ '\ufeff') : ∃ ts, Token.scan? s = some ts ∧ Shown ts l := by
  have hleaves : leaves s = leavesFuel (s.length + 1) .start s := by
    cases s with
    | nil => rfl
    | cons c s =>
        have hc : c ≠ '\ufeff' := mark c rfl
        rw [leaves]
        simp [hc]
  obtain ⟨p', n', ts, hn', hts, heq⟩ := h .start (s.length + 1) (by omega)
  obtain ⟨n', rfl⟩ : ∃ m, n' = m + 1 := ⟨n' - 1, by omega⟩
  refine ⟨ts, ?_, hts⟩
  rw [Token.scan?, hleaves]
  refine (heq [] []).trans ?_
  simp [leavesFuel, Leaf.nestFrom]

end Scan

end FieldCopy.Source
