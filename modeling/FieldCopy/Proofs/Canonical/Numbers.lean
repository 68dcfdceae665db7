import Mathlib
import FieldCopy.Proofs.Canonical.Scanning

/-!
# Scanning whole numbers

A whole number has digits in a base, perhaps behind a prefix that names the base, and a suffix.  In
front of a text that ends words it is scanned as if nothing followed.

**Main statement.**  `Scan.begins_number`: whole numbers are scanned to their ends.
-/

namespace FieldCopy.Source

namespace Scan

variable {t rest : List Char}

/-- What stands behind a number is no part of one. -/
lemma not_number_of_mem_endMarks {c : Char} (hc : c ∈ endMarks) :
    isIdentifierStart c = false ∧ c.isDigit = false ∧ Literal.isHexDigit c = false
      ∧ c ∉ ['_', '.', 'e', 'E', '+', '-'] := by
  simp only [endMarks, List.mem_cons, List.not_mem_nil, or_false] at hc
  rcases hc with rfl | rfl | rfl | rfl | rfl | rfl | rfl | rfl <;>
    exact ⟨rfl, rfl, rfl, by decide⟩

lemma numberEnd_ends (hrest : Ends rest) : Literal.numberEnd rest = some rest := by
  cases rest with
  | nil => rfl
  | cons c rest =>
      have hpart := not_part_of_mem_endMarks (hrest c rfl)
      have hstart := (not_number_of_mem_endMarks (hrest c rfl)).1
      simp [Literal.numberEnd, Literal.afterIdentifier, hpart, hstart]

/-- A suffix to the end. -/
lemma numberEnd_append (h : Literal.numberEnd t = some []) (hrest : Ends rest) :
    Literal.numberEnd (t ++ rest) = some rest ∧ ∀ c ∈ t, isNameChar c = true := by
  cases t with
  | nil => exact ⟨numberEnd_ends hrest, by simp⟩
  | cons c t =>
      cases hc : isIdentifierStart c with
      | false =>
          simp only [Literal.numberEnd, Literal.afterIdentifier, hc, Bool.false_eq_true,
            if_false] at h
          split_ifs at h
          simp at h
      | true =>
          have hnil : t.dropWhile isIdentifierPart = [] := by
            rw [Literal.numberEnd, Literal.afterIdentifier, if_pos hc] at h
            cases hdrop : t.dropWhile isIdentifierPart with
            | nil => rfl
            | cons d u =>
                rw [hdrop] at h
                dsimp only at h
                split_ifs at h
                simp at h
          have ht := List.dropWhile_eq_nil_iff.1 hnil
          have hspan := (endsLater_append ht hrest).2
          rw [List.span_eq_takeWhile_dropWhile, Prod.mk.injEq] at hspan
          constructor
          · rw [List.cons_append, Literal.numberEnd, Literal.afterIdentifier, if_pos hc, hspan.2]
            cases rest with
            | nil => rfl
            | cons d rest => simp [not_part_of_mem_endMarks (hrest d rfl)]
          · exact List.forall_mem_cons.2
              ⟨isNameChar_of_start hc, fun d hd => isNameChar_of_part (ht d hd)⟩

/-- What does not end a number does not end it in front of a text. -/
lemma numberEnd_append_none (h : Literal.numberEnd t = none) :
    Literal.numberEnd (t ++ rest) = none := by
  cases t with
  | nil => exact absurd h (by simp [Literal.numberEnd, Literal.afterIdentifier])
  | cons c t =>
      cases hc : isIdentifierStart c with
      | false =>
          simp only [Literal.numberEnd, Literal.afterIdentifier, hc, Bool.false_eq_true,
            if_false] at h
          split_ifs at h with hpart
          simp [Literal.numberEnd, Literal.afterIdentifier, hc, hpart]
      | true =>
          rw [Literal.numberEnd, Literal.afterIdentifier, if_pos hc] at h
          cases hdrop : t.dropWhile isIdentifierPart with
          | nil => simp [hdrop] at h
          | cons d u =>
              have hd := List.head_dropWhile_not isIdentifierPart (l := t) (by simp [hdrop])
              simp only [hdrop, List.head_cons] at hd
              simp [hdrop, hd] at h

lemma wholeDigits_append (hrest : Ends rest) (base : Nat) (isEmpty : Bool) :
    Literal.wholeDigits base isEmpty (t ++ rest)
      = (Literal.wholeDigits base isEmpty t).map (· ++ rest) := by
  induction t generalizing isEmpty with
  | nil =>
      cases rest with
      | nil => cases isEmpty <;> rfl
      | cons c rest =>
          obtain ⟨-, hdigit, hhex, hmarks⟩ := not_number_of_mem_endMarks (hrest c rfl)
          have hunderscore : c ≠ '_' := fun h => hmarks (by simp [h])
          cases isEmpty <;> simp [Literal.wholeDigits, hdigit, hhex, hunderscore]
  | cons c t ih =>
      simp only [List.cons_append, Literal.wholeDigits, ih]
      split_ifs <;> rfl

lemma exponent_append (hrest : Ends rest) (hasSign hasDigit : Bool) :
    Literal.exponent hasSign hasDigit (t ++ rest)
      = (Literal.exponent hasSign hasDigit t).map (· ++ rest) := by
  induction t generalizing hasSign hasDigit with
  | nil =>
      cases rest with
      | nil => cases hasDigit <;> rfl
      | cons c rest =>
          obtain ⟨-, hdigit, -, hmarks⟩ := not_number_of_mem_endMarks (hrest c rfl)
          have hne : c ≠ '_' ∧ c ≠ '+' ∧ c ≠ '-' := by
            refine ⟨?_, ?_, ?_⟩ <;> exact fun h => hmarks (by simp [h])
          cases hasDigit <;> simp [Literal.exponent, hdigit, hne]
  | cons c t ih =>
      simp only [List.cons_append, Literal.exponent, ih]
      split_ifs <;> rfl

lemma mantissa_append (ht : '.' ∉ t) (hrest : Ends rest) :
    ∃ b u, Literal.mantissa false t = some ⟨false, b, u⟩
      ∧ Literal.mantissa false (t ++ rest) = some ⟨false, b, u ++ rest⟩ := by
  induction t with
  | nil =>
      refine ⟨false, [], rfl, ?_⟩
      cases rest with
      | nil => rfl
      | cons c rest =>
          obtain ⟨-, hdigit, -, hmarks⟩ := not_number_of_mem_endMarks (hrest c rfl)
          have hne : c ≠ '_' ∧ c ≠ '.' ∧ c ≠ 'e' ∧ c ≠ 'E' := by
            refine ⟨?_, ?_, ?_, ?_⟩ <;> exact fun h => hmarks (by simp [h])
          simp [Literal.mantissa, hdigit, hne]
  | cons c t ih =>
      have hdot : c ≠ '.' := fun h => ht (h ▸ List.mem_cons_self)
      obtain ⟨b, u, hu, happend⟩ := ih fun h => ht (List.mem_cons_of_mem c h)
      simp only [List.cons_append, Literal.mantissa, hdot, if_false, hu, happend]
      split_ifs
      · exact ⟨b, u, rfl, rfl⟩
      · exact ⟨true, t, rfl, rfl⟩
      · exact ⟨false, c :: t, rfl, rfl⟩

/-- A decimal digit is one of ten. -/
lemma mem_digits {c : Char} (hc : c.isDigit = true) :
    c ∈ ['0', '1', '2', '3', '4', '5', '6', '7', '8', '9'] := by
  rw [Char.isDigit, Bool.and_eq_true, decide_eq_true_eq, decide_eq_true_eq, ge_iff_le,
    UInt32.le_iff_toNat_le, UInt32.le_iff_toNat_le] at hc
  have hlow : 48 ≤ c.toNat := hc.1
  have hhigh : c.toNat ≤ 57 := hc.2
  rw [← Char.ofNat_toNat c]
  interval_cases c.toNat <;> decide

lemma isNameChar_of_isDigit {c : Char} (hc : c.isDigit = true) : isNameChar c = true := by
  have hmem := mem_digits hc
  simp only [List.mem_cons, List.not_mem_nil, or_false] at hmem
  rcases hmem with rfl | rfl | rfl | rfl | rfl | rfl | rfl | rfl | rfl | rfl <;> rfl

lemma isNameChar_of_isHexDigit {c : Char} (hc : Literal.isHexDigit c = true) :
    isNameChar c = true := by
  simp only [Literal.isHexDigit, Bool.or_eq_true, Bool.and_eq_true, decide_eq_true_eq] at hc
  rcases hc with (hc | hc) | hc
  · exact isNameChar_of_isDigit hc
  · have hlower : c.isLower = true := by
      have hz : c ≤ 'z' := hc.2.trans (by decide)
      exact Bool.and_eq_true_iff.2 ⟨decide_eq_true hc.1, decide_eq_true hz⟩
    exact isNameChar_of_start (by simp [isIdentifierStart, Char.isAlpha, hlower])
  · have hupper : c.isUpper = true := by
      have hz : c ≤ 'Z' := hc.2.trans (by decide)
      exact decide_eq_true ⟨hc.1, hz⟩
    exact isNameChar_of_start (by simp [isIdentifierStart, Char.isAlpha, hupper])

/-- The digits of a number are characters of identifiers. -/
lemma wholeDigits_eq_some {base : Nat} {isEmpty : Bool} {u : List Char}
    (h : Literal.wholeDigits base isEmpty t = some u) :
    ∃ v, t = v ++ u ∧ ∀ c ∈ v, isNameChar c = true := by
  induction t generalizing isEmpty with
  | nil =>
      cases isEmpty
      · obtain rfl : [] = u := by simpa [Literal.wholeDigits] using h
        exact ⟨[], rfl, by simp⟩
      · exact absurd h (by simp [Literal.wholeDigits])
  | cons c t ih =>
      have hcons : ∀ e, Literal.wholeDigits base e t = some u → isNameChar c = true →
          ∃ v, c :: t = v ++ u ∧ ∀ c ∈ v, isNameChar c = true := by
        intro e he hc
        obtain ⟨v, rfl, hv⟩ := ih he
        exact ⟨c :: v, rfl, List.forall_mem_cons.2 ⟨hc, hv⟩⟩
      rw [Literal.wholeDigits] at h
      split_ifs at h with hdigit _ hhex hunderscore
      · exact hcons _ h (isNameChar_of_isDigit hdigit)
      · exact hcons _ h (isNameChar_of_isHexDigit (Bool.and_eq_true_iff.1 hhex).1)
      · exact hcons _ h (by rw [hunderscore]; rfl)
      · obtain rfl : c :: t = u := by simpa using h
        exact ⟨[], rfl, by simp⟩

/-- A whole number without a prefix is decimal. -/
lemma whole_of_ne {s : List Char} (hs : ∀ c ∈ ['x', 'o', 'b'], ¬ ['0', c] <+: s) :
    Literal.whole s = (Literal.wholeDigits 10 true s).bind Literal.numberEnd := by
  rw [Literal.whole]
  · rfl
  · rintro u rfl
    exact hs 'x' (by decide) ⟨u, rfl⟩
  · rintro u rfl
    exact hs 'o' (by decide) ⟨u, rfl⟩
  · rintro u rfl
    exact hs 'b' (by decide) ⟨u, rfl⟩

/-- The prefix of a whole number decides its base. -/
lemma whole_eq (hs : t ≠ []) : ∃ v u base, t = v ++ u ∧ (∀ c ∈ v, isNameChar c = true)
    ∧ (v = [] ∧ base = 10 ∨ v.head? = some '0')
    ∧ ∀ {rest}, Ends rest → Literal.whole (t ++ rest)
        = (Literal.wholeDigits base true (u ++ rest)).bind Literal.numberEnd := by
  by_cases hprefix : ∃ c ∈ ['x', 'o', 'b'], ['0', c] <+: t
  · obtain ⟨c, hc, u, rfl⟩ := hprefix
    simp only [List.mem_cons, List.not_mem_nil, or_false] at hc
    rcases hc with rfl | rfl | rfl
    · exact ⟨['0', 'x'], u, 16, rfl, List.all_eq_true.1 rfl, .inr rfl, fun _ => rfl⟩
    · exact ⟨['0', 'o'], u, 8, rfl, List.all_eq_true.1 rfl, .inr rfl, fun _ => rfl⟩
    · exact ⟨['0', 'b'], u, 2, rfl, List.all_eq_true.1 rfl, .inr rfl, fun _ => rfl⟩
  · refine ⟨[], t, 10, rfl, by simp, .inl ⟨rfl, rfl⟩, fun {rest} hrest => ?_⟩
    refine whole_of_ne fun c hc hfront => hprefix ⟨c, hc, ?_⟩
    rcases t with _ | ⟨d, _ | ⟨e, t⟩⟩
    · exact absurd rfl hs
    · obtain ⟨v, hv⟩ := hfront
      obtain ⟨rfl, rfl⟩ := List.cons.inj hv
      have hmem := hrest c rfl
      simp only [List.mem_cons, List.not_mem_nil, or_false] at hc
      rcases hc with rfl | rfl | rfl <;> exact absurd hmem (by decide)
    · obtain ⟨v, hv⟩ := hfront
      obtain ⟨rfl, hsecond⟩ := List.cons.inj hv
      obtain ⟨rfl, -⟩ := List.cons.inj hsecond
      exact ⟨t, rfl⟩

/-- **A whole number ends where a text that ends numbers begins.** -/
lemma whole_append {d : List Char} (hd : Literal.whole d = some []) (hrest : Ends rest) :
    Literal.whole (d ++ rest) = some rest ∧ (∀ c ∈ d, isNameChar c = true)
      ∧ ∃ c t, d = c :: t ∧ c.isDigit = true := by
  have hne : d ≠ [] := by
    rintro rfl
    exact absurd hd (by decide)
  obtain ⟨v, u, base, hvu, hv, hbase, heq⟩ := whole_eq hne
  have hwhole := heq ends_nil
  rw [List.append_nil, List.append_nil, hd] at hwhole
  obtain ⟨w, hw, hend⟩ := Option.bind_eq_some_iff.1 hwhole.symm
  obtain ⟨x, hx, hchars⟩ := wholeDigits_eq_some hw
  obtain ⟨hends, hchars'⟩ := numberEnd_append hend hrest
  refine ⟨?_, ?_, ?_⟩
  · rw [heq hrest, wholeDigits_append hrest, hw]
    exact hends
  · rw [hvu, hx]
    exact List.forall_mem_append.2 ⟨hv, List.forall_mem_append.2 ⟨hchars, hchars'⟩⟩
  · obtain ⟨rfl, rfl⟩ | hzero := hbase
    · rw [List.nil_append] at hvu
      rw [← hvu] at hw
      obtain ⟨c, t, rfl⟩ := List.exists_cons_of_ne_nil hne
      refine ⟨c, t, rfl, ?_⟩
      cases hc : c.isDigit with
      | true => rfl
      | false =>
          rw [Literal.wholeDigits, hc, not_hexValue_lt hc] at hw
          simp at hw
    · obtain ⟨y, rfl⟩ := List.head?_eq_some_iff.1 hzero
      exact ⟨'0', y ++ u, hvu, rfl⟩

/-- What is no number with a point or an exponent is none in front of a text. -/
lemma decimal_append {d : List Char} (hd : Literal.decimal d = none) (hpoint : '.' ∉ d)
    (hrest : Ends rest) : Literal.decimal (d ++ rest) = none := by
  cases d with
  | nil =>
      cases rest with
      | nil => rfl
      | cons c rest =>
          simp [Literal.decimal, (not_number_of_mem_endMarks (hrest c rfl)).2.1]
  | cons c t =>
      obtain ⟨hasExponent, u, hmantissa, happend⟩ :=
        mantissa_append (fun h => hpoint (List.mem_cons_of_mem c h)) hrest
      cases hc : c.isDigit with
      | false => simp [Literal.decimal, hc]
      | true =>
          simp only [Literal.decimal, hc, if_true, hmantissa, List.cons_append, happend,
            Option.bind_some, Literal.decimalEnd, Bool.false_eq_true, if_false] at hd ⊢
          split_ifs at hd ⊢ with hexponent
          · rw [exponent_append hrest]
            cases hu : Literal.exponent false false u with
            | none => rfl
            | some after =>
                rw [hu] at hd
                exact numberEnd_append_none hd
          · rfl

/-- **A whole number is scanned to its end.** -/
lemma begins_number {d : String} {rest : List Char} (hd : IsInteger d) (hrest : Ends rest) :
    Begins (d.toList ++ rest) [.literal d ()] rest := by
  obtain ⟨hwhole, hchars, c, t, hct, hc⟩ := whole_append hd.whole hrest
  have hdecimal := decimal_append hd.decimal (fun h => nameChar_ne (hchars _ h) rfl rfl) hrest
  have hfirst : c ≠ '/' ∧ c ∉ delimiters ∧ isSeparator c = false
      ∧ ∀ s, Literal.anyQuoted (c :: s) = none := by
    have hmem := mem_digits hc
    simp only [List.mem_cons, List.not_mem_nil, or_false] at hmem
    rcases hmem with rfl | rfl | rfl | rfl | rfl | rfl | rfl | rfl | rfl | rfl <;>
      exact ⟨by decide, by decide, rfl, fun _ => rfl⟩
  have hafter : Literal.after (d.toList ++ rest) = some rest := by
    have hquoted : Literal.anyQuoted (d.toList ++ rest) = none := by
      rw [hct, List.cons_append, hfirst.2.2.2]
    rw [Literal.after, hquoted, hdecimal, hwhole]
    rfl
  have htake : (d.toList ++ rest).take ((d.toList ++ rest).length - rest.length) = d.toList := by
    simp
  have hstep : ∀ p, step p (d.toList ++ rest) = some ([.token (.literal d p)], rest) := by
    intro p
    rw [hct, List.cons_append, step_of_not_mem hfirst.1 hfirst.2.1, ← List.cons_append, ← hct,
      hafter]
    simp only [htake, String.ofList_toList]
  rw [hct, List.cons_append] at hstep ⊢
  exact begins_token (afterComment_of_ne hfirst.1 _) hfirst.2.2.1
    (by rw [List.length_cons, List.length_append]; omega) fun p => ⟨_, hstep p, .literal d p⟩

end Scan

end FieldCopy.Source
