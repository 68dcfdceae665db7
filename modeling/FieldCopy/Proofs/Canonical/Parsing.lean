import Mathlib
import FieldCopy.Proofs.Canonical.Scanning

/-!
# Parsing spelled types

The tokens of a type are parsed as this type, if a comma, a closing angle bracket, a semicolon or
nothing is behind them.
-/

namespace FieldCopy.Source

/-! ## Tokens shown one after the other -/

namespace Shown

variable {ts : List (Token Place)} {l l' : List Lexeme}

lemma nil (h : Shown ts []) : ts = [] := List.forall₂_nil_right_iff.1 h

lemma append (h : Shown ts (l ++ l')) : ∃ a b, ts = a ++ b ∧ Shown a l ∧ Shown b l' := by
  induction l generalizing ts with
  | nil => exact ⟨[], ts, rfl, List.Forall₂.nil, h⟩
  | cons t l ih =>
      obtain ⟨t', ts', ht, hts, rfl⟩ := List.forall₂_cons_right_iff.1 h
      obtain ⟨a, b, rfl, ha, hb⟩ := ih hts
      exact ⟨t' :: a, b, rfl, List.Forall₂.cons ht ha, hb⟩

lemma word {w : String} (h : Shown ts (.word w () :: l)) :
    ∃ p ts', ts = .word w p :: ts' ∧ Shown ts' l := by
  obtain ⟨t, ts', ht, hts, rfl⟩ := List.forall₂_cons_right_iff.1 h
  cases ht with
  | word _ p => exact ⟨p, ts', rfl, hts⟩

lemma mark (c : Char) (joint : Bool) (h : Shown ts (.mark c joint () :: l)) :
    ∃ joint' p ts', ts = .mark c joint' p :: ts' ∧ (joint = true → joint' = true)
      ∧ Shown ts' l := by
  obtain ⟨t, ts', ht, hts, rfl⟩ := List.forall₂_cons_right_iff.1 h
  cases ht with
  | mark _ p hjoint => exact ⟨_, p, ts', rfl, hjoint, hts⟩

/-- An operator of one mark. -/
lemma operator {o : String} (c : Char) (ho : o.toList = [c])
    (h : Shown ts (Token.marks o ++ l)) :
    ∃ joint p ts', ts = .mark c joint p :: ts' ∧ Shown ts' l := by
  rw [Token.marks, ho] at h
  obtain ⟨joint, p, ts', rfl, -, hts⟩ := mark c false h
  exact ⟨joint, p, ts', rfl, hts⟩

lemma literal {d : String} (h : Shown ts (.literal d () :: l)) :
    ∃ p ts', ts = .literal d p :: ts' ∧ Shown ts' l := by
  obtain ⟨t, ts', ht, hts, rfl⟩ := List.forall₂_cons_right_iff.1 h
  cases ht with
  | literal _ p => exact ⟨p, ts', rfl, hts⟩

lemma group {d : Delimiter} {inner : List Lexeme} (h : Shown ts (.group d inner () :: l)) :
    ∃ inner' p ts', ts = .group d inner' p :: ts' ∧ Shown inner' inner ∧ Shown ts' l := by
  obtain ⟨t, ts', ht, hts, rfl⟩ := List.forall₂_cons_right_iff.1 h
  cases ht with
  | group _ p hinner => exact ⟨_, p, ts', rfl, hinner, hts⟩

/-- The two colons of a path. -/
lemma colons (h : Shown ts (colons ++ l)) :
    ∃ p joint q ts', ts = .mark ':' true p :: .mark ':' joint q :: ts' ∧ Shown ts' l := by
  obtain ⟨j, p, ts', rfl, hj, h'⟩ := mark ':' true h
  obtain ⟨j', q, ts'', rfl, -, h''⟩ := mark ':' false h'
  rw [hj rfl]
  exact ⟨p, j', q, ts'', rfl, h''⟩

/-- The two tokens of a lifetime. -/
lemma lifetime {n : String} (h : Shown ts (Token.lifetime n ++ l)) :
    ∃ p q ts', ts = .mark '\'' true p :: .word n q :: ts' ∧ Shown ts' l := by
  obtain ⟨j, p, ts', rfl, hj, h'⟩ := mark '\'' true h
  obtain ⟨q, ts'', rfl, h''⟩ := word h'
  rw [hj rfl]
  exact ⟨p, q, ts'', rfl, h''⟩

end Shown

/-! ## Running parsers -/

namespace Parser

variable {α β : Type}

lemma bind_apply (p : Parser α) (f : α → Parser β) (ts : Tokens) :
    (p >>= f) ts = (p ts).bind fun x => f x.1 x.2 := (rfl)

lemma ahead_apply (a : Ahead) (ts : Tokens) : ahead a ts = some (a ts, ts) := (rfl)

lemma ahead_pos {a : Ahead} {ts : Tokens} (h : a ts = true) {p q : Parser α} :
    (do if ← ahead a then p else q) ts = p ts := by
  rw [bind_apply, ahead_apply, h, Option.bind_some, if_pos rfl]

lemma ahead_neg {a : Ahead} {ts : Tokens} (h : a ts = false) {p q : Parser α} :
    (do if ← ahead a then p else q) ts = q ts := by
  rw [bind_apply, ahead_apply, h, Option.bind_some, if_neg Bool.false_ne_true]

lemma map_apply (f : α → β) (p : Parser α) (ts : Tokens) :
    (f <$> p) ts = (p ts).map fun x => (f x.1, x.2) := by
  cases h : p ts <;> simp [Functor.map, StateT.map, h]

end Parser

/-! ## What follows a type -/

/-- What may stand behind a type among others: nothing, a comma, a closing angle bracket or a
semicolon. -/
inductive Follows : Tokens → Prop where
  | nil : Follows []
  | mark {c : Char} {joint : Bool} {p : Place} {ts : Tokens} (hc : c ∈ [',', '>', ';']) :
      Follows (.mark c joint p :: ts)

/-- No operator with another mark at its front follows. -/
lemma Follows.mark_eq_false {ts : Tokens} (h : Follows ts) {operator : String} {c : Char}
    {cs : List Char} (hop : operator.toList = c :: cs) (hc : c ∉ [',', '>', ';']) :
    Ahead.mark operator ts = false := by
  rw [Ahead.mark, hop]
  cases h with
  | nil => cases cs <;> rfl
  | @mark d joint p ts hd =>
      have hne : (c == d) = false := by
        rw [beq_eq_false_iff_ne]
        rintro rfl
        exact hc hd
      cases cs with
      | nil => exact hne
      | cons e cs => cases joint <;> simp [Ahead.marks, hne]

/-- A grammar reads a type if it parses the tokens of the type as the type. -/
def Grammar.Reads (g : Grammar) (t : Ty) : Prop :=
  ∀ plus ts rest, Shown ts t.spelled → Follows rest → g.type plus (ts ++ rest) = some (t, rest)

/-! ## How types begin -/

/-- A word with which a path begins. -/
def IsFirstWord (w : String) : Prop := w ∉ Ahead.reserved ∨ w ∈ Grammar.pathWords

lemma IsFirstWord.ne {w k : String} (hw : IsFirstWord w) (hk : k ∈ Ahead.reserved)
    (hk' : k ∉ Grammar.pathWords) : w ≠ k := by
  rintro rfl
  rcases hw with hw | hw
  · exact hw hk
  · exact hk' hw

/-- The tokens with which types begin. -/
inductive BeginsType : Tokens → Prop where
  | word {w : String} {p : Place} {ts : Tokens} (hw : IsFirstWord w) :
      BeginsType (.word w p :: ts)
  | colons {joint : Bool} {p q : Place} {ts : Tokens} :
      BeginsType (.mark ':' true p :: .mark ':' joint q :: ts)
  | reference {joint : Bool} {p : Place} {ts : Tokens} : BeginsType (.mark '&' joint p :: ts)
  | group {d : Delimiter} {inner : Tokens} {p : Place} {ts : Tokens} (hd : d ≠ .brace) :
      BeginsType (.group d inner p :: ts)

namespace BeginsType

variable {ts : Tokens} (h : BeginsType ts)

include h

lemma mark_eq_false {operator : String} {c : Char} {cs : List Char}
    (hop : operator.toList = c :: cs) (hc : c ∉ [':', '&']) : Ahead.mark operator ts = false := by
  have hne : ∀ d ∈ [':', '&'], (c == d) = false := by
    intro d hd
    rw [beq_eq_false_iff_ne]
    rintro rfl
    exact hc hd
  rw [Ahead.mark, hop]
  cases h with
  | word hw => cases cs <;> rfl
  | colons =>
      have hcolon := hne ':' (by decide)
      cases cs <;> simp [Ahead.marks, hcolon]
  | @reference joint p ts =>
      have hand := hne '&' (by decide)
      cases cs <;> cases joint <;> simp [Ahead.marks, hand]
  | group hd => cases cs <;> rfl

lemma lifetime_eq_false : Ahead.lifetime ts = false := by
  cases h <;> rfl

lemma nothing_eq_false : Ahead.nothing ts = false := by
  cases h <;> rfl

lemma word_eq_false {k : String} (hk : k ∈ Ahead.reserved) (hk' : k ∉ Grammar.pathWords) :
    Ahead.word k ts = false := by
  cases h with
  | word hw => simpa [Ahead.word] using hw.ne hk hk'
  | _ => rfl

lemma constant_eq_false : Grammar.constantAhead ts = false := by
  cases h with
  | @word w p ts hw =>
      have htrue : (w == "true") = false := by simpa using hw.ne (by decide) (by decide)
      have hfalse : (w == "false") = false := by simpa using hw.ne (by decide) (by decide)
      simp [Grammar.constantAhead, Ahead.anyOf, Ahead.literal, Ahead.group, htrue, hfalse]
  | colons => rfl
  | reference => rfl
  | @group d inner p ts hd =>
      cases d
      · rfl
      · rfl
      · exact absurd rfl hd

end BeginsType

/-- A path is spelled name by name. -/
lemma Path.spelled_cons (r : Bool) (s : Segment) (ss : List Segment) :
    (Path.mk r (s :: ss)).spelled
      = (if r then FieldCopy.Source.colons else []) ++ (s.spelled
        ++ ss.flatMap fun s => FieldCopy.Source.colons ++ s.spelled) := by
  have hflatten : ∀ (s : Segment) (ss : List Segment),
      ((spelledSegments (s :: ss)).intersperse FieldCopy.Source.colons).flatten
        = s.spelled ++ ss.flatMap fun s => FieldCopy.Source.colons ++ s.spelled := by
    intro s ss
    rw [spelledSegments_eq_map]
    induction ss generalizing s with
    | nil => simp
    | cons s' ss ih =>
        rw [List.map_cons, List.map_cons, List.intersperse_cons_cons, List.flatten_cons,
          List.flatten_cons, ← List.map_cons, ih, List.flatMap_cons, List.append_assoc]
  rw [Path.spelled, hflatten]

/-- A path begins with a word or with two colons. -/
lemma beginsPath {p : Path} (hp : p.WellSpelled) {ts : Tokens} (hts : Shown ts p.spelled) :
    (∃ w q b, ts = .word w q :: b ∧ IsFirstWord w)
      ∨ ∃ q joint r b, ts = .mark ':' true q :: .mark ':' joint r :: b := by
  obtain ⟨r, segments⟩ := p
  obtain ⟨hsegments, hne, htry⟩ := hp
  obtain ⟨⟨n, a⟩, ss, rfl⟩ := List.exists_cons_of_ne_nil hne
  rw [Path.spelled_cons] at hts
  cases r with
  | true =>
      obtain ⟨p, joint, q, ts', rfl, -⟩ := Shown.colons hts
      exact .inr ⟨p, joint, q, ts', rfl⟩
  | false =>
      rw [Segment.spelled] at hts
      obtain ⟨p, ts', rfl, -⟩ := Shown.word hts
      refine .inl ⟨n, p, ts', rfl, ?_⟩
      obtain ⟨-, hword | rfl | ⟨-, hword⟩, -⟩ := hsegments.1
      · exact .inl hword
      · exact .inr (by decide)
      · have hn : n ≠ "try" := htry rfl _ rfl
        simp only [List.mem_cons, List.not_mem_nil, or_false, hn] at hword
        rcases hword with rfl | rfl | rfl <;> exact .inr (by decide)

/-- A type begins like one. -/
lemma beginsType {t : Ty} (ht : t.WellSpelled) {ts : Tokens} (hts : Shown ts t.spelled)
    (rest : Tokens) : BeginsType (ts ++ rest) := by
  cases t with
  | path p =>
      rw [Ty.spelled] at hts
      rcases beginsPath ht hts with ⟨w, q, b, rfl, hw⟩ | ⟨q, joint, r, b, rfl⟩
      · exact .word hw
      · exact .colons
  | reference l m t =>
      cases l <;>
      · rw [Ty.spelled, List.append_assoc, List.append_assoc] at hts
        obtain ⟨joint, p, ts', rfl, -⟩ := Shown.operator '&' rfl hts
        exact .reference
  | slice e =>
      rw [Ty.spelled] at hts
      obtain ⟨inner, p, ts', rfl, -⟩ := Shown.group hts
      exact .group (by decide)
  | array e n =>
      rw [Ty.spelled] at hts
      obtain ⟨inner, p, ts', rfl, -⟩ := Shown.group hts
      exact .group (by decide)
  | tuple es trailing =>
      rw [Ty.spelled] at hts
      obtain ⟨inner, p, ts', rfl, -⟩ := Shown.group hts
      exact .group (by decide)
  | parenthesized t =>
      rw [Ty.spelled] at hts
      obtain ⟨inner, p, ts', rfl, -⟩ := Shown.group hts
      exact .group (by decide)
  | qualified _ _ _ => exact ht.elim
  | traitObject _ => exact ht.elim
  | implTrait _ => exact ht.elim
  | other _ => exact ht.elim

/-! ## Items between commas -/

/-- A parser takes an item, wherever one may stand among others. -/
def Parser.Takes {α : Type} (stop : Ahead) (p : Parser α) (spell : α → List Lexeme) (a : α) :
    Prop :=
  ∀ ts rest, Shown ts (spell a) → Follows rest →
    p (ts ++ rest) = some (a, rest) ∧ stop (ts ++ rest) = false

lemma commaLexemes_cons (trailing : Bool) (l : List Lexeme) (ls : List (List Lexeme)) :
    ∃ k, commaLexemes trailing (l :: ls) = l ++ k := by
  cases ls with
  | nil => exact ⟨_, rfl⟩
  | cons l' ls => exact ⟨Token.marks "," ++ commaLexemes trailing (l' :: ls), by
      rw [commaLexemes, List.append_assoc]
      simp⟩

/-- **Items are taken one by one, up to where the list stops.** -/
lemma separatedFuel_commas {α : Type} {stop : Ahead} {p : Parser α} {spell : α → List Lexeme}
    {items : List α} (hitems : ∀ a ∈ items, p.Takes stop spell a)
    (hcomma : ∀ joint q ts, stop (.mark ',' joint q :: ts) = false) {rest : Tokens}
    (hstop : stop rest = true) (hrest : Follows rest) {trailing : Bool}
    (hempty : items = [] → trailing = true) {n : Nat} {ts : Tokens} (hn : ts.length < n)
    (hts : Shown ts (commaLexemes trailing (items.map spell))) :
    Parser.separatedFuel stop (Parser.mark ",") p n (ts ++ rest)
      = some ((items, trailing), rest) := by
  induction items generalizing n ts with
  | nil =>
      obtain ⟨n, rfl⟩ : ∃ m, n = m + 1 := ⟨n - 1, by omega⟩
      obtain rfl := Shown.nil hts
      rw [hempty rfl, List.nil_append, Parser.separatedFuel, Parser.bind_apply,
        Parser.ahead_apply, hstop]
      rfl
  | cons a items ih =>
      obtain ⟨n, rfl⟩ : ∃ m, n = m + 1 := ⟨n - 1, by omega⟩
      obtain ⟨ha, hitems⟩ := List.forall_mem_cons.1 hitems
      -- an item with a comma behind it
      have hmore : ∀ {a' b : Tokens}, ts = a' ++ b → Shown a' (spell a) →
          Shown b (Token.marks "," ++ commaLexemes trailing (items.map spell)) →
          (items = [] → trailing = true) →
          Parser.separatedFuel stop (Parser.mark ",") p (n + 1) (ts ++ rest)
            = some ((a :: items, trailing), rest) := by
        rintro a' b rfl ha' hb hempty'
        obtain ⟨joint, q, b', rfl, hb'⟩ := Shown.operator ',' rfl hb
        obtain ⟨hp, hnot⟩ := ha a' (.mark ',' joint q :: (b' ++ rest)) ha' (.mark (by decide))
        rw [List.length_append, List.length_cons] at hn
        rw [List.append_assoc, List.cons_append, Parser.separatedFuel, Parser.bind_apply,
          Parser.ahead_apply, hnot]
        simp only [Option.bind_some, Bool.false_eq_true, if_false, Parser.bind_apply, hp,
          Parser.ahead_apply, hcomma]
        have htake :
            Parser.mark "," (.mark ',' joint q :: (b' ++ rest)) = some ((), b' ++ rest) := rfl
        rw [htake, Option.bind_some, ih hitems hempty' (by omega) hb']
        rfl
      cases items with
      | nil =>
          rw [List.map_cons, List.map_nil, commaLexemes] at hts
          obtain ⟨a', b, rfl, ha', hb⟩ := Shown.append hts
          cases trailing with
          | true => exact hmore rfl ha' (by simpa [commaLexemes] using hb) fun _ => rfl
          | false =>
              obtain rfl := Shown.nil hb
              obtain ⟨hp, hnot⟩ := ha a' rest ha' hrest
              rw [List.append_nil, Parser.separatedFuel, Parser.bind_apply, Parser.ahead_apply,
                hnot]
              simp only [Option.bind_some, Bool.false_eq_true, if_false, Parser.bind_apply, hp,
                Parser.ahead_apply, hstop, if_true]
              rfl
      | cons a₂ items =>
          rw [List.map_cons, List.map_cons, commaLexemes, List.append_assoc, ← List.map_cons] at hts
          · obtain ⟨a', b, rfl, ha', hb⟩ := Shown.append hts
            exact hmore rfl ha' hb (by simp)
          · simp

namespace Grammar

variable {g : Grammar}

lemma argument_lifetime {n : String} {ts rest : Tokens} (hts : Shown ts (Token.lifetime n))
    (hrest : Follows rest) : argument g (ts ++ rest) = some (.lifetime n, rest) := by
  rw [← List.append_nil (Token.lifetime n)] at hts
  obtain ⟨p, q, ts', rfl, hts'⟩ := Shown.lifetime hts
  obtain rfl := Shown.nil hts'
  have hplus : Ahead.mark "+" rest = false := hrest.mark_eq_false rfl (by decide)
  have hahead : Ahead.allOf [.lifetime, .notNext (.second (.mark "+"))]
      (.mark '\'' true p :: .word n q :: rest) = true := by
    simp [Ahead.allOf, Ahead.lifetime, Ahead.notNext, Ahead.second, Ahead.skip, hplus]
  rw [List.cons_append, List.cons_append, List.nil_append, argument, Parser.bind_apply,
    Parser.ahead_apply, hahead]
  rfl

lemma argument_type {t : Ty} (ht : t.WellSpelled) (hreads : g.Reads t) {ts rest : Tokens}
    (hts : Shown ts t.spelled) (hrest : Follows rest) :
    argument g (ts ++ rest) = some (.type t, rest) := by
  have hbegins := beginsType ht hts rest
  have hahead : Ahead.allOf [.lifetime, .notNext (.second (.mark "+"))] (ts ++ rest) = false := by
    simp [Ahead.allOf, hbegins.lifetime_eq_false]
  have hequals : Ahead.mark "=" rest = false := hrest.mark_eq_false rfl (by decide)
  have hcolon : Ahead.mark ":" rest = false := hrest.mark_eq_false rfl (by decide)
  rw [argument, Parser.bind_apply, Parser.ahead_apply, hahead]
  simp only [Option.bind_some, Bool.false_eq_true, if_false, Parser.bind_apply,
    Parser.ahead_apply, hbegins.constant_eq_false, hreads true ts rest hts hrest]
  cases bindable t with
  | none => rfl
  | some subject =>
      simp only [Parser.bind_apply, Parser.ahead_apply, hequals, hcolon, Option.bind_some,
        Bool.false_eq_true, if_false]
      rfl

/-- The grammar reads all types among these arguments. -/
def ReadsItems (g : Grammar) (items : List Argument) : Prop := ∀ t, .type t ∈ items → g.Reads t

lemma argument_takes {items : List Argument} (hitems : itemsWellSpelled items)
    (hreads : g.ReadsItems items) :
    ∀ a ∈ items, (argument g).Takes (.mark ">") Argument.spelled a := by
  intro a ha ts rest hts hrest
  have hwell := itemsWellSpelled_iff.1 hitems a ha
  cases a with
  | lifetime n =>
      rw [Argument.spelled] at hts
      refine ⟨argument_lifetime hts hrest, ?_⟩
      rw [← List.append_nil (Token.lifetime n)] at hts
      obtain ⟨p, q, ts', rfl, -⟩ := Shown.lifetime hts
      rfl
  | type t =>
      rw [Argument.spelled] at hts
      exact ⟨argument_type hwell (hreads t ha) hts hrest,
        (beginsType hwell hts rest).mark_eq_false rfl (by decide)⟩
  | other ps => exact hwell.elim

/-- **Arguments in angle brackets are parsed.** -/
lemma angled_apply {items : List Argument} (hitems : itemsWellSpelled items)
    (hreads : g.ReadsItems items) {trailing : Bool} (hempty : items = [] → trailing = true)
    (turbofish : Bool) {ts : Tokens} (rest : Tokens)
    (hts : Shown ts (Token.marks "<" ++ (commaLexemes trailing (spelledItems items)
      ++ Token.marks ">"))) :
    angled g turbofish (ts ++ rest) = some (.angled turbofish items trailing, rest) := by
  obtain ⟨joint, p, ts', rfl, hts'⟩ := Shown.operator '<' rfl hts
  obtain ⟨inner, close, rfl, hinner, hclose⟩ := Shown.append hts'
  rw [← List.append_nil (Token.marks ">")] at hclose
  obtain ⟨joint', q, ts'', rfl, hts''⟩ := Shown.operator '>' rfl hclose
  obtain rfl := Shown.nil hts''
  rw [spelledItems_eq_map] at hinner
  have hseparated : Parser.separated (.mark ">") (Parser.mark ",") (argument g)
      (inner ++ (.mark '>' joint' q :: rest))
        = some ((items, trailing), .mark '>' joint' q :: rest) :=
    separatedFuel_commas (argument_takes hitems hreads) (fun _ _ _ => rfl) rfl
      (.mark (by decide)) hempty (by rw [List.length_append]; omega) hinner
  have hopen : Parser.mark "<" (.mark '<' joint p :: (inner ++ (.mark '>' joint' q :: rest)))
      = some ((), inner ++ (.mark '>' joint' q :: rest)) := rfl
  simp only [List.cons_append, List.append_assoc, List.nil_append]
  rw [angled, Parser.bind_apply, hopen, Option.bind_some, Parser.bind_apply, hseparated]
  rfl

/-! ## Names and paths -/

/-- What may stand behind a name of a path: what may follow the path, or the next name. -/
inductive EndsName : Tokens → Prop where
  | follows {ts : Tokens} (h : Follows ts) : EndsName ts
  | name {joint : Bool} {p q r : Place} {w : String} {ts : Tokens} :
      EndsName (.mark ':' true p :: .mark ':' joint q :: .word w r :: ts)

/-- Takes the arguments behind a name. -/
def behindName (g : Grammar) (n : String) : Parser Segment := do
  let behindColons ← Parser.ahead (.allOf [.mark "::", .third (.mark "<")])
  let plain ← Parser.ahead (.allOf [.mark "<", .notNext (.mark "<=")])
  if behindColons || (!false && plain) then
    let turbofish ← Parser.optionalMark "::"
    pure (.mk n (← angled g turbofish))
  else pure (.mk n .none)

lemma segment_name {n : String} (hn : n ∉ Ahead.reserved ∨ n = "Self") (p : Place)
    (ts : Tokens) : segment g false (.word n p :: ts) = behindName g n ts := by
  rcases hn with hn | rfl
  · have hne : ∀ k ∈ Ahead.reserved, (n == k) = false := by
      intro k hk
      rw [beq_eq_false_iff_ne]
      rintro rfl
      exact hn hk
    have hfew : Ahead.oneWord ["super", "self", "crate", "try"] (.word n p :: ts) = false := by
      simp only [Ahead.oneWord, Ahead.word, List.any_cons, List.any_nil, Bool.or_false,
        Bool.or_eq_false_iff]
      exact ⟨hne _ (by decide), hne _ (by decide), hne _ (by decide), hne _ (by decide)⟩
    have hself : Ahead.word "Self" (.word n p :: ts) = false := hne _ (by decide)
    have hname : Parser.name (.word n p :: ts) = some (n, ts) := by
      have hcontains : Ahead.reserved.contains n = false := by simpa using hn
      rw [Parser.name, Parser.map_apply, Parser.placedName, hcontains]
      rfl
    rw [segment, Parser.bind_apply, Parser.ahead_apply, hfew]
    simp only [Option.bind_some, Bool.false_eq_true, if_false, Parser.bind_apply,
      Parser.ahead_apply, hself, hname]
    rfl
  · rfl

lemma behindName_none {n : String} {rest : Tokens} (hrest : EndsName rest) :
    behindName g n rest = some (.mk n .none, rest) := by
  cases hrest with
  | follows h =>
      have hcolons : Ahead.mark "::" rest = false := h.mark_eq_false rfl (by decide)
      have hangle : Ahead.mark "<" rest = false := h.mark_eq_false rfl (by decide)
      simp only [behindName, Parser.bind_apply, Parser.ahead_apply, Ahead.allOf, List.all_cons,
        hcolons, hangle, Bool.false_and, Option.bind_some, Bool.and_false, Bool.or_false,
        Bool.false_eq_true, if_false]
      rfl
  | name => rfl

/-- No equals sign is behind an opening angle bracket. -/
lemma equals_eq_false {items : List Argument} (hitems : itemsWellSpelled items) {trailing : Bool}
    {ts : Tokens}
    (hts : Shown ts (commaLexemes trailing (spelledItems items) ++ Token.marks ">"))
    (rest : Tokens) : Ahead.mark "=" (ts ++ rest) = false := by
  cases items with
  | nil =>
      rw [spelledItems, commaLexemes, List.nil_append, ← List.append_nil (Token.marks ">")] at hts
      obtain ⟨joint, p, ts', rfl, -⟩ := Shown.operator '>' rfl hts
      rfl
  | cons a items =>
      obtain ⟨k, hk⟩ : ∃ k, commaLexemes trailing (spelledItems (a :: items)) = a.spelled ++ k := by
        rw [spelledItems]
        exact commaLexemes_cons trailing a.spelled (spelledItems items)
      rw [hk, List.append_assoc] at hts
      obtain ⟨b, b', rfl, hb, -⟩ := Shown.append hts
      rw [List.append_assoc]
      cases a with
      | lifetime n =>
          rw [Argument.spelled, ← List.append_nil (Token.lifetime n)] at hb
          obtain ⟨p, q, ts', rfl, -⟩ := Shown.lifetime hb
          rfl
      | type t =>
          rw [Argument.spelled] at hb
          exact (beginsType hitems.1 hb _).mark_eq_false rfl (by decide)
      | other ps => exact hitems.1.elim

lemma behindName_angled {n : String} {items : List Argument} (hitems : itemsWellSpelled items)
    (hreads : g.ReadsItems items) {trailing : Bool} (hempty : items = [] → trailing = true)
    (turbofish : Bool) {ts : Tokens} (rest : Tokens)
    (hts : Shown ts (Arguments.angled turbofish items trailing).spelled) :
    behindName g n (ts ++ rest) = some (.mk n (.angled turbofish items trailing), rest) := by
  have hangled : ∀ ts, Shown ts (Token.marks "<" ++ (commaLexemes trailing (spelledItems items)
      ++ Token.marks ">")) →
      angled g turbofish (ts ++ rest) = some (.angled turbofish items trailing, rest) :=
    fun ts hts => angled_apply hitems hreads hempty turbofish rest hts
  rw [Arguments.spelled, List.append_assoc, List.append_assoc] at hts
  cases turbofish with
  | true =>
      obtain ⟨p, joint, q, ts', rfl, hts'⟩ := Shown.colons hts
      have happly := hangled ts' hts'
      obtain ⟨joint', r, ts'', rfl, -⟩ := Shown.operator '<' rfl hts'
      have hahead : Ahead.allOf [.mark "::", .third (.mark "<")]
          (.mark ':' true p :: .mark ':' joint q :: .mark '<' joint' r :: (ts'' ++ rest))
            = true := rfl
      have hcolons : Parser.optionalMark "::"
          (.mark ':' true p :: .mark ':' joint q :: .mark '<' joint' r :: (ts'' ++ rest))
            = some (true, .mark '<' joint' r :: (ts'' ++ rest)) := rfl
      simp only [List.cons_append, behindName, Parser.bind_apply, Parser.ahead_apply, hahead,
        Option.bind_some, Bool.true_or, if_true, hcolons]
      rw [List.cons_append] at happly
      rw [happly]
      rfl
  | false =>
      have happly := hangled ts hts
      obtain ⟨joint', r, ts', rfl, hts'⟩ := Shown.operator '<' rfl hts
      have hnot := equals_eq_false hitems hts' rest
      have hahead : Ahead.allOf [.mark "<", .notNext (.mark "<=")]
          (.mark '<' joint' r :: (ts' ++ rest)) = true := by
        have hless : Ahead.mark "<=" (.mark '<' joint' r :: (ts' ++ rest)) = false := by
          cases joint' with
          | true => exact hnot
          | false => rfl
        have hangle : Ahead.mark "<" (.mark '<' joint' r :: (ts' ++ rest)) = true := rfl
        simp [Ahead.allOf, Ahead.notNext, hless, hangle]
      have hcolons : Parser.optionalMark "::" (.mark '<' joint' r :: (ts' ++ rest))
            = some (false, .mark '<' joint' r :: (ts' ++ rest)) := by
        cases joint' <;> rfl
      simp only [List.cons_append, behindName, Parser.bind_apply, Parser.ahead_apply, hahead,
        Option.bind_some, Bool.not_false, Bool.true_and, Bool.or_true, if_true, hcolons]
      rw [List.cons_append] at happly
      rw [happly]
      rfl

/-- **A name is parsed with its arguments.** -/
lemma segment_apply {s : Segment} (hs : s.WellSpelled) (hreads : g.ReadsItems s.arguments.items)
    {ts rest : Tokens} (hts : Shown ts s.spelled) (hrest : EndsName rest) :
    segment g false (ts ++ rest) = some (s, rest) := by
  obtain ⟨n, a⟩ := s
  obtain ⟨-, hword, ha⟩ := hs
  rw [Segment.spelled] at hts
  obtain ⟨p, ts', rfl, hts'⟩ := Shown.word hts
  rw [List.cons_append]
  -- keywords that have no arguments are taken first
  by_cases hbare : n ∈ ["super", "self", "crate", "try"]
  · have hnone : a = .none := by
      have hreserved : n ∈ Ahead.reserved ∧ n ≠ "Self" := by
        simp only [List.mem_cons, List.not_mem_nil, or_false] at hbare
        rcases hbare with rfl | rfl | rfl | rfl <;> decide
      rcases hword with hword | hword | ⟨hword, -⟩
      · exact absurd hreserved.1 hword
      · exact absurd hword hreserved.2
      · cases a <;> simp_all [Arguments.isNone]
    subst hnone
    rw [Arguments.spelled] at hts'
    obtain rfl := Shown.nil hts'
    simp only [List.mem_cons, List.not_mem_nil, or_false] at hbare
    rcases hbare with rfl | rfl | rfl | rfl <;> rfl
  · have hname : n ∉ Ahead.reserved ∨ n = "Self" := by
      rcases hword with hword | hword | ⟨-, hword⟩
      · exact .inl hword
      · exact .inr hword
      · refine absurd ?_ hbare
        simp only [List.mem_cons, List.not_mem_nil, or_false] at hword ⊢
        tauto
    rw [segment_name hname]
    cases a with
    | none =>
        rw [Arguments.spelled] at hts'
        obtain rfl := Shown.nil hts'
        exact behindName_none hrest
    | angled turbofish items trailing =>
        exact behindName_angled ha.1 hreads ha.2 turbofish rest hts'
    | called ps => exact ha.elim

/-- The grammar reads all types among the arguments of these names. -/
def ReadsNames (g : Grammar) (ss : List Segment) : Prop :=
  ∀ s ∈ ss, g.ReadsItems s.arguments.items

/-- Names behind two colons are parsed one by one. -/
lemma whileFuel_segments {ss : List Segment} (hss : segmentsWellSpelled ss)
    (hreads : g.ReadsNames ss) {rest : Tokens} (hrest : Follows rest) {n : Nat} {ts : Tokens}
    (hn : ts.length < n) (hts : Shown ts (ss.flatMap fun s => colons ++ s.spelled)) :
    Parser.whileFuel (.allOf [.mark "::", .notNext (.third (.group .parenthesis))])
      (do Parser.mark "::"; segment g false) n (ts ++ rest) = some (ss, rest)
      ∧ EndsName (ts ++ rest) := by
  induction ss generalizing n ts with
  | nil =>
      obtain ⟨n, rfl⟩ : ∃ m, n = m + 1 := ⟨n - 1, by omega⟩
      obtain rfl := Shown.nil hts
      have hcolons : Ahead.mark "::" rest = false := hrest.mark_eq_false rfl (by decide)
      refine ⟨?_, .follows hrest⟩
      rw [List.nil_append, Parser.whileFuel, Parser.bind_apply, Parser.ahead_apply]
      simp only [Ahead.allOf, List.all_cons, hcolons, Bool.false_and, Option.bind_some,
        Bool.false_eq_true, if_false]
      rfl
  | cons s ss ih =>
      obtain ⟨n, rfl⟩ : ∃ m, n = m + 1 := ⟨n - 1, by omega⟩
      rw [List.flatMap_cons, List.append_assoc] at hts
      obtain ⟨p, joint, q, ts', rfl, hts'⟩ := Shown.colons hts
      obtain ⟨a, b, rfl, ha, hb⟩ := Shown.append hts'
      obtain ⟨hs, hss⟩ := hss
      obtain ⟨hreadsS, hreadsSs⟩ := List.forall_mem_cons.1 hreads
      simp only [List.length_cons, List.length_append] at hn
      obtain ⟨hbehind, hends⟩ := ih hss hreadsSs (by omega : b.length < n) hb
      have hsegment := segment_apply hs hreadsS ha hends
      obtain ⟨r, a', hword⟩ : ∃ r a', a = .word s.name r :: a' := by
        obtain ⟨m, arguments⟩ := s
        rw [Segment.spelled] at ha
        obtain ⟨r, a', rfl, -⟩ := Shown.word ha
        exact ⟨r, a', rfl⟩
      have hahead : Ahead.allOf [.mark "::", .notNext (.third (.group .parenthesis))]
          (.mark ':' true p :: .mark ':' joint q :: (a ++ (b ++ rest))) = true := by
        rw [hword]
        rfl
      have hcolons : Parser.mark "::" (.mark ':' true p :: .mark ':' joint q :: (a ++ (b ++ rest)))
          = some ((), a ++ (b ++ rest)) := rfl
      constructor
      · simp only [List.cons_append, List.append_assoc, Parser.whileFuel, Parser.bind_apply,
          Parser.ahead_apply, hahead, Option.bind_some, if_true, hcolons, hsegment, hbehind]
        rfl
      · rw [hword]
        exact .name

/-- **A path is parsed.** -/
lemma path_apply {p : Path} (hp : p.WellSpelled) (hreads : g.ReadsNames p.segments)
    {ts rest : Tokens} (hts : Shown ts p.spelled) (hrest : Follows rest) :
    path g false (ts ++ rest) = some (p, rest) := by
  obtain ⟨r, segments⟩ := p
  obtain ⟨hsegments, hne, -⟩ := hp
  obtain ⟨s, ss, rfl⟩ := List.exists_cons_of_ne_nil hne
  rw [Path.spelled_cons] at hts
  obtain ⟨root, names, rfl, hroot, hnames⟩ := Shown.append hts
  obtain ⟨a, b, rfl, ha, hb⟩ := Shown.append hnames
  obtain ⟨hreadsS, hreadsSs⟩ := List.forall_mem_cons.1 hreads
  obtain ⟨hmore, hends⟩ := whileFuel_segments hsegments.2 hreadsSs hrest
    (by rw [List.length_append]; omega : b.length < (b ++ rest).length + 1) hb
  have hfirst := segment_apply hsegments.1 hreadsS ha hends
  have hroots :
      Parser.optionalMark "::" (root ++ (a ++ b) ++ rest) = some (r, a ++ (b ++ rest)) := by
    cases r with
    | true =>
        rw [if_pos rfl, ← List.append_nil colons] at hroot
        obtain ⟨p, joint, q, ts', rfl, hnil⟩ := Shown.colons hroot
        obtain rfl := Shown.nil hnil
        rw [List.append_assoc, List.append_assoc]
        rfl
    | false =>
        obtain rfl := Shown.nil hroot
        obtain ⟨n, arguments⟩ := s
        rw [Segment.spelled] at ha
        obtain ⟨p, a', rfl, -⟩ := Shown.word ha
        rw [List.nil_append, List.append_assoc]
        rfl
  rw [path, Parser.bind_apply, hroots, Option.bind_some, Parser.bind_apply, hfirst,
    Option.bind_some, Parser.bind_apply, Parser.repeatWhile, hmore]
  rfl

/-! ## Types -/

/-- A path is taken for a type if neither a macro call nor a sum of bounds follows. -/
lemma pathType_apply {p : Path} {ts rest : Tokens}
    (hangle : Ahead.mark "<" (ts ++ rest) = false)
    (hpath : path g false (ts ++ rest) = some (p, rest)) (hrest : Follows rest) (plus : Bool) :
    pathType g plus [] (ts ++ rest) = some (.path p, rest) := by
  have hbang : Ahead.mark "!" rest = false := hrest.mark_eq_false rfl (by decide)
  have hplus : Ahead.mark "+" rest = false := hrest.mark_eq_false rfl (by decide)
  have hqualified : qualifiedPath g false (ts ++ rest) = some ((none, p), rest) := by
    rw [qualifiedPath, Parser.bind_apply, Parser.ahead_apply, hangle]
    simp only [Option.bind_some, Bool.false_eq_true, if_false, Parser.bind_apply, hpath]
    rfl
  rw [pathType, Parser.bind_apply, hqualified]
  simp only [Option.bind_some, Parser.bind_apply, Parser.ahead_apply, Ahead.allOf, List.all_cons,
    hbang, Bool.false_and, Bool.and_false, hplus, List.isEmpty_nil, Bool.not_true, Bool.or_false,
    Bool.false_eq_true, if_false]
  rfl

lemma typeStep_word {w : String} (hw : IsFirstWord w) (p : Place) (ts : Tokens) (plus : Bool) :
    typeStep g plus (.word w p :: ts) = pathType g plus [] (.word w p :: ts) := by
  have hne : ∀ k, k ∈ Ahead.reserved → k ∉ pathWords →
      Ahead.word k (.word w p :: ts) = false := fun k hk hk' =>
    (BeginsType.word hw).word_eq_false hk hk'
  have hpointer : pointerAhead (.word w p :: ts) = false := by
    have hfn := hne "fn" (by decide) (by decide)
    have hunsafe := hne "unsafe" (by decide) (by decide)
    have hextern := hne "extern" (by decide) (by decide)
    simp only [pointerAhead, Ahead.oneWord, List.any_cons, List.any_nil, hfn, hunsafe, hextern,
      Bool.or_false]
  have hplain : plainSegmentAhead (.word w p :: ts) = true := by
    rcases hw with hw | hw
    · simp [plainSegmentAhead, Ahead.anyOf, Ahead.name, hw]
    · simp [plainSegmentAhead, Ahead.anyOf, Ahead.oneWord, Ahead.word, hw]
  have hfor := hne "for" (by decide) (by decide)
  have hbinder : Parser.when (.word "for") (binder g) (.word w p :: ts)
      = some ([], .word w p :: ts) := by
    rw [Parser.when, Parser.bind_apply, Parser.ahead_apply, hfor]
    rfl
  have hpath : Ahead.anyOf [plainSegmentAhead, .mark "::", .mark "<"] (.word w p :: ts) = true := by
    rw [Ahead.anyOf, List.any_cons, hplain, Bool.true_or]
  have hempty : (!(List.isEmpty ([] : Pieces))) = false := rfl
  rw [typeStep, Parser.bind_apply, hbinder, Option.bind_some,
    if_neg (by rw [hempty]; exact Bool.false_ne_true)]
  exact (Parser.ahead_neg rfl).trans
    ((Parser.ahead_neg hpointer).trans (Parser.ahead_pos hpath))

/-- **A path is parsed as a type.** -/
lemma typeStep_path {p : Path} (hp : (Ty.path p).WellSpelled) (hreads : g.ReadsNames p.segments)
    (plus : Bool) {ts rest : Tokens} (hts : Shown ts (Ty.path p).spelled)
    (hrest : Follows rest) : typeStep g plus (ts ++ rest) = some (.path p, rest) := by
  have hangle : Ahead.mark "<" (ts ++ rest) = false :=
    (beginsType hp hts rest).mark_eq_false rfl (by decide)
  rw [Ty.spelled] at hts
  have hstep : typeStep g plus (ts ++ rest) = pathType g plus [] (ts ++ rest) := by
    rcases beginsPath hp hts with ⟨w, q, b, rfl, hw⟩ | ⟨q, joint, r, b, rfl⟩
    · exact typeStep_word hw q (b ++ rest) plus
    · rfl
  rw [hstep]
  exact pathType_apply hangle (path_apply hp hreads hts hrest) hrest plus

lemma typeStep_reference {l : Option String} {m : Bool} {t : Ty} (ht : t.WellSpelled)
    (hreads : g.Reads t) (plus : Bool) {ts rest : Tokens}
    (hts : Shown ts (Ty.reference l m t).spelled) (hrest : Follows rest) :
    typeStep g plus (ts ++ rest) = some (.reference l m t, rest) := by
  have hstep : ∀ joint p ts, typeStep g plus (.mark '&' joint p :: ts) = (do
      let l ← Parser.optionalLifetime
      let m ← Parser.optionalWord "mut"
      pure (.reference l m (← g.type false)) : Parser Ty) ts := by
    intro joint p ts
    cases joint <;> rfl
  have htype : ∀ ts, Shown ts t.spelled → g.type false (ts ++ rest) = some (t, rest) :=
    fun ts hts => hreads false ts rest hts hrest
  have hmut : ∀ ts, Shown ts ((if m then [.word "mut" ()] else []) ++ t.spelled) →
      ∃ ts', Shown ts' t.spelled
        ∧ Parser.optionalWord "mut" (ts ++ rest) = some (m, ts' ++ rest)
        ∧ Ahead.lifetime (ts ++ rest) = false := by
    intro ts hts
    cases m with
    | true =>
        obtain ⟨p, ts', rfl, hts'⟩ := Shown.word hts
        exact ⟨ts', hts', rfl, rfl⟩
    | false =>
        have hbegins := beginsType ht hts rest
        refine ⟨ts, hts, ?_, hbegins.lifetime_eq_false⟩
        exact Parser.ahead_neg (hbegins.word_eq_false (by decide) (by decide))
  have hlifetime : ∀ ts, Shown ts (l.elim [] Token.lifetime
      ++ ((if m then [.word "mut" ()] else []) ++ t.spelled)) →
      ∃ ts', Shown ts' ((if m then [.word "mut" ()] else []) ++ t.spelled)
        ∧ Parser.optionalLifetime (ts ++ rest) = some (l, ts' ++ rest) := by
    intro ts hts
    cases l with
    | some n =>
        obtain ⟨p, q, ts', rfl, hts'⟩ := Shown.lifetime hts
        exact ⟨ts', hts', rfl⟩
    | none =>
        obtain ⟨-, -, -, hnot⟩ := hmut ts hts
        exact ⟨ts, hts, Parser.ahead_neg hnot⟩
  have hspelled : (Ty.reference l m t).spelled = Token.marks "&"
      ++ (l.elim [] Token.lifetime ++ ((if m then [.word "mut" ()] else []) ++ t.spelled)) := by
    cases l <;> simp only [Ty.spelled, Option.elim, List.append_assoc]
  rw [hspelled] at hts
  obtain ⟨joint, p, ts₁, rfl, hts₁⟩ := Shown.operator '&' rfl hts
  obtain ⟨ts₂, hts₂, heq₁⟩ := hlifetime ts₁ hts₁
  obtain ⟨ts₃, hts₃, heq₂, -⟩ := hmut ts₂ hts₂
  rw [List.cons_append, hstep, Parser.bind_apply, heq₁, Option.bind_some, Parser.bind_apply, heq₂,
    Option.bind_some, Parser.bind_apply, htype ts₃ hts₃]
  rfl

lemma typeStep_slice {e : Ty} (hreads : g.Reads e) (plus : Bool) {ts : Tokens} (rest : Tokens)
    (hts : Shown ts (Ty.slice e).spelled) :
    typeStep g plus (ts ++ rest) = some (.slice e, rest) := by
  rw [Ty.spelled] at hts
  obtain ⟨inner, p, ts', rfl, hinner, hnil⟩ := Shown.group hts
  obtain rfl := Shown.nil hnil
  have hstep : typeStep g plus (.group .bracket inner p :: rest)
      = Parser.inside .bracket (bracketed g) (.group .bracket inner p :: rest) := rfl
  have hbracketed : bracketed g inner = some (.slice e, []) := by
    have helement := hreads true inner [] hinner .nil
    rw [List.append_nil] at helement
    rw [bracketed, Parser.bind_apply, helement]
    rfl
  rw [List.cons_append, List.nil_append, hstep, Parser.inside, if_pos rfl, Parser.all, hbracketed]
  rfl

/-- The grammar reads a whole number as an expression. -/
def ReadsNumbers (g : Grammar) : Prop :=
  ∀ d p, g.expression true [.literal d p] = some (⟨[.token (.literal d ())], .plain⟩, [])

lemma typeStep_array {e : Ty} {d : String} (hreads : g.Reads e) (hnumbers : g.ReadsNumbers)
    (plus : Bool) {ts : Tokens} (rest : Tokens)
    (hts : Shown ts (Ty.array e [.token (.literal d ())]).spelled) :
    typeStep g plus (ts ++ rest) = some (.array e [.token (.literal d ())], rest) := by
  rw [Ty.spelled, List.append_assoc] at hts
  obtain ⟨inner, p, ts', rfl, hinner, hnil⟩ := Shown.group hts
  obtain rfl := Shown.nil hnil
  obtain ⟨a, b, rfl, ha, hb⟩ := Shown.append hinner
  obtain ⟨joint, q, b', rfl, hb'⟩ := Shown.operator ';' rfl hb
  obtain ⟨r, b'', rfl, hb''⟩ := Shown.literal (l := []) hb'
  obtain rfl := Shown.nil hb''
  have hstep : ∀ inner, typeStep g plus (.group .bracket inner p :: rest)
      = Parser.inside .bracket (bracketed g) (.group .bracket inner p :: rest) := fun _ => rfl
  have hbracketed : bracketed g (a ++ [.mark ';' joint q, .literal d r])
      = some (.array e [.token (.literal d ())], []) := by
    have helement := hreads true a [.mark ';' joint q, .literal d r] ha (.mark (by decide))
    have hsemicolon : Parser.optionalMark ";" [.mark ';' joint q, .literal d r]
        = some (true, [.literal d r]) := rfl
    rw [bracketed, Parser.bind_apply, helement, Option.bind_some, Parser.bind_apply, hsemicolon]
    simp only [Option.bind_some, if_true, Parser.bind_apply, expressionPieces, hnumbers d r]
    rfl
  rw [List.cons_append, List.nil_append, hstep, Parser.inside, if_pos rfl, Parser.all, hbracketed]
  rfl

/-- A type in parentheses is parsed from what the parentheses hold. -/
lemma typeStep_parenthesis {inner : Tokens} {found : Parenthesized}
    (hfound : parenthesized g inner = some (found, [])) (plus : Bool) (p : Place) (rest : Tokens) :
    typeStep g plus (.group .parenthesis inner p :: rest) = (match found with
      | .empty => pure (.tuple [] false)
      | .object ps => pure (.parenthesized (.traitObject ps))
      | .relaxed ps => do pure (.traitObject (.group .parenthesis ps :: (← addedBounds g)))
      | .tuple es trailing => pure (.tuple es trailing)
      | .one t => do
          if plus && (← Parser.ahead (.mark "+")) then
            match parenthesizedBound t with
            | some ps => pure (.traitObject (ps ++ (← addedBounds g)))
            | none => pure (.parenthesized t)
          else pure (.parenthesized t) : Parser Ty) rest := by
  have hstep : typeStep g plus (.group .parenthesis inner p :: rest)
      = parenthesizedType g plus (.group .parenthesis inner p :: rest) := rfl
  have hinside : Parser.inside .parenthesis (parenthesized g) (.group .parenthesis inner p :: rest)
      = some (found, rest) := by
    rw [Parser.inside, if_pos rfl, Parser.all, hfound]
    rfl
  rw [hstep, parenthesizedType, Parser.bind_apply, hinside, Option.bind_some]
  cases found <;> rfl

/-- What is in the parentheses begins with a type. -/
lemma parenthesized_apply {t : Ty} (ht : t.WellSpelled) {a b : Tokens} (ha : Shown a t.spelled)
    (hreads : g.Reads t) (hb : Follows b) : parenthesized g (a ++ b) = (do
      if ← Parser.ahead (.mark ",") then
        Parser.mark ","
        let (rest, trailing) ← Parser.commas (g.type true)
        pure (.tuple (t :: rest) trailing)
      else pure (.one t) : Parser Parenthesized) b := by
  have hbegins := beginsType ht ha b
  have hquestion : Ahead.mark "?" (a ++ b) = false := hbegins.mark_eq_false rfl (by decide)
  refine (Parser.ahead_neg hbegins.nothing_eq_false).trans
    ((Parser.ahead_neg hbegins.lifetime_eq_false).trans
      ((Parser.ahead_neg hquestion).trans ?_))
  rw [Parser.bind_apply, hreads true a b ha hb, Option.bind_some]

/-- The grammar reads all these types. -/
def ReadsTypes (g : Grammar) (ts : List Ty) : Prop := ∀ t ∈ ts, g.Reads t

lemma type_takes {es : List Ty} (hes : typesWellSpelled es) (hreads : g.ReadsTypes es) :
    ∀ e ∈ es, (g.type true).Takes .nothing Ty.spelled e := by
  intro e he ts rest hts hrest
  exact ⟨hreads e he true ts rest hts hrest,
    (beginsType (typesWellSpelled_iff.1 hes e he) hts rest).nothing_eq_false⟩

lemma typeStep_parenthesized {t : Ty} (ht : t.WellSpelled) (hreads : g.Reads t) (plus : Bool)
    {ts rest : Tokens} (hts : Shown ts (Ty.parenthesized t).spelled) (hrest : Follows rest) :
    typeStep g plus (ts ++ rest) = some (.parenthesized t, rest) := by
  rw [Ty.spelled] at hts
  obtain ⟨inner, p, ts', rfl, hinner, hnil⟩ := Shown.group hts
  obtain rfl := Shown.nil hnil
  have hplus : Ahead.mark "+" rest = false := hrest.mark_eq_false rfl (by decide)
  have hone := parenthesized_apply ht hinner hreads .nil
  rw [List.append_nil] at hone
  rw [List.cons_append, List.nil_append, typeStep_parenthesis (hone.trans rfl)]
  simp only [Parser.bind_apply, Parser.ahead_apply, Option.bind_some, hplus, Bool.and_false,
    Bool.false_eq_true, if_false]
  rfl

lemma typeStep_tuple {es : List Ty} {trailing : Bool} (h : (Ty.tuple es trailing).WellSpelled)
    (hreads : g.ReadsTypes es) (plus : Bool) {ts : Tokens} (rest : Tokens)
    (hts : Shown ts (Ty.tuple es trailing).spelled) :
    typeStep g plus (ts ++ rest) = some (.tuple es trailing, rest) := by
  obtain ⟨hes, hempty, hone⟩ := h
  rw [Ty.spelled] at hts
  obtain ⟨inner, p, ts', rfl, hinner, hnil⟩ := Shown.group hts
  obtain rfl := Shown.nil hnil
  rw [List.cons_append, List.nil_append]
  cases es with
  | nil =>
      rw [hempty rfl]
      obtain rfl := Shown.nil hinner
      rfl
  | cons e es =>
      obtain ⟨hreadsE, hreadsEs⟩ := List.forall_mem_cons.1 hreads
      -- a tuple of one type has a comma behind it
      obtain ⟨a, b, rfl, ha, hb⟩ : ∃ a b, inner = a ++ b ∧ Shown a e.spelled
          ∧ Shown b (Token.marks "," ++ commaLexemes trailing (spelledTypes es)) := by
        rw [spelledTypes] at hinner
        cases es with
        | nil =>
            rw [spelledTypes, commaLexemes, hone rfl, if_pos rfl] at hinner
            obtain ⟨a, b, rfl, ha, hb⟩ := Shown.append hinner
            exact ⟨a, b, rfl, ha, by simpa [spelledTypes, commaLexemes] using hb⟩
        | cons e' es =>
            rw [spelledTypes, commaLexemes, List.append_assoc, ← spelledTypes] at hinner
            · exact Shown.append hinner
            · simp
      obtain ⟨joint, q, b', rfl, hb'⟩ := Shown.operator ',' rfl hb
      have hcommas : Parser.commas (g.type true) b' = some ((es, trailing), []) := by
        have htaken := separatedFuel_commas (type_takes hes.2 hreadsEs) (fun _ _ _ => rfl) rfl .nil
          (fun hnil => hone (by rw [hnil]; rfl)) (Nat.lt_succ_self b'.length)
          (by rwa [← spelledTypes_eq_map])
        rw [List.append_nil] at htaken
        exact htaken
      have htuple : parenthesized g (a ++ .mark ',' joint q :: b')
          = some (.tuple (e :: es) trailing, []) := by
        rw [parenthesized_apply hes.1 ha hreadsE (.mark (by decide))]
        refine (Parser.ahead_pos rfl).trans ?_
        have hcomma : Parser.mark "," (.mark ',' joint q :: b') = some ((), b') := rfl
        rw [Parser.bind_apply, hcomma, Option.bind_some, Parser.bind_apply, hcommas]
        rfl
      rw [typeStep_parenthesis htuple]
      rfl

end Grammar

end FieldCopy.Source
