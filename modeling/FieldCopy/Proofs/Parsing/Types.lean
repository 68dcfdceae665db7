import Mathlib
import FieldCopy.Proofs.Parsing.Fronts
import FieldCopy.Proofs.TypeRecursion

/-!
# Words in parsed types

The names that a parsed type is looked up by are words of its text, and so are the lifetimes of its
references (`Ty.Spoken`).  Nothing is asked of the parts that are kept as they are written.

**What parsers give.**  From worded tokens a parser gives what is as required (`Parser.Gives`).  A
parser that takes tokens from the front leaves worded tokens, so the rules follow the definitions of
parsers.

**Main statement.**  `Grammar.heard_atDepth`: the types that are parsed are spoken, and spelled with
words if they are plain (`Ty.Heard`), however deep parts may be nested in them.
-/

namespace FieldCopy.Source

/-! ## Spoken types -/

mutual

/-- The names and lifetimes that a type is looked up by are words. -/
def Ty.Spoken : Ty → Prop
  | .parenthesized t | .slice t | .array t _ => t.Spoken
  | .reference l _ t => (∀ n ∈ l, IsWord n) ∧ t.Spoken
  | .path p => p.Spoken
  | .tuple _ _ | .qualified _ _ _ | .traitObject _ | .implTrait _ | .other _ => True

/-- A path has names, which are words, and the types in its arguments are spoken. -/
def Path.Spoken : Path → Prop
  | .mk _ segments => segmentsSpoken segments ∧ segments ≠ []

/-- Some names are words, and the types in their arguments are spoken. -/
def segmentsSpoken : List Segment → Prop
  | [] => True
  | s :: rest => s.Spoken ∧ segmentsSpoken rest

/-- A name is a word that can be a name of a path, and the types in its arguments are spoken. -/
def Segment.Spoken : Segment → Prop
  | .mk n a => IsWord n ∧ IsPathWord a.isNone n ∧ a.Spoken

/-- The types in arguments are spoken. -/
def Arguments.Spoken : Arguments → Prop
  | .angled _ items _ => itemsSpoken items
  | .none | .called _ => True

/-- The types among some arguments are spoken. -/
def itemsSpoken : List Argument → Prop
  | [] => True
  | a :: rest => a.Spoken ∧ itemsSpoken rest

/-- The argument is no type, or it is spoken, and spelled with words if it is plain. -/
def Argument.Spoken : Argument → Prop
  | .type t => t.Spoken ∧ (t.Plain → t.WellSpelled)
  | .lifetime _ | .other _ => True

end

lemma segmentsSpoken_iff {ss : List Segment} : segmentsSpoken ss ↔ ∀ s ∈ ss, s.Spoken := by
  induction ss with
  | nil => simp [segmentsSpoken]
  | cons s rest ih => rw [segmentsSpoken, ih, List.forall_mem_cons]

lemma itemsSpoken_iff {items : List Argument} : itemsSpoken items ↔ ∀ a ∈ items, a.Spoken := by
  induction items with
  | nil => simp [itemsSpoken]
  | cons a rest ih => rw [itemsSpoken, ih, List.forall_mem_cons]

lemma Path.Spoken.segments : ∀ {p : Path}, p.Spoken → ∀ s ∈ p.segments, s.Spoken
  | .mk _ _, h => segmentsSpoken_iff.1 h.1

/-- A type is looked up by words, and spelled with words if it is plain. -/
structure Ty.Heard (t : Ty) : Prop where
  spoken : t.Spoken
  plain : t.Plain → t.WellSpelled

lemma Segment.Spoken.name : ∀ {s : Segment}, s.Spoken → IsWord s.name
  | .mk _ _, h => h.1

lemma Segment.Spoken.items : ∀ {s : Segment}, s.Spoken → ∀ a ∈ s.arguments.items, a.Spoken
  | .mk _ (.angled _ _ _), h => itemsSpoken_iff.1 h.2.2
  | .mk _ .none, _ | .mk _ (.called _), _ => List.forall_mem_nil _

lemma Segment.Spoken.types {s : Segment} (h : s.Spoken) : ∀ t ∈ s.arguments.types, t.Heard :=
  fun _ ht =>
    have hspoken := h.items _ (Arguments.mem_types.1 ht)
    ⟨hspoken.1, hspoken.2⟩

mutual

/-- **A type that is spelled with words is spoken.** -/
theorem Ty.WellSpelled.spoken : ∀ {t : Ty}, t.WellSpelled → t.Spoken
  | .path (.mk _ segments), h => ⟨segmentsSpoken_of_wellSpelled segments h.1, h.2.1⟩
  | .reference _ _ t, h => ⟨h.1, Ty.WellSpelled.spoken (t := t) h.2⟩
  | .slice t, h => Ty.WellSpelled.spoken (t := t) h
  | .array t _, h => Ty.WellSpelled.spoken (t := t) h.1
  | .tuple _ _, _ => trivial
  | .parenthesized t, h => Ty.WellSpelled.spoken (t := t) h
  | .qualified _ _ _, h | .traitObject _, h | .implTrait _, h | .other _, h => h.elim

lemma segmentsSpoken_of_wellSpelled : ∀ ss : List Segment, segmentsWellSpelled ss →
    segmentsSpoken ss
  | [], _ => trivial
  | .mk _ a :: rest, h =>
      ⟨⟨h.1.1, h.1.2.1, Arguments.spoken_of_wellSpelled a h.1.2.2⟩,
        segmentsSpoken_of_wellSpelled rest h.2⟩

lemma Arguments.spoken_of_wellSpelled : ∀ a : Arguments, a.WellSpelled → a.Spoken
  | .none, _ => trivial
  | .angled _ items _, h => itemsSpoken_of_wellSpelled items h.1
  | .called _, h => h.elim

lemma itemsSpoken_of_wellSpelled : ∀ items : List Argument, itemsWellSpelled items →
    itemsSpoken items
  | [], _ => trivial
  | .lifetime _ :: rest, h => ⟨trivial, itemsSpoken_of_wellSpelled rest h.2⟩
  | .type t :: rest, h =>
      ⟨⟨Ty.WellSpelled.spoken (t := t) h.1, fun _ => h.1⟩, itemsSpoken_of_wellSpelled rest h.2⟩
  | .other _ :: _, h => h.1.elim

end

/-! ## What parsers give -/

namespace Parser

variable {α β : Type} {p q : Parser α} {P : α → Prop} {Q : β → Prop}

/-- From worded tokens, a parser gives what is as required. -/
def Gives (p : Parser α) (P : α → Prop) : Prop :=
  ∀ ⦃ts a rest⦄, AllWorded ts → p ts = some (a, rest) → P a

lemma gives_name : name.Gives IsWord := by
  intro ts n rest hts h
  obtain ⟨p, rfl, -⟩ := name_eq_some h
  exact hts.isWord

lemma gives_anyWord : anyWord.Gives IsWord := by
  intro ts n rest hts h
  obtain ⟨p, rfl⟩ := anyWord_eq_some h
  exact hts.isWord

lemma gives_optionalLifetime : optionalLifetime.Gives fun l => ∀ n ∈ l, IsWord n :=
  fun _ _ _ hts h => (sound_optionalLifetime hts h trivial).1

/-- Nothing is given. -/
lemma gives_none (P : α → Prop) : (pure none : Parser (Option α)).Gives fun x => ∀ a ∈ x, P a :=
  fun _ _ _ _ h => (pure_eq_some h).1 ▸ fun _ ha => absurd ha (Option.not_mem_none _)

namespace Gives

lemma trivially : p.Gives fun _ => True := fun _ _ _ _ _ => trivial

lemma pure {a : α} (h : P a) : (Pure.pure a : Parser α).Gives P := fun _ _ _ _ ha =>
  (pure_eq_some ha).1 ▸ h

lemma failure : (Alternative.failure : Parser α).Gives P := fun _ _ _ _ h =>
  absurd h (by simp [Alternative.failure, StateT.failure])

/-- What is given first may matter to what is given then. -/
lemma bindWith [p.TakesFront] (hp : p.Gives P) {f : α → Parser β}
    (hf : ∀ a, P a → (f a).Gives Q) : (p >>= f).Gives Q := by
  intro ts b rest hts h
  obtain ⟨a, ts', ha, hb⟩ := bind_eq_some h
  exact hf a (hp hts ha) (fun t ht => hts t ((TakesFront.suffix ha).mem ht)) hb

lemma bind [p.TakesFront] {f : α → Parser β} (hf : ∀ a, (f a).Gives Q) : (p >>= f).Gives Q :=
  bindWith trivially fun a _ => hf a

lemma map {f : α → β} (hp : p.Gives P) (hf : ∀ a, P a → Q (f a)) : (f <$> p).Gives Q := by
  intro ts b rest hts h
  rw [map_apply] at h
  obtain ⟨⟨a, ts'⟩, ha, h⟩ := Option.map_eq_some_iff.1 h
  obtain ⟨rfl, -⟩ := Prod.mk.inj h
  exact hf a (hp hts ha)

/-- What is made of whatever is given may be as required without what is given. -/
lemma made {f : α → β} (h : ∀ a, Q (f a)) : (do Pure.pure (f (← p)) : Parser β).Gives Q := by
  intro ts b rest _ hb
  obtain ⟨a, ts', -, hb⟩ := bind_eq_some hb
  obtain ⟨rfl, -⟩ := pure_eq_some hb
  exact h a

/-- What is made of what is given. -/
lemma madeOf {f : α → β} (hp : p.Gives P) (h : ∀ a, P a → Q (f a)) :
    (do Pure.pure (f (← p)) : Parser β).Gives Q := by
  intro ts b rest hts hb
  obtain ⟨a, ts', ha, hb⟩ := bind_eq_some hb
  obtain ⟨rfl, -⟩ := pure_eq_some hb
  exact h a (hp hts ha)

lemma orElse (hp : p.Gives P) (hq : q.Gives P) : (p <|> q).Gives P := fun _ _ _ hts h =>
  (orElse_cases h).elim (hp hts) (hq hts)

lemma ite {c : Prop} [Decidable c] (hp : p.Gives P) (hq : q.Gives P) :
    (if c then p else q).Gives P := by
  split <;> assumption

lemma ahead {a : Ahead} (hp : p.Gives P) (hq : q.Gives P) :
    (do if ← Parser.ahead a then p else q).Gives P := bind fun _ => ite hp hq

lemma inside {d : Delimiter} (hp : p.Gives P) : (Parser.inside d p).Gives P := by
  intro ts a rest hts h
  obtain ⟨inner, place, rfl, ha⟩ := inside_eq_some h
  exact hp hts.inner ha

lemma whileFuel [p.TakesFront] (hp : p.Gives P) (a : Ahead) (n : Nat) :
    (Parser.whileFuel a p n).Gives fun xs => ∀ x ∈ xs, P x := by
  induction n with
  | zero => exact pure (List.forall_mem_nil P)
  | succ n ih =>
      refine ahead (bindWith hp fun _ hx => bindWith ih fun _ hxs => ?_) ?_
      · exact pure (List.forall_mem_cons.2 ⟨hx, hxs⟩)
      · exact pure (List.forall_mem_nil P)

lemma repeatWhile [p.TakesFront] (hp : p.Gives P) (a : Ahead) :
    (Parser.repeatWhile a p).Gives fun xs => ∀ x ∈ xs, P x := fun _ _ _ hts h =>
  hp.whileFuel _ _ hts h

lemma untilEnd [p.TakesFront] (hp : p.Gives P) :
    (Parser.untilEnd p).Gives fun xs => ∀ x ∈ xs, P x := hp.repeatWhile _

lemma separatedFuel {γ : Type} [p.TakesFront] (hp : p.Gives P) (stop : Ahead)
    (separator : Parser γ) [separator.TakesFront] (n : Nat) :
    (Parser.separatedFuel stop separator p n).Gives fun x => ∀ a ∈ x.1, P a := by
  induction n with
  | zero => exact failure
  | succ n ih =>
      refine ahead (pure (List.forall_mem_nil P)) (bindWith hp fun _ hx => ?_)
      refine ahead (pure (List.forall_mem_singleton.2 hx)) (bind fun _ => ?_)
      refine bindWith ih fun _ hxs => ?_
      exact pure (List.forall_mem_cons.2 ⟨hx, hxs⟩)

lemma separated {γ : Type} [p.TakesFront] (hp : p.Gives P) (stop : Ahead) (separator : Parser γ)
    [separator.TakesFront] :
    (Parser.separated stop separator p).Gives fun x => ∀ a ∈ x.1, P a := fun _ _ _ hts h =>
  hp.separatedFuel _ _ _ hts h

end Gives

end Parser

/-! ## Types -/

namespace Grammar

open Source.Parser

variable {g : Grammar} [g.TakesFront] (hg : ∀ plus, (g.type plus).Gives Ty.Heard)

include hg

lemma gives_argument : (argument g).Gives Argument.Spoken := by
  refine .ahead (.made fun _ => trivial) (.ahead (.made fun _ => trivial) ?_)
  refine .bindWith (hg true) fun t ht => ?_
  have htype : (pure (.type t) : Parser Argument).Gives Argument.Spoken :=
    .pure ⟨ht.spoken, ht.plain⟩
  split
  · refine .ahead (.bind fun _ => ?_) (.ahead (.bind fun _ => .made fun _ => trivial) htype)
    exact .ahead (.bind fun _ => .pure trivial) (.bind fun _ => .pure trivial)
  · exact htype

lemma gives_angled (turbofish : Bool) : (angled g turbofish).Gives Arguments.Spoken :=
  .bind fun _ => .bindWith ((gives_argument hg).separated _ _) fun _ hitems =>
    .bind fun _ => .pure (itemsSpoken_iff.2 hitems)

lemma gives_segment : (segment g false).Gives Segment.Spoken := by
  have hbehind : ∀ n, IsWord n → (∀ bare, IsPathWord bare n) →
      (behindName g n).Gives Segment.Spoken := fun n hn hpath =>
    .bind fun _ => .bind fun _ => .ite
      (.bind fun _ => .madeOf (gives_angled hg _) fun _ ha => ⟨hn, hpath _, ha⟩)
      (.pure ⟨hn, hpath _, trivial⟩)
  intro ts s rest hts h
  obtain ⟨p, ts', rfl, ⟨hn, hnone, -⟩ | ⟨hn, h⟩⟩ := segment_cases h
  · obtain ⟨n, a⟩ := s
    obtain rfl : a = .none := hnone
    exact ⟨hts.isWord, .inr (.inr ⟨rfl, hn⟩), trivial⟩
  · exact hbehind _ hts.isWord (fun _ => hn.imp_right .inl) hts.tail h

lemma gives_path : (path g false).Gives Path.Spoken := by
  have hmore : (do mark "::"; segment g false : Parser Segment).Gives Segment.Spoken :=
    .bind fun _ => gives_segment hg
  exact .bind fun _ => .bindWith (gives_segment hg) fun _ hs =>
    .bindWith (hmore.repeatWhile _) fun _ hrest =>
      .pure ⟨segmentsSpoken_iff.2 (List.forall_mem_cons.2 ⟨hs, hrest⟩), List.cons_ne_nil _ _⟩

/-- A path that does not begin with a type is spoken. -/
lemma gives_qualifiedPath :
    (qualifiedPath g false).Gives fun x => x.1 = none → x.2.Spoken := by
  refine .ahead (.bind fun _ => .bind fun _ => .bind fun _ => ?_)
    (.madeOf (gives_path hg) fun _ hp _ => hp)
  dsimp only
  refine .ite (.bind fun traitPath => ?_) (.bind fun traitPath => ?_) <;>
  · refine .bind fun _ => .bind fun _ => .bind fun _ => .bind fun _ => ?_
    cases traitPath <;> exact .pure (by simp)

lemma gives_pathType (plus : Bool) (binder : Pieces) :
    (pathType g plus binder).Gives Ty.Spoken := by
  refine .bindWith (gives_qualifiedPath hg) fun x hx => ?_
  obtain ⟨subject, p⟩ := x
  cases subject with
  | some s => exact .pure trivial
  | none =>
      refine .bind fun _ => .ite (.bind fun _ => .made fun _ => trivial) (.bind fun _ => ?_)
      refine .ite ?_ (.pure (hx rfl))
      dsimp only
      exact .ite (.bind fun _ => .pure trivial) (.bind fun _ => .pure trivial)

/-- What is in parentheses is spoken if it is one type. -/
def Parenthesized.Spoken : Parenthesized → Prop
  | .one t => t.Spoken
  | _ => True

lemma gives_parenthesized : (parenthesized g).Gives Parenthesized.Spoken := by
  refine .ahead (.pure trivial) (.ahead (.made fun _ => trivial) ?_)
  refine .ahead (.made fun _ => trivial) ?_
  refine .bindWith (hg true) fun t ht => .ahead (.bind fun _ => .bind fun _ => .pure trivial) ?_
  exact .pure ht.spoken

lemma gives_parenthesizedType (plus : Bool) : (parenthesizedType g plus).Gives Ty.Spoken := by
  refine .bindWith (.inside (gives_parenthesized hg)) fun found hfound => ?_
  cases found with
  | empty | object ps | tuple es trailing => exact .pure trivial
  | relaxed ps => exact .made fun _ => trivial
  | one t =>
      refine .bind fun _ => .ite ?_ (.pure hfound)
      split
      · exact .made fun _ => trivial
      · exact .pure hfound

lemma gives_bracketed : (bracketed g).Gives Ty.Spoken :=
  .bindWith (hg true) fun _ ht => .bind fun _ =>
    .ite (.made fun _ => ht.spoken) (.pure ht.spoken)

/-- **The types of a step are spoken if those of its parts are.** -/
lemma gives_typeStep (plus : Bool) : (typeStep g plus).Gives Ty.Spoken := by
  have hbehind : ∀ binder : Pieces, (behindBinder g plus binder).Gives Ty.Spoken := by
    intro binder
    refine .ahead (gives_parenthesizedType hg plus) (.ahead (.made fun _ => trivial) ?_)
    refine .ahead (gives_pathType hg plus binder) (.ahead ?_ ?_)
    · refine .bind fun _ => .bind fun star => .bind fun _ => .pure ?_
      split <;> trivial
    refine .ahead (.inside (gives_bracketed hg)) (.ahead ?_ (.ahead ?_ (.ahead ?_ (.ahead ?_ ?_))))
    · refine .bind fun _ => .bind fun _ => ?_
      dsimp only
      exact .ite (.bind fun _ => .made fun _ => trivial) (.bind fun _ => .made fun _ => trivial)
    · exact .bind fun _ => .bindWith gives_optionalLifetime fun _ hl => .bind fun _ =>
        .madeOf (hg false) fun _ ht => ⟨hl, ht.spoken⟩
    · exact .made fun _ => trivial
    · exact .bind fun _ => .made fun _ => trivial
    · exact .ahead (.made fun _ => trivial) (.bind fun _ => .made fun _ => trivial)
  refine .bind fun binder => ?_
  exact .ite (.bind fun _ => hbehind binder) (hbehind binder)

omit hg [g.TakesFront] in
/-- **Parsed types are spoken, and spelled with words if they are plain.** -/
theorem heard_atDepth (n : Nat) : ∀ plus, ((atDepth n).type plus).Gives Ty.Heard := by
  induction n with
  | zero => exact fun _ => .failure
  | succ n ih =>
      intro plus ts t rest hts h
      exact ⟨gives_typeStep ih plus hts h,
        fun hplain => (sound_atDepth (n + 1) plus hts h hplain).1⟩

end Grammar

end FieldCopy.Source
