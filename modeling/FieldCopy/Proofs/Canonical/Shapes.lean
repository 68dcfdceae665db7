import Mathlib
import FieldCopy.Proofs.Canonical.Parsing
import FieldCopy.Proofs.Canonical.Words

/-!
# Types that are parsed

A type that was parsed from a text is spelled with words, if it has one of the shapes that names of
types are about (`Ty.Plain`).

**Soundness.**  A parser is sound if it gives what is spelled with words and leaves worded tokens
behind, as far as it gives something plain (`Parser.Sound`).  Nothing needs to be known of the parts
of the grammar that give something else.

**Main statement.**  `Ty.wellSpelled_of_parse?`.
-/

namespace FieldCopy.Source

mutual

/-- A type is built from paths, references, slices, arrays of a whole number of elements, tuples and
parentheses. -/
inductive Ty.Plain : Ty → Prop where
  | path {p : Path} (h : ∀ s ∈ p.segments, s.arguments.Plain) : Ty.Plain (.path p)
  | reference {l : Option String} {m : Bool} {t : Ty} (h : t.Plain) : Ty.Plain (.reference l m t)
  | slice {e : Ty} (h : e.Plain) : Ty.Plain (.slice e)
  | array {e : Ty} {d : String} (h : e.Plain) (hd : IsInteger d) :
      Ty.Plain (.array e [.token (.literal d ())])
  | tuple {es : List Ty} {trailing : Bool} (h : ∀ e ∈ es, e.Plain) : Ty.Plain (.tuple es trailing)
  | parenthesized {t : Ty} (h : t.Plain) : Ty.Plain (.parenthesized t)

/-- A name has no arguments, or lifetimes and types in angle brackets. -/
inductive Arguments.Plain : Arguments → Prop where
  | none : Arguments.Plain .none
  | angled {turbofish trailing : Bool} {items : List Argument} (h : ∀ a ∈ items, a.Plain) :
      Arguments.Plain (.angled turbofish items trailing)

/-- An argument is a lifetime or a type. -/
inductive Argument.Plain : Argument → Prop where
  | lifetime (n : String) : Argument.Plain (.lifetime n)
  | type {t : Ty} (h : t.Plain) : Argument.Plain (.type t)

end

/-! ## Sound parsers -/

namespace Parser

variable {α β : Type} {p : Parser α} {plain well : α → Prop} {ts rest : Tokens}

lemma bind_eq_some {f : α → Parser β} {b : β} (h : (p >>= f) ts = some (b, rest)) :
    ∃ a ts', p ts = some (a, ts') ∧ f a ts' = some (b, rest) := by
  obtain ⟨⟨a, ts'⟩, ha, hb⟩ := Option.bind_eq_some_iff.1 h
  exact ⟨a, ts', ha, hb⟩

lemma pure_eq_some {a b : α} (h : (pure a : Parser α) ts = some (b, rest)) : a = b ∧ ts = rest :=
  Prod.mk.inj (Option.some.inj h)

/-- One of two ways was taken. -/
lemma ahead_cases {a : Ahead} {p q : Parser α} {x : α × Tokens}
    (h : (do if ← ahead a then p else q) ts = some x) :
    (a ts = true ∧ p ts = some x) ∨ (a ts = false ∧ q ts = some x) := by
  cases ha : a ts with
  | true => exact .inl ⟨rfl, (ahead_pos ha).symm.trans h⟩
  | false => exact .inr ⟨rfl, (ahead_neg ha).symm.trans h⟩

/-- What a parser gives is spelled with words, and so is what it leaves, if it gives something
plain. -/
def Sound (p : Parser α) (plain well : α → Prop) : Prop :=
  ∀ ⦃ts a rest⦄, AllWorded ts → p ts = some (a, rest) → plain a → well a ∧ AllWorded rest

lemma worded_mark {operator : String} (hts : AllWorded ts)
    (h : mark operator ts = some ((), rest)) : AllWorded rest := by
  rw [mark] at h
  split at h
  · obtain ⟨-, rfl⟩ := Prod.mk.inj (Option.some.inj h)
    exact hts.drop _
  · exact absurd h (by simp)

lemma worded_optionalMark {operator : String} {b : Bool} (hts : AllWorded ts)
    (h : optionalMark operator ts = some (b, rest)) :
    AllWorded rest ∧ (b = false → rest = ts ∧ Ahead.mark operator ts = false) := by
  rcases ahead_cases h with ⟨-, h⟩ | ⟨hahead, h⟩
  · obtain ⟨⟨⟩, ts', hmark, h⟩ := bind_eq_some h
    obtain ⟨rfl, rfl⟩ := pure_eq_some h
    exact ⟨worded_mark hts hmark, by simp⟩
  · obtain ⟨rfl, rfl⟩ := pure_eq_some h
    exact ⟨hts, fun _ => ⟨rfl, hahead⟩⟩

lemma worded_optionalWord {w : String} {b : Bool} (hts : AllWorded ts)
    (h : optionalWord w ts = some (b, rest)) : AllWorded rest := by
  rcases ahead_cases h with ⟨-, h⟩ | ⟨-, h⟩
  · obtain ⟨⟨⟩, ts', hword, h⟩ := bind_eq_some h
    obtain ⟨rfl, rfl⟩ := pure_eq_some h
    rw [word] at hword
    split at hword
    · obtain ⟨-, rfl⟩ := Prod.mk.inj (Option.some.inj hword)
      exact hts.drop _
    · exact absurd hword (by simp)
  · obtain ⟨rfl, rfl⟩ := pure_eq_some h
    exact hts

lemma anyWord_eq_some {w : String} (h : anyWord ts = some (w, rest)) :
    ∃ p, ts = .word w p :: rest := by
  unfold anyWord at h
  split at h
  · rename_i p _
    obtain ⟨rfl, rfl⟩ := Prod.mk.inj (Option.some.inj h)
    exact ⟨p, rfl⟩
  · exact absurd h (by simp)

lemma name_eq_some {w : String} (h : name ts = some (w, rest)) :
    ∃ p, ts = .word w p :: rest ∧ w ∉ Ahead.reserved := by
  rw [name, map_apply] at h
  obtain ⟨⟨⟨n, p⟩, ts'⟩, hn, h⟩ := Option.map_eq_some_iff.1 h
  obtain ⟨rfl, rfl⟩ := Prod.mk.inj h
  unfold placedName at hn
  split at hn
  · split at hn
    · exact absurd hn (by simp)
    · rename_i hreserved
      obtain ⟨hpair, rfl⟩ := Prod.mk.inj (Option.some.inj hn)
      obtain ⟨rfl, rfl⟩ := Prod.mk.inj hpair
      exact ⟨_, rfl, by simpa using hreserved⟩
  · exact absurd hn (by simp)

lemma inside_eq_some {d : Delimiter} {a : α} (h : inside d p ts = some (a, rest)) :
    ∃ inner q, ts = .group d inner q :: rest ∧ p inner = some (a, []) := by
  unfold inside at h
  split at h
  · rename_i d' inner q rest'
    split at h
    · rename_i hd
      obtain rfl := hd
      obtain ⟨b, hall, h⟩ := Option.map_eq_some_iff.1 h
      obtain ⟨rfl, rfl⟩ := Prod.mk.inj h
      unfold all at hall
      split at hall
      · rename_i hp
        obtain rfl := Option.some.inj hall
        exact ⟨inner, q, rfl, hp⟩
      · exact absurd hall (by simp)
    · exact absurd h (by simp)
  · exact absurd h (by simp)

lemma sound_lifetime : lifetime.Sound (fun _ => True) IsWord := by
  intro ts n rest hts h _
  unfold lifetime at h
  split at h
  · obtain ⟨rfl, rfl⟩ := Prod.mk.inj (Option.some.inj h)
    exact ⟨hts.tail.isWord, hts.tail.tail⟩
  · exact absurd h (by simp)

lemma sound_optionalLifetime :
    optionalLifetime.Sound (fun _ => True) fun l => ∀ n ∈ l, IsWord n := by
  intro ts l rest hts h _
  rcases ahead_cases h with ⟨-, h⟩ | ⟨-, h⟩
  · rw [map_apply] at h
    obtain ⟨⟨n, ts'⟩, hn, h⟩ := Option.map_eq_some_iff.1 h
    obtain ⟨rfl, rfl⟩ := Prod.mk.inj h
    obtain ⟨hword, hrest⟩ := sound_lifetime hts hn trivial
    exact ⟨by simpa using hword, hrest⟩
  · obtain ⟨rfl, rfl⟩ := pure_eq_some h
    exact ⟨by simp, hts⟩

namespace Sound

lemma whileFuel (hp : p.Sound plain well) (a : Ahead) : ∀ n : Nat,
    (whileFuel a p n).Sound (fun xs => ∀ x ∈ xs, plain x) fun xs => ∀ x ∈ xs, well x
  | 0 => by
      intro ts xs rest hts h _
      obtain ⟨rfl, rfl⟩ := pure_eq_some h
      exact ⟨List.forall_mem_nil _, hts⟩
  | n + 1 => by
      intro ts xs rest hts h hplain
      rcases ahead_cases h with ⟨-, h⟩ | ⟨-, h⟩
      · obtain ⟨x, ts₁, hx, h⟩ := bind_eq_some h
        obtain ⟨xs, ts₂, hxs, h⟩ := bind_eq_some h
        obtain ⟨rfl, rfl⟩ := pure_eq_some h
        obtain ⟨hplainX, hplainXs⟩ := List.forall_mem_cons.1 hplain
        obtain ⟨hwell, hts₁⟩ := hp hts hx hplainX
        obtain ⟨hwells, hts₂⟩ := hp.whileFuel a n hts₁ hxs hplainXs
        exact ⟨List.forall_mem_cons.2 ⟨hwell, hwells⟩, hts₂⟩
      · obtain ⟨rfl, rfl⟩ := pure_eq_some h
        exact ⟨List.forall_mem_nil _, hts⟩

lemma separatedFuel (hp : p.Sound plain well) (stop : Ahead) (operator : String) : ∀ n : Nat,
    (separatedFuel stop (mark operator) p n).Sound (fun x => ∀ a ∈ x.1, plain a)
      fun x => (∀ a ∈ x.1, well a) ∧ (x.1 = [] → x.2 = true)
  | 0 => by
      intro ts x rest _ h _
      exact absurd h (by simp [Parser.separatedFuel, failure, StateT.failure])
  | n + 1 => by
      intro ts x rest hts h hplain
      rcases ahead_cases h with ⟨-, h⟩ | ⟨-, h⟩
      · obtain ⟨rfl, rfl⟩ := pure_eq_some h
        exact ⟨⟨List.forall_mem_nil _, fun _ => rfl⟩, hts⟩
      · obtain ⟨a, ts₁, ha, h⟩ := bind_eq_some h
        rcases ahead_cases h with ⟨-, h⟩ | ⟨-, h⟩
        · obtain ⟨rfl, rfl⟩ := pure_eq_some h
          obtain ⟨hwell, hts₁⟩ := hp hts ha (hplain a List.mem_cons_self)
          exact ⟨⟨List.forall_mem_singleton.2 hwell, by simp⟩, hts₁⟩
        · obtain ⟨⟨⟩, ts₂, hmark, h⟩ := bind_eq_some h
          obtain ⟨⟨as, trailing⟩, ts₃, has, h⟩ := bind_eq_some h
          obtain ⟨rfl, rfl⟩ := pure_eq_some h
          obtain ⟨hplainA, hplainAs⟩ := List.forall_mem_cons.1 hplain
          obtain ⟨hwell, hts₁⟩ := hp hts ha hplainA
          obtain ⟨⟨hwells, -⟩, hts₃⟩ :=
            hp.separatedFuel stop operator n (worded_mark hts₁ hmark) has hplainAs
          exact ⟨⟨List.forall_mem_cons.2 ⟨hwell, hwells⟩, by simp⟩, hts₃⟩

end Sound

end Parser

namespace Grammar

open FieldCopy.Source.Parser

variable {g : Grammar} {ts rest : Tokens}

/-! ## Arguments -/

/-- The types that a grammar gives are spelled with words. -/
def Sound (g : Grammar) : Prop := ∀ plus, (g.type plus).Sound Ty.Plain Ty.WellSpelled

lemma sound_argument (hg : g.Sound) : (argument g).Sound Argument.Plain Argument.WellSpelled := by
  intro ts a rest hts h hplain
  rcases ahead_cases h with ⟨-, h⟩ | ⟨-, h⟩
  · obtain ⟨n, ts', hn, h⟩ := bind_eq_some h
    obtain ⟨rfl, rfl⟩ := pure_eq_some h
    exact sound_lifetime hts hn trivial
  rcases ahead_cases h with ⟨-, h⟩ | ⟨-, h⟩
  · obtain ⟨ps, ts', -, h⟩ := bind_eq_some h
    obtain ⟨rfl, -⟩ := pure_eq_some h
    cases hplain
  obtain ⟨t, ts', ht, h⟩ := bind_eq_some h
  have htype : ∀ {a rest}, (pure (.type t) : Parser Argument) ts' = some (a, rest) → a.Plain →
      a.WellSpelled ∧ AllWorded rest := by
    intro a rest h hplain
    obtain ⟨rfl, rfl⟩ := pure_eq_some h
    cases hplain with
    | type hplain => exact hg true hts ht hplain
  cases hbindable : bindable t with
  | none =>
      rw [hbindable] at h
      exact htype h hplain
  | some subject =>
      rw [hbindable] at h
      rcases ahead_cases h with ⟨-, h⟩ | ⟨-, h⟩
      · obtain ⟨equals, ts₁, -, h⟩ := bind_eq_some h
        rcases ahead_cases h with ⟨-, h⟩ | ⟨-, h⟩ <;>
        · obtain ⟨value, ts₂, -, h⟩ := bind_eq_some h
          obtain ⟨rfl, -⟩ := pure_eq_some h
          cases hplain
      rcases ahead_cases h with ⟨-, h⟩ | ⟨-, h⟩
      · obtain ⟨colon, ts₁, -, h⟩ := bind_eq_some h
        obtain ⟨bounds, ts₂, -, h⟩ := bind_eq_some h
        obtain ⟨rfl, -⟩ := pure_eq_some h
        cases hplain
      · exact htype h hplain

lemma sound_angled (hg : g.Sound) (turbofish : Bool) :
    (angled g turbofish).Sound Arguments.Plain Arguments.WellSpelled := by
  intro ts a rest hts h hplain
  obtain ⟨⟨⟩, ts₁, hopen, h⟩ := bind_eq_some h
  obtain ⟨⟨items, trailing⟩, ts₂, hitems, h⟩ := bind_eq_some h
  obtain ⟨⟨⟩, ts₃, hclose, h⟩ := bind_eq_some h
  obtain ⟨rfl, rfl⟩ := pure_eq_some h
  cases hplain with
  | angled hplain =>
      obtain ⟨⟨hwell, hempty⟩, hts₂⟩ := (sound_argument hg).separatedFuel _ "," _
        (worded_mark hts hopen) hitems hplain
      exact ⟨⟨itemsWellSpelled_iff.2 hwell, hempty⟩, worded_mark hts₂ hclose⟩

/-! ## Names and paths -/

lemma name_of_behindName {n : String} {s : Segment} (h : behindName g n ts = some (s, rest)) :
    s.name = n := by
  obtain ⟨behindColons, ts₁, -, h⟩ := bind_eq_some h
  obtain ⟨plain, ts₂, -, h⟩ := bind_eq_some h
  split at h
  · obtain ⟨turbofish, ts₃, -, h⟩ := bind_eq_some h
    obtain ⟨a, ts₄, -, h⟩ := bind_eq_some h
    obtain ⟨rfl, -⟩ := pure_eq_some h
    rfl
  · obtain ⟨rfl, -⟩ := pure_eq_some h
    rfl

/-- A name is the first word: a keyword without arguments, or a word that may have some. -/
lemma segment_cases {s : Segment} (h : segment g false ts = some (s, rest)) :
    ∃ p ts', ts = .word s.name p :: ts'
      ∧ (s.name ∈ ["super", "self", "crate", "try"] ∧ s.arguments = .none ∧ rest = ts'
        ∨ (s.name ∉ Ahead.reserved ∨ s.name = "Self")
          ∧ behindName g s.name ts' = some (s, rest)) := by
  rcases ahead_cases h with ⟨hfew, h⟩ | ⟨-, h⟩
  · obtain ⟨n, ts', hword, h⟩ := bind_eq_some h
    obtain ⟨rfl, rfl⟩ := pure_eq_some h
    obtain ⟨p, rfl⟩ := anyWord_eq_some hword
    refine ⟨p, ts', rfl, .inl ⟨?_, rfl, rfl⟩⟩
    simpa [Ahead.oneWord, Ahead.word, Segment.name] using hfew
  · rcases ahead_cases h with ⟨hself, h⟩ | ⟨-, h⟩
    · obtain ⟨n, ts', hword, hbehind⟩ := bind_eq_some h
      obtain rfl : s.name = n := name_of_behindName hbehind
      obtain ⟨p, rfl⟩ := anyWord_eq_some hword
      exact ⟨p, ts', rfl, .inr ⟨.inr (by simpa [Ahead.word] using hself), hbehind⟩⟩
    · obtain ⟨n, ts', hname, hbehind⟩ := bind_eq_some h
      obtain rfl : s.name = n := name_of_behindName hbehind
      obtain ⟨p, rfl, hn⟩ := name_eq_some hname
      exact ⟨p, ts', rfl, .inr ⟨.inl hn, hbehind⟩⟩

/-- What is behind a name of a path. -/
lemma sound_behindName (hg : g.Sound) {n : String} (hn : IsWord n)
    (hpath : n ∉ Ahead.reserved ∨ n = "Self") :
    (behindName g n).Sound (fun s => s.arguments.Plain) Segment.WellSpelled := by
  have hword : ∀ bare, IsPathWord bare n := fun bare => hpath.imp_right .inl
  intro ts s rest hts h hplain
  obtain ⟨behindColons, ts₁, hahead, h⟩ := bind_eq_some h
  obtain ⟨-, rfl⟩ := pure_eq_some hahead
  obtain ⟨plain, ts₂, hahead, h⟩ := bind_eq_some h
  obtain ⟨-, rfl⟩ := pure_eq_some hahead
  split at h
  · obtain ⟨turbofish, ts₃, hcolons, h⟩ := bind_eq_some h
    obtain ⟨a, ts₄, hangled, h⟩ := bind_eq_some h
    obtain ⟨rfl, rfl⟩ := pure_eq_some h
    obtain ⟨hwell, hrest⟩ :=
      sound_angled hg turbofish (worded_optionalMark hts hcolons).1 hangled hplain
    exact ⟨⟨hn, hword _, hwell⟩, hrest⟩
  · obtain ⟨rfl, rfl⟩ := pure_eq_some h
    exact ⟨⟨hn, hword _, trivial⟩, hts⟩

lemma sound_segment (hg : g.Sound) :
    (segment g false).Sound (fun s => s.arguments.Plain) Segment.WellSpelled := by
  intro ts s rest hts h hplain
  obtain ⟨p, ts', rfl, ⟨hn, hnone, rfl⟩ | ⟨hn, h⟩⟩ := segment_cases h
  · obtain ⟨n, a⟩ := s
    obtain rfl : a = .none := hnone
    exact ⟨⟨hts.isWord, .inr (.inr ⟨rfl, hn⟩), trivial⟩, hts.tail⟩
  · exact sound_behindName hg hts.isWord hn hts.tail h hplain

/-- A path without a root in front begins with its first name. -/
lemma sound_path (hg : g.Sound) {p : Path} (hts : AllWorded ts)
    (hfirst : ∀ q ts', ts ≠ .word "try" q :: ts')
    (h : path g false ts = some (p, rest)) (hplain : ∀ s ∈ p.segments, s.arguments.Plain) :
    p.WellSpelled ∧ AllWorded rest := by
  obtain ⟨rooted, ts₁, hroot, h⟩ := bind_eq_some h
  obtain ⟨first, ts₂, hs, h⟩ := bind_eq_some h
  obtain ⟨more, ts₃, hmore, h⟩ := bind_eq_some h
  obtain ⟨rfl, rfl⟩ := pure_eq_some h
  obtain ⟨hts₁, hunrooted⟩ := worded_optionalMark hts hroot
  obtain ⟨hplainFirst, hplainMore⟩ := List.forall_mem_cons.1 hplain
  obtain ⟨hwell, hts₂⟩ := sound_segment hg hts₁ hs hplainFirst
  have hnext : (do mark "::"; segment g false : Parser Segment).Sound
      (fun s => s.arguments.Plain) Segment.WellSpelled := by
    intro ts s rest hts h hplain
    obtain ⟨⟨⟩, ts', hmark, h⟩ := bind_eq_some h
    exact sound_segment hg (worded_mark hts hmark) h hplain
  obtain ⟨hwells, hts₃⟩ := hnext.whileFuel _ _ hts₂ hmore hplainMore
  refine ⟨⟨segmentsWellSpelled_iff.2 (List.forall_mem_cons.2 ⟨hwell, hwells⟩), by simp, ?_⟩, hts₃⟩
  rintro rfl s ⟨⟩ htry
  obtain ⟨rfl, -⟩ := hunrooted rfl
  obtain ⟨q, ts', hword, -⟩ := segment_cases hs
  exact hfirst q ts' (htry ▸ hword)

/-! ## Types -/

lemma path_of_qualifiedPath {p : Path}
    (h : qualifiedPath g false ts = some ((none, p), rest)) : path g false ts = some (p, rest) := by
  rcases ahead_cases h with ⟨-, h⟩ | ⟨-, h⟩
  · obtain ⟨⟨⟩, ts₁, -, h⟩ := bind_eq_some h
    obtain ⟨subject, ts₂, -, h⟩ := bind_eq_some h
    obtain ⟨hasTrait, ts₃, -, h⟩ := bind_eq_some h
    split at h <;>
    · obtain ⟨traitPath, ts₄, -, h⟩ := bind_eq_some h
      obtain ⟨⟨⟩, ts₅, -, h⟩ := bind_eq_some h
      obtain ⟨⟨⟩, ts₆, -, h⟩ := bind_eq_some h
      obtain ⟨first, ts₇, -, h⟩ := bind_eq_some h
      obtain ⟨more, ts₈, -, h⟩ := bind_eq_some h
      cases traitPath <;> exact absurd (Prod.mk.inj (pure_eq_some h).1).1 (by simp)
  · obtain ⟨p', ts', hp, h⟩ := bind_eq_some h
    obtain ⟨hpair, rfl⟩ := pure_eq_some h
    obtain ⟨-, rfl⟩ := Prod.mk.inj hpair
    exact hp

/-- A plain type that begins with a path is this path, and nothing is introduced in front. -/
lemma pathType_plain {plus : Bool} {binder : Pieces} {t : Ty}
    (h : pathType g plus binder ts = some (t, rest)) (hplain : t.Plain) :
    binder = [] ∧ ∃ p, t = .path p ∧ path g false ts = some (p, rest) := by
  obtain ⟨⟨subject, p⟩, ts₁, hqualified, h⟩ := bind_eq_some h
  cases subject with
  | some subject =>
      obtain ⟨rfl, -⟩ := pure_eq_some h
      cases hplain
  | none =>
      obtain ⟨bang, ts₂, hahead, h⟩ := bind_eq_some h
      obtain ⟨-, rfl⟩ := pure_eq_some hahead
      split at h
      · obtain ⟨op, ts₃, -, h⟩ := bind_eq_some h
        obtain ⟨group, ts₄, -, h⟩ := bind_eq_some h
        obtain ⟨rfl, -⟩ := pure_eq_some h
        cases hplain
      obtain ⟨more, ts₃, hahead, h⟩ := bind_eq_some h
      obtain ⟨-, rfl⟩ := pure_eq_some hahead
      split at h
      · split at h <;>
        · obtain ⟨bounds, ts₄, -, h⟩ := bind_eq_some h
          obtain ⟨rfl, -⟩ := pure_eq_some h
          cases hplain
      · rename_i hbinder
        obtain ⟨rfl, rfl⟩ := pure_eq_some h
        refine ⟨?_, p, rfl, path_of_qualifiedPath hqualified⟩
        rw [Bool.or_eq_true, not_or] at hbinder
        simpa using hbinder.1

/-- A type behind the lifetimes that are introduced in front of it. -/
def behindBinder (g : Grammar) (plus : Bool) (binder : Pieces) : Parser Ty := do
  if ← ahead (.group .parenthesis) then parenthesizedType g plus
  else if ← ahead pointerAhead then pure (.other (binder ++ (← pointer g)))
  else if ← ahead (.anyOf [plainSegmentAhead, .mark "::", .mark "<"]) then pathType g plus binder
  else if ← ahead (.word "dyn") then
    let dyn ← kw "dyn"
    let star ← opMaybe "*"
    let bounds ← objectBounds g plus ⟨false, false⟩
    pure (if star.isEmpty then .traitObject (dyn ++ bounds) else .other (dyn ++ star ++ bounds))
  else if ← ahead (.group .bracket) then inside .bracket (bracketed g)
  else if ← ahead (.mark "*") then
    let star ← op "*"
    let mutability ← if ← ahead (.word "const") then kw "const" else kw "mut"
    pure (.other (star ++ mutability ++ (← typePiece g false)))
  else if ← ahead (.mark "&") then
    mark "&"
    let l ← optionalLifetime
    let m ← optionalWord "mut"
    pure (.reference l m (← g.type false))
  else if ← ahead (.mark "!") then pure (.other (← op "!"))
  else if ← ahead (.word "impl") then
    let impl ← kw "impl"
    pure (.implTrait (impl ++ (← objectBounds g plus ⟨true, true⟩)))
  else if ← ahead (.word "_") then pure (.other (← kw "_"))
  else
    expect .lifetime
    pure (.traitObject (← objectBounds g true ⟨false, false⟩))

lemma behindBinder_plain {plus : Bool} {binder : Pieces} {t : Ty}
    (h : behindBinder g plus binder ts = some (t, rest)) (hplain : t.Plain) :
    Ahead.group .parenthesis ts = true ∧ parenthesizedType g plus ts = some (t, rest)
    ∨ Ahead.anyOf [plainSegmentAhead, .mark "::", .mark "<"] ts = true
      ∧ pathType g plus binder ts = some (t, rest)
    ∨ Ahead.group .bracket ts = true ∧ inside .bracket (bracketed g) ts = some (t, rest)
    ∨ Ahead.mark "&" ts = true ∧ (do
        mark "&"
        let l ← optionalLifetime
        let m ← optionalWord "mut"
        pure (.reference l m (← g.type false)) : Parser Ty) ts = some (t, rest) := by
  rcases ahead_cases h with ⟨hahead, h⟩ | ⟨-, h⟩
  · exact .inl ⟨hahead, h⟩
  rcases ahead_cases h with ⟨-, h⟩ | ⟨-, h⟩
  · obtain ⟨ps, ts₁, -, h⟩ := bind_eq_some h
    obtain ⟨rfl, -⟩ := pure_eq_some h
    cases hplain
  rcases ahead_cases h with ⟨hahead, h⟩ | ⟨-, h⟩
  · exact .inr (.inl ⟨hahead, h⟩)
  rcases ahead_cases h with ⟨-, h⟩ | ⟨-, h⟩
  · obtain ⟨dyn, ts₁, -, h⟩ := bind_eq_some h
    obtain ⟨star, ts₂, -, h⟩ := bind_eq_some h
    obtain ⟨bounds, ts₃, -, h⟩ := bind_eq_some h
    obtain ⟨rfl, -⟩ := pure_eq_some h
    split at hplain <;> cases hplain
  rcases ahead_cases h with ⟨hahead, h⟩ | ⟨-, h⟩
  · exact .inr (.inr (.inl ⟨hahead, h⟩))
  rcases ahead_cases h with ⟨-, h⟩ | ⟨-, h⟩
  · obtain ⟨star, ts₁, -, h⟩ := bind_eq_some h
    rcases ahead_cases h with ⟨-, h⟩ | ⟨-, h⟩ <;>
    · obtain ⟨mutability, ts₂, -, h⟩ := bind_eq_some h
      obtain ⟨target, ts₃, -, h⟩ := bind_eq_some h
      obtain ⟨rfl, -⟩ := pure_eq_some h
      cases hplain
  rcases ahead_cases h with ⟨hahead, h⟩ | ⟨-, h⟩
  · exact .inr (.inr (.inr ⟨hahead, h⟩))
  rcases ahead_cases h with ⟨-, h⟩ | ⟨-, h⟩
  · obtain ⟨ps, ts₁, -, h⟩ := bind_eq_some h
    obtain ⟨rfl, -⟩ := pure_eq_some h
    cases hplain
  rcases ahead_cases h with ⟨-, h⟩ | ⟨-, h⟩
  · obtain ⟨impl, ts₁, -, h⟩ := bind_eq_some h
    obtain ⟨bounds, ts₂, -, h⟩ := bind_eq_some h
    obtain ⟨rfl, -⟩ := pure_eq_some h
    cases hplain
  rcases ahead_cases h with ⟨-, h⟩ | ⟨-, h⟩
  · obtain ⟨ps, ts₁, -, h⟩ := bind_eq_some h
    obtain ⟨rfl, -⟩ := pure_eq_some h
    cases hplain
  · obtain ⟨⟨⟩, ts₁, -, h⟩ := bind_eq_some h
    obtain ⟨bounds, ts₂, -, h⟩ := bind_eq_some h
    obtain ⟨rfl, -⟩ := pure_eq_some h
    cases hplain

lemma sound_reference (hg : g.Sound) : (do
    mark "&"
    let l ← optionalLifetime
    let m ← optionalWord "mut"
    pure (.reference l m (← g.type false)) : Parser Ty).Sound Ty.Plain Ty.WellSpelled := by
  intro ts t rest hts h hplain
  obtain ⟨⟨⟩, ts₁, hmark, h⟩ := bind_eq_some h
  obtain ⟨l, ts₂, hl, h⟩ := bind_eq_some h
  obtain ⟨m, ts₃, hm, h⟩ := bind_eq_some h
  obtain ⟨target, ts₄, htarget, h⟩ := bind_eq_some h
  obtain ⟨rfl, rfl⟩ := pure_eq_some h
  obtain ⟨hwords, hts₂⟩ := sound_optionalLifetime (worded_mark hts hmark) hl trivial
  cases hplain with
  | reference hplain =>
      obtain ⟨hwell, hrest⟩ := hg false (worded_optionalWord hts₂ hm) htarget hplain
      exact ⟨⟨hwords, hwell⟩, hrest⟩

/-- What is in brackets is a slice or an array. -/
lemma sound_bracketed (hg : g.Sound) :
    (inside .bracket (bracketed g)).Sound Ty.Plain Ty.WellSpelled := by
  intro ts t rest hts h hplain
  obtain ⟨inner, p, rfl, hinner⟩ := inside_eq_some h
  refine ⟨?_, hts.tail⟩
  obtain ⟨e, ts₁, he, h⟩ := bind_eq_some hinner
  obtain ⟨isArray, ts₂, -, h⟩ := bind_eq_some h
  split at h
  · obtain ⟨n, ts₃, -, h⟩ := bind_eq_some h
    obtain ⟨rfl, -⟩ := pure_eq_some h
    cases hplain with
    | array hplain hd => exact ⟨(hg true hts.inner he hplain).1, _, rfl, hd⟩
  · obtain ⟨rfl, -⟩ := pure_eq_some h
    cases hplain with
    | slice hplain => exact (hg true hts.inner he hplain).1

/-- What is in parentheses is a type or more. -/
lemma parenthesized_cases (hg : g.Sound) {found : Parenthesized} (hts : AllWorded ts)
    (h : parenthesized g ts = some (found, rest)) :
    (∀ es trailing, found = .tuple es trailing → (Ty.tuple es trailing).Plain →
        (Ty.tuple es trailing).WellSpelled)
      ∧ ∀ t, found = .one t → t.Plain → t.WellSpelled := by
  rcases ahead_cases h with ⟨-, h⟩ | ⟨-, h⟩
  · obtain ⟨rfl, -⟩ := pure_eq_some h
    exact ⟨by simp, by simp⟩
  rcases ahead_cases h with ⟨-, h⟩ | ⟨-, h⟩
  · obtain ⟨ps, ts₁, -, h⟩ := bind_eq_some h
    obtain ⟨rfl, -⟩ := pure_eq_some h
    exact ⟨by simp, by simp⟩
  rcases ahead_cases h with ⟨-, h⟩ | ⟨-, h⟩
  · obtain ⟨b, ts₁, -, h⟩ := bind_eq_some h
    obtain ⟨rfl, -⟩ := pure_eq_some h
    exact ⟨by simp, by simp⟩
  obtain ⟨first, ts₁, hfirst, h⟩ := bind_eq_some h
  rcases ahead_cases h with ⟨-, h⟩ | ⟨-, h⟩
  · obtain ⟨⟨⟩, ts₂, hmark, h⟩ := bind_eq_some h
    obtain ⟨⟨more, trailing⟩, ts₃, hmore, h⟩ := bind_eq_some h
    obtain ⟨rfl, -⟩ := pure_eq_some h
    refine ⟨fun es trailing' heq hplain => ?_, by simp⟩
    obtain ⟨rfl, rfl⟩ := Parenthesized.tuple.inj heq
    cases hplain with
    | tuple hplain =>
        obtain ⟨hplainFirst, hplainMore⟩ := List.forall_mem_cons.1 hplain
        obtain ⟨hwell, hts₁⟩ := hg true hts hfirst hplainFirst
        obtain ⟨⟨hwells, hempty⟩, -⟩ := Sound.separatedFuel (hg true) .nothing "," _
          (worded_mark hts₁ hmark) hmore hplainMore
        refine ⟨typesWellSpelled_iff.2 (List.forall_mem_cons.2 ⟨hwell, hwells⟩), by simp, ?_⟩
        intro hlength
        exact hempty (List.length_eq_zero_iff.1 (by simpa using hlength))
  · obtain ⟨rfl, -⟩ := pure_eq_some h
    refine ⟨by simp, fun t heq hplain => ?_⟩
    obtain rfl := Parenthesized.one.inj heq
    exact (hg true hts hfirst hplain).1

lemma sound_parenthesizedType (hg : g.Sound) (plus : Bool) :
    (parenthesizedType g plus).Sound Ty.Plain Ty.WellSpelled := by
  intro ts t rest hts h hplain
  obtain ⟨found, ts₁, hinside, h⟩ := bind_eq_some h
  obtain ⟨inner, p, rfl, hinner⟩ := inside_eq_some hinside
  obtain ⟨htuple, hone⟩ := parenthesized_cases hg hts.inner hinner
  have hparentheses : ∀ {t₁ t rest},
      (pure (.parenthesized t₁) : Parser Ty) ts₁ = some (t, rest) → t.Plain →
      found = .one t₁ → t.WellSpelled ∧ AllWorded rest := by
    intro t₁ t rest h hplain hfound
    obtain ⟨rfl, rfl⟩ := pure_eq_some h
    cases hplain with
    | parenthesized hplain =>
        have hwell : t₁.WellSpelled := hone t₁ hfound hplain
        exact ⟨hwell, hts.tail⟩
  cases found with
  | empty =>
      obtain ⟨rfl, rfl⟩ := pure_eq_some h
      exact ⟨⟨trivial, fun _ => rfl, by simp⟩, hts.tail⟩
  | object ps =>
      obtain ⟨rfl, rfl⟩ := pure_eq_some h
      cases hplain with
      | parenthesized hplain => cases hplain
  | relaxed ps =>
      obtain ⟨more, ts₂, -, h⟩ := bind_eq_some h
      obtain ⟨rfl, -⟩ := pure_eq_some h
      cases hplain
  | tuple es trailing =>
      obtain ⟨rfl, rfl⟩ := pure_eq_some h
      exact ⟨htuple es trailing rfl hplain, hts.tail⟩
  | one t₁ =>
      obtain ⟨isSum, ts₂, hahead, h⟩ := bind_eq_some h
      obtain ⟨-, rfl⟩ := pure_eq_some hahead
      split at h
      · cases hbound : parenthesizedBound t₁ with
        | some ps =>
            rw [hbound] at h
            obtain ⟨more, ts₃, -, h⟩ := bind_eq_some h
            obtain ⟨rfl, -⟩ := pure_eq_some h
            cases hplain
        | none =>
            rw [hbound] at h
            exact hparentheses h hplain rfl
      · exact hparentheses h hplain rfl

/-- Behind introduced lifetimes there is a word. -/
lemma word_of_expect (h : expect (.anyOf [.name, pointerAhead, .oneWord pathWords]) ts
    = some ((), rest)) : rest = ts ∧ ∃ w p ts', ts = .word w p :: ts' := by
  rw [expect] at h
  split at h
  · rename_i hahead
    obtain ⟨-, rfl⟩ := Prod.mk.inj (Option.some.inj h)
    refine ⟨rfl, ?_⟩
    cases ts with
    | nil => exact absurd hahead (by decide)
    | cons t ts =>
        cases t with
        | word w p => exact ⟨w, p, ts, rfl⟩
        | _ => exact absurd hahead (by simp [Ahead.anyOf, Ahead.name, pointerAhead, Ahead.oneWord,
            Ahead.word])
  · exact absurd h (by simp)

/-- Introduced lifetimes leave something. -/
lemma binder_ne_nil {b : Pieces} (h : binder g ts = some (b, rest)) : b ≠ [] := by
  obtain ⟨front, ts₁, hfront, h⟩ := bind_eq_some h
  obtain ⟨close, ts₂, -, h⟩ := bind_eq_some h
  obtain ⟨rfl, -⟩ := pure_eq_some h
  obtain ⟨front, ts₃, hfirst, h⟩ := bind_eq_some hfront
  obtain ⟨parameters, ts₄, -, h⟩ := bind_eq_some h
  obtain ⟨rfl, -⟩ := pure_eq_some h
  obtain ⟨word, ts₅, hword, h⟩ := bind_eq_some hfirst
  obtain ⟨open_, ts₆, -, h⟩ := bind_eq_some h
  obtain ⟨rfl, -⟩ := pure_eq_some h
  obtain ⟨⟨⟩, ts₇, -, h⟩ := bind_eq_some hword
  obtain ⟨rfl, -⟩ := pure_eq_some h
  simp

/-- **A step of the grammar is sound if its parts are.** -/
lemma sound_typeStep (hg : g.Sound) (plus : Bool) :
    (typeStep g plus).Sound Ty.Plain Ty.WellSpelled := by
  intro ts t rest hts h hplain
  obtain ⟨b, ts₁, hb, h⟩ := bind_eq_some h
  replace h : (if !b.isEmpty then (do
      expect (.anyOf [.name, pointerAhead, .oneWord pathWords])
      behindBinder g plus b)
    else behindBinder g plus b) ts₁ = some (t, rest) := h
  split at h
  · -- behind introduced lifetimes nothing is plain
    rename_i hbinder
    obtain ⟨⟨⟩, ts₂, hexpect, hbehind⟩ := bind_eq_some h
    obtain ⟨rfl, w, p, ts', rfl⟩ := word_of_expect hexpect
    obtain ⟨hahead, -⟩ | ⟨-, hpath⟩ | ⟨hahead, -⟩ | ⟨hahead, -⟩ :=
      behindBinder_plain hbehind hplain
    · exact absurd hahead Bool.false_ne_true
    · rw [(pathType_plain hpath hplain).1] at hbinder
      exact absurd hbinder (by simp)
    · exact absurd hahead Bool.false_ne_true
    · exact absurd hahead Bool.false_ne_true
  · rename_i hbinder
    have hempty : b = [] := by simpa using hbinder
    have hsame : ts = ts₁ := by
      rcases ahead_cases hb with ⟨-, hb⟩ | ⟨-, hb⟩
      · exact absurd hempty (binder_ne_nil hb)
      · exact (pure_eq_some hb).2
    have hbehind : behindBinder g plus [] ts = some (t, rest) := by
      rw [hsame, ← hempty]
      exact h
    obtain ⟨-, h⟩ | ⟨hahead, hpath⟩ | ⟨-, h⟩ | ⟨-, h⟩ := behindBinder_plain hbehind hplain
    · exact sound_parenthesizedType hg plus hts h hplain
    · obtain ⟨-, p, rfl, hp⟩ := pathType_plain hpath hplain
      cases hplain with
      | path hplain =>
          refine sound_path hg hts ?_ hp hplain
          rintro q ts' rfl
          have hnot : Ahead.anyOf [plainSegmentAhead, .mark "::", .mark "<"]
              (.word "try" q :: ts') = false := rfl
          exact absurd (hnot.symm.trans hahead) Bool.false_ne_true
    · exact sound_bracketed hg hts h hplain
    · exact sound_reference hg hts h hplain

/-- **The grammar is sound**, however many levels it has. -/
lemma sound_atDepth : ∀ n : Nat, (atDepth n).Sound
  | 0 => by
      intro plus ts t rest _ h
      exact absurd h (by simp [atDepth, nothing, failure, StateT.failure])
  | n + 1 => sound_typeStep (sound_atDepth n)

end Grammar

/-- **A plain type that was parsed from a text is spelled with words.** -/
theorem Ty.wellSpelled_of_parse? {text : String} {t : Ty} (h : Ty.parse? text = some t)
    (ht : t.Plain) : t.WellSpelled := by
  obtain ⟨ts, hts, h⟩ := Option.bind_eq_some_iff.1 h
  unfold Parser.all at h
  split at h
  · rename_i htype
    obtain rfl := Option.some.inj h
    exact (Grammar.sound_atDepth _ true (Token.worded_scan? hts) htype ht).1
  · exact absurd h (by simp)

end FieldCopy.Source
