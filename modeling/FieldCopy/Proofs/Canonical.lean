import Mathlib
import FieldCopy.Proofs.Canonical.Compact
import FieldCopy.Proofs.Canonical.Shapes

/-!
# Names of types are canonical

The name of a type is a text of this type again, with prelude paths shortened, and the name of the
name is the name itself.

**Levels.**  A type directly inside another one (`Ty.Inside`) is spelled with fewer tokens, so the
levels of the grammar for a token list are enough for all types in it (`Grammar.reads_atDepth`).

**Main statements.**  A text that spells a type is parsed as this type (`Ty.parse?_of_shown`).  The
name of a type is parsed as the type with prelude paths shortened and the lifetimes in front of
their lists, and is its own name (`Ty.nameOf?_nameOf?`).  A lifetime that stands behind a type is
moved (`Ty.exists_nameOf?_ne`).
-/

namespace FieldCopy.Source

/-! ## Numbers of tokens -/

namespace Token

variable {α : Type}

lemma sizeAll_eq_sum : ∀ ts : List (Token α), sizeAll ts = (ts.map size).sum
  | [] => rfl
  | t :: rest => by rw [sizeAll, sizeAll_eq_sum rest, List.map_cons, List.sum_cons]

lemma sizeAll_append (ts ts' : List (Token α)) :
    sizeAll (ts ++ ts') = sizeAll ts + sizeAll ts' := by
  simp only [sizeAll_eq_sum, List.map_append, List.sum_append]

/-- A list has no fewer tokens than the lists it is made of. -/
lemma sizeAll_le_of_sublist {ts ts' : List (Token α)} (h : ts.Sublist ts') :
    sizeAll ts ≤ sizeAll ts' := by
  simp only [sizeAll_eq_sum]
  exact (h.map size).sum_le_sum fun _ _ => Nat.zero_le _

mutual

/-- A token has the size of the token it shows. -/
lemma Shows.size_eq : ∀ {l : Lexeme} {t : Token Place}, Shows t l → t.size = l.size
  | _, _, .word _ _ | _, _, .mark _ _ _ | _, _, .literal _ _ => rfl
  | .group _ inner _, _, .group _ _ h => by
      rw [size, size, Shown.sizeAll_eq (l := inner) h]

/-- Tokens of a text are as many as the tokens they show. -/
lemma Shown.sizeAll_eq : ∀ {l : List Lexeme} {ts : List (Token Place)}, Shown ts l →
    sizeAll ts = sizeAll l
  | [], _, List.Forall₂.nil => rfl
  | _ :: _, _, List.Forall₂.cons h hs => by
      rw [sizeAll, sizeAll, Shows.size_eq h, Shown.sizeAll_eq hs]

end

end Token

lemma sublist_commaLexemes {l : List Lexeme} {ls : List (List Lexeme)} (h : l ∈ ls)
    (trailing : Bool) : l.Sublist (commaLexemes trailing ls) := by
  induction ls with
  | nil => exact absurd h List.not_mem_nil
  | cons l' ls ih =>
      obtain ⟨k, hk⟩ := commaLexemes_cons trailing l' ls
      rcases List.mem_cons.1 h with rfl | h
      · rw [hk]
        exact List.sublist_append_left _ _
      · cases ls with
        | nil => exact absurd h List.not_mem_nil
        | cons l'' ls =>
            rw [commaLexemes]
            · exact (ih h).trans (List.sublist_append_right _ _)
            · simp

lemma sublist_intersperse {ls : List (List Lexeme)} {l : List Lexeme} (h : l ∈ ls)
    (sep : List Lexeme) : l.Sublist (ls.intersperse sep).flatten := by
  refine List.sublist_flatten_of_mem ?_
  induction ls with
  | nil => exact absurd h List.not_mem_nil
  | cons l' ls ih =>
      cases ls with
      | nil => exact h
      | cons l'' ls =>
          rw [List.intersperse_cons_cons]
          rcases List.mem_cons.1 h with rfl | h
          · exact List.mem_cons_self
          · exact List.mem_cons_of_mem _ (List.mem_cons_of_mem _ (ih h))

/-! ## Types inside types -/

/-- A type stands directly inside another one. -/
inductive Ty.Inside (t : Ty) : Ty → Prop where
  | argument {p : Path} {s : Segment} (hs : s ∈ p.segments) (ht : .type t ∈ s.arguments.items) :
      Inside t (.path p)
  | referenced {l : Option String} {m : Bool} : Inside t (.reference l m t)
  | slice : Inside t (.slice t)
  | array {n : Pieces} : Inside t (.array t n)
  | member {es : List Ty} {trailing : Bool} (ht : t ∈ es) : Inside t (.tuple es trailing)
  | parenthesized : Inside t (.parenthesized t)

namespace Ty.Inside

variable {t t' : Ty}

/-- What is inside a well-spelled type is well spelled. -/
lemma wellSpelled (h : t.Inside t') (ht' : t'.WellSpelled) : t.WellSpelled := by
  cases h with
  | @argument p s hs ht =>
      obtain ⟨r, segments⟩ := p
      obtain ⟨n, a⟩ := s
      obtain ⟨-, -, ha⟩ := segmentsWellSpelled_iff.1 ht'.1 _ hs
      cases a with
      | none => exact absurd ht List.not_mem_nil
      | angled turbofish items trailing => exact itemsWellSpelled_iff.1 ha.1 _ ht
      | called ps => exact absurd ht List.not_mem_nil
  | referenced => exact ht'.2
  | slice => exact ht'
  | array => exact ht'.1
  | member ht => exact typesWellSpelled_iff.1 ht'.1 t ht
  | parenthesized => exact ht'

/-- What is inside a type is spelled with fewer tokens. -/
lemma sizeAll_lt (h : t.Inside t') :
    Token.sizeAll t.spelled < Token.sizeAll t'.spelled := by
  cases h with
  | @argument p s hs ht =>
      obtain ⟨r, segments⟩ := p
      obtain ⟨n, a⟩ := s
      rw [Path.segments] at hs
      cases a with
      | none => exact absurd ht List.not_mem_nil
      | angled turbofish items trailing =>
          have hitem : t.spelled.Sublist (commaLexemes trailing (spelledItems items)) := by
            refine sublist_commaLexemes ?_ trailing
            rw [spelledItems_eq_map]
            exact List.mem_map.2 ⟨.type t, ht, by rw [Argument.spelled]⟩
          have hsegment := Token.sizeAll_le_of_sublist
            (sublist_intersperse (List.mem_map_of_mem (f := Segment.spelled) hs) colons)
          have hsize := Token.sizeAll_le_of_sublist hitem
          rw [Segment.spelled, Arguments.spelled] at hsegment
          rw [Ty.spelled, Path.spelled, spelledSegments_eq_map]
          simp only [Token.sizeAll_append, Token.sizeAll, Token.size] at hsegment hsize ⊢
          omega
      | called ps => exact absurd ht List.not_mem_nil
  | @referenced l m =>
      have hmark : Token.sizeAll (Token.marks "&") = 1 := rfl
      cases l <;>
      · simp only [Ty.spelled, Token.sizeAll_append, hmark]
        omega
  | slice | parenthesized => simp [Ty.spelled, Token.sizeAll, Token.size]
  | array =>
      simp only [Ty.spelled, Token.sizeAll, Token.size, Token.sizeAll_append]
      omega
  | @member es trailing ht =>
      have hmember := Token.sizeAll_le_of_sublist
        (sublist_commaLexemes (List.mem_map_of_mem (f := Ty.spelled) ht) trailing)
      simp only [Ty.spelled, Token.sizeAll, Token.size, spelledTypes_eq_map]
      omega

end Ty.Inside

/-! ## Levels of the grammar -/

namespace Grammar

/-- One step of the grammar reads a type if the parts do. -/
lemma typeStep_apply {g : Grammar} {t : Ty} (ht : t.WellSpelled) (hnumbers : g.ReadsNumbers)
    (hinside : ∀ t', t'.Inside t → g.Reads t') (plus : Bool) {ts rest : Tokens}
    (hts : Shown ts t.spelled) (hrest : Follows rest) :
    typeStep g plus (ts ++ rest) = some (t, rest) := by
  cases t with
  | path p =>
      exact typeStep_path ht (fun s hs t' ht' => hinside t' (.argument hs ht')) plus hts hrest
  | reference l m t' =>
      exact typeStep_reference ht.2 (hinside t' .referenced) plus hts hrest
  | slice e => exact typeStep_slice (hinside e .slice) plus rest hts
  | array e n =>
      obtain ⟨-, d, rfl, -⟩ := ht
      exact typeStep_array (hinside e .array) hnumbers plus rest hts
  | tuple es trailing =>
      exact typeStep_tuple ht (fun e he => hinside e (.member he)) plus rest hts
  | parenthesized t' =>
      exact typeStep_parenthesized (t := t') ht (hinside t' .parenthesized) plus hts hrest
  | qualified _ _ _ | traitObject _ | implTrait _ | other _ => exact ht.elim

/-- A number takes three levels: an expression, an operand and what may be called on it. -/
lemma readsNumbers (n : Nat) : (atDepth (n + 3)).ReadsNumbers := fun _ _ => rfl

/-- **The grammar reads a type if it has its levels for each token.** -/
lemma reads_atDepth {t : Ty} (ht : t.WellSpelled) {n : Nat}
    (hn : levelsPerToken * (Token.sizeAll t.spelled + 1) ≤ n) : (atDepth n).Reads t := by
  induction hk : Token.sizeAll t.spelled using Nat.strong_induction_on generalizing t n with
  | _ k ih =>
      rw [levelsPerToken] at hn
      obtain ⟨m, rfl⟩ : ∃ m, n = m + 4 := ⟨n - 4, by omega⟩
      have hinside : ∀ t', t'.Inside t → (atDepth (m + 3)).Reads t' := by
        intro t' h
        have hlt := h.sizeAll_lt
        exact ih _ (hk ▸ hlt) (h.wellSpelled ht) (by rw [levelsPerToken]; omega) rfl
      intro plus ts rest hts hrest
      exact typeStep_apply ht (readsNumbers m) hinside plus hts hrest

end Grammar

/-! ## Texts of types -/

/-- **A text that spells a type is parsed as this type.** -/
theorem Ty.parse?_of_shown {t : Ty} (ht : t.WellSpelled) {text : String} {ts : Tokens}
    (htext : Token.scan? text.toList = some ts) (hts : Shown ts t.spelled) :
    Ty.parse? text = some t := by
  have htype : (Grammar.forTokens ts).type true ts = some (t, []) := by
    have hreads := Grammar.reads_atDepth ht (n := Grammar.levelsPerToken * (Token.sizeAll ts + 1))
      (by rw [Token.Shown.sizeAll_eq hts])
    have htype := hreads true ts [] hts .nil
    rwa [List.append_nil] at htype
  rw [Ty.parse?, htext]
  simp only [Option.bind_eq_bind, Option.bind_some, Parser.all, htype]

/-- How a type is spelled is parsed as the type. -/
lemma Ty.parse?_spelled {t : Ty} (ht : t.WellSpelled) :
    Ty.parse? (TypeName.ofLexemes t.spelled) = some t := by
  obtain ⟨ts, htext, hts⟩ := (Ty.lexable ht).scan?
  exact Ty.parse?_of_shown ht htext hts

/-- What a type is printed as is parsed as the type with the lifetimes in front. -/
lemma Ty.parse?_ofLexemes {t : Ty} (ht : t.WellSpelled) :
    Ty.parse? (TypeName.ofLexemes t.lexemes) = some t.arranged := by
  rw [Ty.lexemes_eq_spelled]
  exact Ty.parse?_spelled ht.arranged

/-- A type with the lifetimes in front is printed as before. -/
lemma Ty.displayName_arranged (t : Ty) : t.arranged.displayName = t.displayName := by
  rw [Ty.displayName, Ty.displayName, ← Ty.arranged_shorten, Ty.lexemes_eq_spelled,
    Ty.arranged_arranged, ← Ty.lexemes_eq_spelled]

/-! ## Names -/

/-- **Names of types are canonical.**  The name of a type is parsed as the type with prelude paths
shortened and the lifetimes in front of their lists, and it is its own name.  Only if the lifetimes
are not in front already, this is another type than the one that was named. -/
theorem Ty.nameOf?_nameOf? {text : String} {t : Ty} (htext : Ty.parse? text = some t)
    (ht : t.Plain) :
    ∃ n, Ty.nameOf? text = some n ∧ Ty.parse? n = some t.shorten.arranged
      ∧ (t.arranged = t → Ty.parse? n = some t.shorten) ∧ Ty.nameOf? n = some n := by
  have hwell := Ty.wellSpelled_of_parse? htext ht
  have hparse : Ty.parse? t.displayName = some t.shorten.arranged :=
    Ty.parse?_ofLexemes hwell.shorten
  refine ⟨t.displayName, by rw [Ty.nameOf?, htext]; rfl, hparse, fun harranged => ?_, ?_⟩
  · rw [hparse, Ty.arranged_shorten, harranged]
  · rw [Ty.nameOf?, hparse, Option.map_some, Ty.displayName_arranged, Ty.displayName,
      Ty.displayName, Ty.shorten_shorten]

/-! ### Some types -/

/-- Some words. -/
lemma isWord_of_mem {w : List Char}
    (hw : w ∈ ["a", "std", "vec", "Vec", "u8", "Foo"].map String.toList) :
    IsWord (String.ofList w) := by
  simp only [List.map_cons, List.map_nil, String.reduceToList, List.mem_cons, List.not_mem_nil,
    or_false] at hw
  rcases hw with rfl | rfl | rfl | rfl | rfl | rfl <;> exact Scan.isWord_ofList rfl rfl

/-- A name of a path with arguments. -/
abbrev Segment.applied (n : String) (items : List Argument) : Segment :=
  .mk n (.angled false items false)

/-- A type that is a single name. -/
abbrev Ty.named (n : String) : Ty := .path (.mk false [.mk n .none])

lemma Segment.wellSpelled_name {n : String} (hn : IsWord n) (hname : n ∉ Ahead.reserved) :
    (Segment.mk n .none).WellSpelled := ⟨hn, .inl hname, trivial⟩

lemma Segment.wellSpelled_applied {n : String} {items : List Argument} (hn : IsWord n)
    (hname : n ∉ Ahead.reserved) (hitems : ∀ a ∈ items, a.WellSpelled) (hne : items ≠ []) :
    (Segment.applied n items).WellSpelled :=
  ⟨hn, .inl hname, itemsWellSpelled_iff.2 hitems, fun h => absurd h hne⟩

lemma Ty.wellSpelled_named {n : String} (hn : IsWord n) (hname : n ∉ Ahead.reserved) :
    (Ty.named n).WellSpelled := by
  refine ⟨⟨Segment.wellSpelled_name hn hname, trivial⟩, by simp, ?_⟩
  rintro - _ ⟨⟩ rfl
  exact absurd (by decide) hname

lemma Ty.plain_named (n : String) : (Ty.named n).Plain :=
  .path (List.forall_mem_singleton.2 .none)

/-- A reference to a vector of blocks. -/
def Ty.blocks : Ty :=
  .reference (some "a") true (.path (.mk false [.mk "std" .none, .mk "vec" .none,
    .applied "Vec" [.type (.array (.named "u8") [.token (.literal "4" ())])]]))

/-- The name of a reference to a vector of blocks has the vector without the modules that it is
in. -/
theorem Ty.nameOf?_blocks :
    Ty.nameOf? "&'a mut std::vec::Vec<[u8; 4]>" = some "&'a mut Vec<[u8; 4]>"
      ∧ Ty.parse? "&'a mut Vec<[u8; 4]>"
        = some (.reference (some "a") true (.path (.mk false
            [.applied "Vec" [.type (.array (.named "u8") [.token (.literal "4" ())])]])))
      ∧ Ty.nameOf? "&'a mut Vec<[u8; 4]>" = some "&'a mut Vec<[u8; 4]>" := by
  have hnumber : IsInteger "4" := ⟨by decide +kernel, by decide +kernel⟩
  have ha : IsWord "a" := isWord_of_mem (by decide)
  have hstd : IsWord "std" := isWord_of_mem (by decide)
  have hmodule : IsWord "vec" := isWord_of_mem (by decide)
  have hvec : IsWord "Vec" := isWord_of_mem (by decide)
  have hbyte : (Ty.named "u8").WellSpelled :=
    wellSpelled_named (isWord_of_mem (by decide)) (by decide)
  have hplain : blocks.Plain := by
    have hblock : Argument.Plain (.type (.array (.named "u8") [.token (.literal "4" ())])) :=
      .type (.array (plain_named "u8") hnumber)
    refine .reference (.path (List.forall_mem_cons.2 ⟨.none, List.forall_mem_cons.2 ⟨.none, ?_⟩⟩))
    exact List.forall_mem_singleton.2 (.angled (List.forall_mem_singleton.2 hblock))
  have hwell : blocks.WellSpelled := by
    refine ⟨by simpa using ha, ⟨Segment.wellSpelled_name hstd (by decide),
      Segment.wellSpelled_name hmodule (by decide),
      Segment.wellSpelled_applied hvec (by decide) ?_ (by simp), trivial⟩, by simp,
      by simp [Segment.name]⟩
    exact List.forall_mem_singleton.2 ⟨hbyte, _, rfl, hnumber⟩
  have htext : TypeName.ofLexemes blocks.spelled = "&'a mut std::vec::Vec<[u8; 4]>" := by
    decide +kernel
  have hread := Ty.parse?_spelled hwell
  obtain ⟨n, hn, -, hparse, hname⟩ := Ty.nameOf?_nameOf? hread hplain
  obtain rfl : "&'a mut Vec<[u8; 4]>" = n := by
    have hdisplay : blocks.displayName = "&'a mut Vec<[u8; 4]>" := by decide +kernel
    rw [Ty.nameOf?, hread, Option.map_some, hdisplay] at hn
    exact Option.some.inj hn
  exact ⟨htext ▸ hn, hparse rfl, hname⟩

/-- A path with a lifetime behind a type. -/
def Ty.lifetimeLast : Ty :=
  .path (.mk false [.applied "Foo" [.type (.named "u8"), .lifetime "a"]])

/-- **A lifetime that is behind a type is in front of it in the name.** -/
theorem Ty.exists_nameOf?_ne : ∃ n, Ty.parse? "Foo<u8, 'a>" = some Ty.lifetimeLast
    ∧ Ty.lifetimeLast.Plain ∧ Ty.nameOf? "Foo<u8, 'a>" = some n
    ∧ Ty.parse? n ≠ some Ty.lifetimeLast.shorten := by
  have ha : IsWord "a" := isWord_of_mem (by decide)
  have hname : IsWord "Foo" := isWord_of_mem (by decide)
  have hbyte : (Ty.named "u8").WellSpelled :=
    wellSpelled_named (isWord_of_mem (by decide)) (by decide)
  have hwell : lifetimeLast.WellSpelled := by
    refine ⟨⟨Segment.wellSpelled_applied hname (by decide) ?_ (by simp), trivial⟩, by simp,
      by simp [Segment.name]⟩
    exact List.forall_mem_cons.2 ⟨hbyte, List.forall_mem_singleton.2 ha⟩
  have hplain : lifetimeLast.Plain := by
    refine .path (List.forall_mem_singleton.2 (.angled ?_))
    exact List.forall_mem_cons.2 ⟨.type (plain_named "u8"),
      List.forall_mem_singleton.2 (.lifetime "a")⟩
  have htext : TypeName.ofLexemes lifetimeLast.spelled = "Foo<u8, 'a>" := by
    decide +kernel
  have hparse := Ty.parse?_spelled hwell
  rw [htext] at hparse
  refine ⟨lifetimeLast.displayName, hparse, hplain, by rw [Ty.nameOf?, hparse]; rfl, ?_⟩
  rw [Ty.displayName, Ty.parse?_ofLexemes hwell.shorten]
  simp [lifetimeLast, Ty.shorten, Ty.arranged, Path.shorten, Path.shortenInner, Path.arranged,
    Path.segments, shortenSegments, arrangedSegments, Segment.shortenInner, Segment.arranged,
    Arguments.shorten, Arguments.arranged, shortenItems, Argument.shorten, lifetimesFirst,
    arrangedItems, Argument.arranged, Argument.isLifetime]

end FieldCopy.Source
