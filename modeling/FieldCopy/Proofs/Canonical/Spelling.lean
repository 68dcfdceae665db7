import Mathlib
import FieldCopy.Source.Grammar

/-!
# Types and how they are spelled

The tokens of a type are the same whether it is written or printed, but for one thing: printed, a
list of arguments begins with its lifetimes.

**Spelling.**  `Ty.spelled` lists the tokens of a type as it is written.  `Ty.arranged` moves the
lifetimes to the front, so what is printed is how the arranged type is spelled
(`Ty.lexemes_eq_spelled`).

**Shortening** prelude paths a second time changes nothing (`Ty.shorten_shorten`), and it does not
matter whether lifetimes are moved before or after.

**Well-spelled types** (`Ty.WellSpelled`) are built from paths, references, slices, arrays of a
whole number of elements, tuples and parentheses, and what stands for a word in them is a word.
-/

namespace FieldCopy.Source

/-! ## Spelling -/

mutual

/-- The tokens of a type as it is written. -/
def Ty.spelled : Ty → List Lexeme
  | .path p => p.spelled
  | .reference l m t =>
      Token.marks "&" ++ (match l with | some n => Token.lifetime n | none => [])
        ++ (if m then [.word "mut" ()] else []) ++ t.spelled
  | .slice e => [.group .bracket e.spelled ()]
  | .array e n => [.group .bracket (e.spelled ++ Token.marks ";" ++ pieceLexemes n) ()]
  | .tuple es trailing => [.group .parenthesis (commaLexemes trailing (spelledTypes es)) ()]
  | .parenthesized t => [.group .parenthesis t.spelled ()]
  | .qualified s d p => (Ty.qualified s d p).lexemes
  | .traitObject ps | .implTrait ps | .other ps => pieceLexemes ps

/-- The tokens of a path as it is written. -/
def Path.spelled : Path → List Lexeme
  | .mk r segments =>
      (if r then colons else []) ++ ((spelledSegments segments).intersperse colons).flatten

/-- The tokens of a name with its arguments as it is written. -/
def Segment.spelled : Segment → List Lexeme
  | .mk n a => .word n () :: a.spelled

/-- The tokens of a name's arguments as they are written. -/
def Arguments.spelled : Arguments → List Lexeme
  | .none => []
  | .angled turbofish items trailing =>
      (if turbofish then colons else []) ++ Token.marks "<"
        ++ commaLexemes trailing (spelledItems items) ++ Token.marks ">"
  | .called ps => pieceLexemes ps

/-- The tokens of a generic argument as it is written. -/
def Argument.spelled : Argument → List Lexeme
  | .lifetime n => Token.lifetime n
  | .type t => t.spelled
  | .other ps => pieceLexemes ps

/-- The tokens of each type of a list as it is written. -/
def spelledTypes : List Ty → List (List Lexeme)
  | [] => []
  | t :: rest => t.spelled :: spelledTypes rest

/-- The tokens of each name of a path as it is written. -/
def spelledSegments : List Segment → List (List Lexeme)
  | [] => []
  | s :: rest => s.spelled :: spelledSegments rest

/-- The tokens of each generic argument as it is written. -/
def spelledItems : List Argument → List (List Lexeme)
  | [] => []
  | a :: rest => a.spelled :: spelledItems rest

end

lemma spelledTypes_eq_map : ∀ ts : List Ty, spelledTypes ts = ts.map Ty.spelled
  | [] => rfl
  | t :: rest => by rw [spelledTypes, spelledTypes_eq_map rest, List.map_cons]

lemma spelledSegments_eq_map : ∀ ss : List Segment, spelledSegments ss = ss.map Segment.spelled
  | [] => rfl
  | s :: rest => by rw [spelledSegments, spelledSegments_eq_map rest, List.map_cons]

lemma spelledItems_eq_map : ∀ items : List Argument,
    spelledItems items = items.map Argument.spelled
  | [] => rfl
  | a :: rest => by rw [spelledItems, spelledItems_eq_map rest, List.map_cons]

/-! ## Arranging arguments -/

/-- Arguments with the lifetimes in front. -/
def lifetimesFirst (items : List Argument) : List Argument :=
  items.filter (·.isLifetime) ++ items.filter (! ·.isLifetime)

/-- Whether a comma follows the last argument once the lifetimes are in front: a lifetime that was
the last one leaves the comma in front of it behind. -/
def endsWithComma (trailing : Bool) (items : List Argument) : Bool :=
  trailing || items.getLast?.any (·.isLifetime) && items.any (! ·.isLifetime)

mutual

/-- The type with the lifetimes in front in all lists of arguments. -/
def Ty.arranged : Ty → Ty
  | .path p => .path p.arranged
  | .reference l m t => .reference l m t.arranged
  | .slice e => .slice e.arranged
  | .array e n => .array e.arranged n
  | .tuple es trailing => .tuple (arrangedTypes es) trailing
  | .parenthesized t => .parenthesized t.arranged
  | .qualified s d p => .qualified s d p
  | .traitObject ps => .traitObject ps
  | .implTrait ps => .implTrait ps
  | .other ps => .other ps

/-- The path with the lifetimes in front. -/
def Path.arranged : Path → Path
  | .mk r segments => .mk r (arrangedSegments segments)

/-- The name with the lifetimes in front. -/
def Segment.arranged : Segment → Segment
  | .mk n a => .mk n a.arranged

/-- The arguments with the lifetimes in front. -/
def Arguments.arranged : Arguments → Arguments
  | .none => .none
  | .angled turbofish items trailing =>
      .angled turbofish (lifetimesFirst (arrangedItems items))
        (endsWithComma trailing (arrangedItems items))
  | .called ps => .called ps

/-- The argument with the lifetimes in front. -/
def Argument.arranged : Argument → Argument
  | .lifetime n => .lifetime n
  | .type t => .type t.arranged
  | .other ps => .other ps

/-- Arranges every type of a list. -/
def arrangedTypes : List Ty → List Ty
  | [] => []
  | t :: rest => t.arranged :: arrangedTypes rest

/-- Arranges every name of a path. -/
def arrangedSegments : List Segment → List Segment
  | [] => []
  | s :: rest => s.arranged :: arrangedSegments rest

/-- Arranges inside every argument of a list. -/
def arrangedItems : List Argument → List Argument
  | [] => []
  | a :: rest => a.arranged :: arrangedItems rest

end

lemma arrangedItems_eq_map : ∀ items : List Argument,
    arrangedItems items = items.map Argument.arranged
  | [] => rfl
  | a :: rest => by rw [arrangedItems, arrangedItems_eq_map rest, List.map_cons]

lemma arrangedSegments_eq_map : ∀ ss : List Segment, arrangedSegments ss = ss.map Segment.arranged
  | [] => rfl
  | s :: rest => by rw [arrangedSegments, arrangedSegments_eq_map rest, List.map_cons]

lemma Argument.isLifetime_arranged : ∀ a : Argument, a.arranged.isLifetime = a.isLifetime
  | .lifetime _ => by rw [Argument.arranged]
  | .type _ => by rw [Argument.arranged]; rfl
  | .other _ => by rw [Argument.arranged]

/-! ## What is printed -/

/-- Marks each of some token lists with whether a comma follows it. -/
def marked (ts : List (List Lexeme)) (comma : Bool) : List (List Lexeme × Bool) :=
  ts.map fun t => (t, comma)

/-- Token lists, each with a comma behind. -/
def ended (ts : List (List Lexeme)) : List Lexeme := ts.flatMap fun t => t ++ Token.marks ","

lemma commaLexemes_concat (trailing : Bool) (ts : List (List Lexeme)) (t : List Lexeme) :
    commaLexemes trailing (ts ++ [t])
      = ended ts ++ (t ++ if trailing then Token.marks "," else []) := by
  induction ts with
  | nil => rfl
  | cons s ts ih =>
      have hrest : commaLexemes trailing (s :: (ts ++ [t]))
          = s ++ Token.marks "," ++ commaLexemes trailing (ts ++ [t]) := by
        rw [commaLexemes]
        simp
      rw [List.cons_append, hrest, ih, ended, ended, List.flatMap_cons]
      simp only [List.append_assoc]

lemma withCommas_concat (trailing : Bool) (items : List (Bool × List Lexeme))
    (last : Bool × List Lexeme) :
    withCommas trailing (items ++ [last])
      = (items.map fun i => (i.1, i.2, true)) ++ [(last.1, last.2, trailing)] := by
  induction items with
  | nil => rfl
  | cons i items ih =>
      have hrest : withCommas trailing (i :: (items ++ [last]))
          = (i.1, i.2, true) :: withCommas trailing (items ++ [last]) := by
        rw [withCommas]
        simp
      rw [List.cons_append, hrest, ih, List.map_cons, List.cons_append]

lemma joinArguments_marked (separated : Bool) (ts : List (List Lexeme))
    (last : List (List Lexeme × Bool)) :
    joinArguments separated (marked ts true ++ last)
      = if ts.isEmpty then joinArguments separated last
        else (if separated then [] else Token.marks ",") ++ ended ts
          ++ joinArguments true last := by
  induction ts generalizing separated with
  | nil => rfl
  | cons t ts ih =>
      rw [marked, List.map_cons, List.cons_append, joinArguments, ← marked, ih]
      cases ts <;> simp [ended]

lemma lifetimesSeparated_marked (ts : List (List Lexeme)) :
    lifetimesSeparated (marked ts true) = true := by
  rcases List.eq_nil_or_concat' ts with rfl | ⟨front, t, rfl⟩
  · rfl
  · rw [marked, List.map_append, List.map_singleton, lifetimesSeparated]
    · simp
    · simp

/-- Lifetimes and other arguments, each with a comma behind if there is one. -/
def printed (lifetimes others : List (List Lexeme × Bool)) : List Lexeme :=
  (lifetimes.flatMap fun t => t.1 ++ if t.2 then Token.marks "," else [])
    ++ joinArguments (lifetimesSeparated lifetimes) others

lemma flatMap_marked (ts : List (List Lexeme)) :
    ((marked ts true).flatMap fun t => t.1 ++ if t.2 then Token.marks "," else []) = ended ts := by
  rw [marked, List.flatMap_map]
  rfl

/-- An argument that is no lifetime stays the last one. -/
lemma printed_concat_other (trailing : Bool) (lifetimes others : List (List Lexeme))
    (last : List Lexeme) :
    printed (marked lifetimes true) (marked others true ++ [(last, trailing)])
      = commaLexemes trailing (lifetimes ++ others ++ [last]) := by
  rw [printed, flatMap_marked, lifetimesSeparated_marked, joinArguments_marked,
    commaLexemes_concat]
  cases others <;> simp [joinArguments, ended]

/-- A lifetime that was the last argument leaves a comma behind the others. -/
lemma printed_concat_lifetime (trailing : Bool) (lifetimes others : List (List Lexeme))
    (last : List Lexeme) :
    printed (marked lifetimes true ++ [(last, trailing)]) (marked others true)
      = commaLexemes (trailing || !others.isEmpty) (lifetimes ++ [last] ++ others) := by
  have hseparated :
      lifetimesSeparated (marked lifetimes true ++ [(last, trailing)]) = trailing := by
    rw [lifetimesSeparated]
    · simp
    · simp
  rw [printed, List.flatMap_append, flatMap_marked, hseparated,
    ← List.append_nil (marked others true), joinArguments_marked]
  rcases List.eq_nil_or_concat' others with rfl | ⟨front, t, rfl⟩
  · simp [commaLexemes_concat, joinArguments]
  · rw [← List.append_assoc, commaLexemes_concat]
    cases trailing <;> simp [ended, joinArguments]

/-- **Printed, a list of arguments begins with its lifetimes.** -/
lemma argumentLexemes_eq (items : List (Bool × List Lexeme)) (trailing : Bool) :
    argumentLexemes items trailing
      = commaLexemes (trailing || items.getLast?.any (·.1) && items.any (! ·.1))
          ((items.filter (·.1) ++ items.filter (! ·.1)).map (·.2)) := by
  rcases List.eq_nil_or_concat' items with rfl | ⟨front, ⟨isLifetime, last⟩, rfl⟩
  · rfl
  · have hfront : ∀ p : Bool → Bool,
        ((front.map fun i => (i.1, i.2, true)).filter fun i => p i.1).map (·.2)
          = marked ((front.filter fun i => p i.1).map (·.2)) true := by
      intro p
      rw [List.filter_map, List.map_map, marked, List.map_map]
      rfl
    have hlifetimes := hfront id
    have hothers := hfront not
    dsimp only [id] at hlifetimes
    rw [argumentLexemes, withCommas_concat]
    change printed _ _ = _
    simp only [List.filter_append, List.map_append, hlifetimes, hothers]
    cases isLifetime
    · simpa [List.append_assoc] using printed_concat_other trailing
        ((front.filter fun i => i.1).map (·.2)) ((front.filter fun i => !i.1).map (·.2)) last
    · have hany : (!((front.filter fun i => !i.1).map (·.2)).isEmpty) = front.any (! ·.1) := by
        rw [Bool.eq_iff_iff]
        simp
      have hprinted := printed_concat_lifetime trailing
        ((front.filter fun i => i.1).map (·.2)) ((front.filter fun i => !i.1).map (·.2)) last
      rw [hany] at hprinted
      simpa [List.append_assoc] using hprinted

lemma itemLexemes_eq_map : ∀ items : List Argument,
    itemLexemes items = items.map fun a => (a.isLifetime, a.lexemes)
  | [] => rfl
  | a :: rest => by rw [itemLexemes, itemLexemes_eq_map rest, List.map_cons]

/-- The printed arguments are spelled with the lifetimes in front. -/
lemma argumentLexemes_spelled {items arranged : List Argument}
    (h : itemLexemes items = arranged.map fun a => (a.isLifetime, a.spelled)) (trailing : Bool) :
    argumentLexemes (itemLexemes items) trailing
      = commaLexemes (endsWithComma trailing arranged)
          (spelledItems (lifetimesFirst arranged)) := by
  rw [argumentLexemes_eq, h, spelledItems_eq_map, lifetimesFirst, endsWithComma]
  have hfilter : ∀ p : Bool → Bool,
      ((arranged.map fun a => (a.isLifetime, a.spelled)).filter fun i => p i.1).map (·.2)
        = (arranged.filter fun a => p a.isLifetime).map Argument.spelled := by
    intro p
    rw [List.filter_map, List.map_map]
    rfl
  have hlifetimes := hfilter id
  have hothers := hfilter not
  dsimp only [id] at hlifetimes
  rw [List.map_append, hlifetimes, hothers, ← List.map_append]
  congr 1
  simp [List.getLast?_map, Option.any_map, List.any_map, Function.comp_def]

mutual

/-- **What is printed is how the arranged type is spelled.** -/
theorem Ty.lexemes_eq_spelled : ∀ t : Ty, t.lexemes = t.arranged.spelled
  | .path p => by
      rw [Ty.lexemes, Ty.arranged, Ty.spelled]
      exact Path.lexemes_eq_spelled p
  | .reference l m t => by
      cases l <;> simp only [Ty.lexemes, Ty.arranged, Ty.spelled, Ty.lexemes_eq_spelled t]
  | .slice e => by
      rw [Ty.lexemes, Ty.arranged, Ty.spelled, Ty.lexemes_eq_spelled e]
  | .array e n => by
      rw [Ty.lexemes, Ty.arranged, Ty.spelled, Ty.lexemes_eq_spelled e]
  | .tuple es trailing => by
      rw [Ty.lexemes, Ty.arranged, Ty.spelled, typeLexemes_eq_spelled es]
  | .parenthesized t => by
      rw [Ty.lexemes, Ty.arranged, Ty.spelled, Ty.lexemes_eq_spelled t]
  | .qualified s d p => by rw [Ty.arranged, Ty.spelled]
  | .traitObject ps => by rw [Ty.lexemes, Ty.arranged, Ty.spelled]
  | .implTrait ps => by rw [Ty.lexemes, Ty.arranged, Ty.spelled]
  | .other ps => by rw [Ty.lexemes, Ty.arranged, Ty.spelled]

lemma Path.lexemes_eq_spelled : ∀ p : Path, p.lexemes = p.arranged.spelled
  | .mk r segments => by
      rw [Path.lexemes, Path.arranged, Path.spelled, segmentLexemes_eq_spelled segments]

lemma Segment.lexemes_eq_spelled : ∀ s : Segment, s.lexemes = s.arranged.spelled
  | .mk n a => by
      rw [Segment.lexemes, Segment.arranged, Segment.spelled, Arguments.lexemes_eq_spelled a]

lemma Arguments.lexemes_eq_spelled : ∀ a : Arguments, a.lexemes = a.arranged.spelled
  | .none => by rw [Arguments.lexemes, Arguments.arranged, Arguments.spelled]
  | .angled turbofish items trailing => by
      rw [Arguments.lexemes, Arguments.arranged, Arguments.spelled,
        argumentLexemes_spelled (itemLexemes_eq_spelled items)]
  | .called ps => by rw [Arguments.lexemes, Arguments.arranged, Arguments.spelled]

lemma Argument.lexemes_eq_spelled : ∀ a : Argument, a.lexemes = a.arranged.spelled
  | .lifetime n => by rw [Argument.lexemes, Argument.arranged, Argument.spelled]
  | .type t => by
      rw [Argument.lexemes, Argument.arranged, Argument.spelled, Ty.lexemes_eq_spelled t]
  | .other ps => by rw [Argument.lexemes, Argument.arranged, Argument.spelled]

lemma typeLexemes_eq_spelled : ∀ ts : List Ty, typeLexemes ts = spelledTypes (arrangedTypes ts)
  | [] => by rw [typeLexemes, arrangedTypes, spelledTypes]
  | t :: rest => by
      rw [typeLexemes, arrangedTypes, spelledTypes, Ty.lexemes_eq_spelled t,
        typeLexemes_eq_spelled rest]

lemma segmentLexemes_eq_spelled : ∀ ss : List Segment,
    segmentLexemes ss = spelledSegments (arrangedSegments ss)
  | [] => by rw [segmentLexemes, arrangedSegments, spelledSegments]
  | s :: rest => by
      rw [segmentLexemes, arrangedSegments, spelledSegments, Segment.lexemes_eq_spelled s,
        segmentLexemes_eq_spelled rest]

lemma itemLexemes_eq_spelled : ∀ items : List Argument,
    itemLexemes items = (arrangedItems items).map fun a => (a.isLifetime, a.spelled)
  | [] => by rw [itemLexemes, arrangedItems, List.map_nil]
  | a :: rest => by
      rw [itemLexemes, arrangedItems, List.map_cons, Argument.lexemes_eq_spelled a,
        itemLexemes_eq_spelled rest, Argument.isLifetime_arranged a]

end

/-! ## Arranging and shortening twice -/

lemma lifetimesFirst_lifetimesFirst (items : List Argument) :
    lifetimesFirst (lifetimesFirst items) = lifetimesFirst items := by
  simp [lifetimesFirst, List.filter_append, List.filter_filter]

/-- Once the lifetimes are in front, no comma is left behind. -/
lemma endsWithComma_lifetimesFirst (trailing : Bool) (items : List Argument) :
    endsWithComma trailing (lifetimesFirst items) = trailing := by
  rw [endsWithComma, lifetimesFirst]
  rcases List.eq_nil_or_concat' (items.filter (! ·.isLifetime)) with h | ⟨front, last, h⟩
  · rw [h]
    simp
  · have hlast : last.isLifetime = false := by
      have hmem : last ∈ items.filter (! ·.isLifetime) := by rw [h]; simp
      simpa using (List.mem_filter.1 hmem).2
    rw [h]
    simp [hlast]

/-- What keeps lifetimes apart from other arguments can be done before or after. -/
lemma lifetimesFirst_map {f : Argument → Argument} (hf : ∀ a, (f a).isLifetime = a.isLifetime)
    (items : List Argument) : lifetimesFirst (items.map f) = (lifetimesFirst items).map f := by
  simp [lifetimesFirst, List.filter_map, Function.comp_def, hf]

lemma endsWithComma_map {f : Argument → Argument} (hf : ∀ a, (f a).isLifetime = a.isLifetime)
    (trailing : Bool) (items : List Argument) :
    endsWithComma trailing (items.map f) = endsWithComma trailing items := by
  simp [endsWithComma, List.getLast?_map, Option.any_map, List.any_map, Function.comp_def, hf]

mutual

/-- Arranging a second time changes nothing. -/
lemma Ty.arranged_arranged : ∀ t : Ty, t.arranged.arranged = t.arranged
  | .path p => by rw [Ty.arranged, Ty.arranged, Path.arranged_arranged p]
  | .reference l m t => by rw [Ty.arranged, Ty.arranged, Ty.arranged_arranged t]
  | .slice e => by rw [Ty.arranged, Ty.arranged, Ty.arranged_arranged e]
  | .array e n => by rw [Ty.arranged, Ty.arranged, Ty.arranged_arranged e]
  | .tuple es trailing => by rw [Ty.arranged, Ty.arranged, arrangedTypes_arrangedTypes es]
  | .parenthesized t => by rw [Ty.arranged, Ty.arranged, Ty.arranged_arranged t]
  | .qualified _ _ _ | .traitObject _ | .implTrait _ | .other _ => by simp only [Ty.arranged]

lemma Path.arranged_arranged : ∀ p : Path, p.arranged.arranged = p.arranged
  | .mk r segments => by
      rw [Path.arranged, Path.arranged, arrangedSegments_arrangedSegments segments]

lemma Segment.arranged_arranged : ∀ s : Segment, s.arranged.arranged = s.arranged
  | .mk n a => by rw [Segment.arranged, Segment.arranged, Arguments.arranged_arranged a]

lemma Arguments.arranged_arranged : ∀ a : Arguments, a.arranged.arranged = a.arranged
  | .none | .called _ => by simp only [Arguments.arranged]
  | .angled turbofish items trailing => by
      rw [Arguments.arranged, Arguments.arranged]
      have hitems : arrangedItems (lifetimesFirst (arrangedItems items))
          = lifetimesFirst (arrangedItems items) := by
        rw [arrangedItems_eq_map (lifetimesFirst _),
          ← lifetimesFirst_map Argument.isLifetime_arranged, ← arrangedItems_eq_map,
          arrangedItems_arrangedItems items]
      rw [hitems, lifetimesFirst_lifetimesFirst, endsWithComma_lifetimesFirst]

lemma Argument.arranged_arranged : ∀ a : Argument, a.arranged.arranged = a.arranged
  | .lifetime _ | .other _ => by simp only [Argument.arranged]
  | .type t => by rw [Argument.arranged, Argument.arranged, Ty.arranged_arranged t]

lemma arrangedTypes_arrangedTypes : ∀ ts : List Ty,
    arrangedTypes (arrangedTypes ts) = arrangedTypes ts
  | [] => by rw [arrangedTypes, arrangedTypes]
  | t :: rest => by
      rw [arrangedTypes, arrangedTypes, Ty.arranged_arranged t, arrangedTypes_arrangedTypes rest]

lemma arrangedSegments_arrangedSegments : ∀ ss : List Segment,
    arrangedSegments (arrangedSegments ss) = arrangedSegments ss
  | [] => by rw [arrangedSegments, arrangedSegments]
  | s :: rest => by
      rw [arrangedSegments, arrangedSegments, Segment.arranged_arranged s,
        arrangedSegments_arrangedSegments rest]

lemma arrangedItems_arrangedItems : ∀ items : List Argument,
    arrangedItems (arrangedItems items) = arrangedItems items
  | [] => by rw [arrangedItems, arrangedItems]
  | a :: rest => by
      rw [arrangedItems, arrangedItems, Argument.arranged_arranged a,
        arrangedItems_arrangedItems rest]

end

lemma shortenItems_eq_map : ∀ items : List Argument, shortenItems items = items.map Argument.shorten
  | [] => rfl
  | a :: rest => by rw [shortenItems, shortenItems_eq_map rest, List.map_cons]

lemma Argument.isLifetime_shorten : ∀ a : Argument, a.shorten.isLifetime = a.isLifetime
  | .lifetime _ => by rw [Argument.shorten]
  | .type _ => by rw [Argument.shorten]; rfl
  | .other _ => by rw [Argument.shorten]; rfl

lemma Segment.name_shortenInner : ∀ s : Segment, s.shortenInner.name = s.name
  | .mk _ _ => by rw [Segment.shortenInner]; rfl

lemma Segment.name_arranged : ∀ s : Segment, s.arranged.name = s.name
  | .mk _ _ => by rw [Segment.arranged]; rfl

/-- The names of a path decide whether it is shortened. -/
lemma shorten_map {f : Segment → Segment} (hf : ∀ s, (f s).name = s.name) (r : Bool)
    (segments : List Segment) :
    (Path.mk r (segments.map f)).shorten
      = .mk (Path.mk r segments).shorten.rooted ((Path.mk r segments).shorten.segments.map f) := by
  rcases segments with _ | ⟨a, _ | ⟨b, _ | ⟨c, _ | ⟨d, rest⟩⟩⟩⟩
  case cons.cons.cons.nil =>
    have hprelude : (Path.mk r [f a, f b, f c]).isPrelude = (Path.mk r [a, b, c]).isPrelude := by
      simp [Path.isPrelude, Path.segments, hf]
    simp only [List.map_cons, List.map_nil, Path.shorten, Path.segments, hprelude]
    split <;> rfl
  all_goals rfl

/-- A path that was shortened is not shortened again. -/
lemma Path.shorten_shorten (p : Path) : p.shorten.shorten = p.shorten := by
  obtain ⟨r, segments⟩ := p
  rcases segments with _ | ⟨a, _ | ⟨b, _ | ⟨c, _ | ⟨d, rest⟩⟩⟩⟩
  case cons.cons.cons.nil =>
    cases h : (Path.mk r [a, b, c]).isPrelude <;> simp [Path.shorten, Path.segments, h]
  all_goals rfl

lemma shortenSegments_eq_map : ∀ ss : List Segment,
    shortenSegments ss = ss.map Segment.shortenInner
  | [] => rfl
  | s :: rest => by rw [shortenSegments, shortenSegments_eq_map rest, List.map_cons]

lemma Path.shortenInner_shorten (p : Path) : p.shorten.shortenInner = p.shortenInner.shorten := by
  obtain ⟨r, segments⟩ := p
  rw [Path.shortenInner, shortenSegments_eq_map, shorten_map Segment.name_shortenInner]
  cases (Path.mk r segments).shorten
  rw [Path.shortenInner, shortenSegments_eq_map]
  rfl

lemma Path.arranged_shorten (p : Path) : p.shorten.arranged = p.arranged.shorten := by
  obtain ⟨r, segments⟩ := p
  rw [Path.arranged, arrangedSegments_eq_map, shorten_map Segment.name_arranged]
  cases (Path.mk r segments).shorten
  rw [Path.arranged, arrangedSegments_eq_map]
  rfl

mutual

/-- **Shortening a second time changes nothing.** -/
theorem Ty.shorten_shorten : ∀ t : Ty, t.shorten.shorten = t.shorten
  | .path p => by
      rw [Ty.shorten, Ty.shorten, Path.shortenInner_shorten, Path.shortenInner_shortenInner p,
        Path.shorten_shorten]
  | .qualified s d p => by
      rw [Ty.shorten, Ty.shorten, Ty.shorten_shorten s, Path.shortenInner_shorten,
        Path.shortenInner_shortenInner p, Path.shorten_shorten]
  | .reference l m t => by rw [Ty.shorten, Ty.shorten, Ty.shorten_shorten t]
  | .slice e => by rw [Ty.shorten, Ty.shorten, Ty.shorten_shorten e]
  | .array e n => by
      rw [Ty.shorten, Ty.shorten, Ty.shorten_shorten e, shortenPieces_shortenPieces n]
  | .tuple es trailing => by rw [Ty.shorten, Ty.shorten, shortenTypes_shortenTypes es]
  | .parenthesized t => by rw [Ty.shorten, Ty.shorten, Ty.shorten_shorten t]
  | .traitObject ps => by rw [Ty.shorten, Ty.shorten, shortenPieces_shortenPieces ps]
  | .implTrait ps => by rw [Ty.shorten, Ty.shorten, shortenPieces_shortenPieces ps]
  | .other ps => by rw [Ty.shorten, Ty.shorten, shortenPieces_shortenPieces ps]

lemma Path.shortenInner_shortenInner : ∀ p : Path, p.shortenInner.shortenInner = p.shortenInner
  | .mk r segments => by
      rw [Path.shortenInner, Path.shortenInner, shortenSegments_shortenSegments segments]

lemma Segment.shortenInner_shortenInner : ∀ s : Segment,
    s.shortenInner.shortenInner = s.shortenInner
  | .mk n a => by rw [Segment.shortenInner, Segment.shortenInner, Arguments.shorten_shorten a]

lemma Arguments.shorten_shorten : ∀ a : Arguments, a.shorten.shorten = a.shorten
  | .none => by simp only [Arguments.shorten]
  | .angled turbofish items trailing => by
      rw [Arguments.shorten, Arguments.shorten, shortenItems_shortenItems items]
  | .called ps => by rw [Arguments.shorten, Arguments.shorten, shortenPieces_shortenPieces ps]

lemma Argument.shorten_shorten : ∀ a : Argument, a.shorten.shorten = a.shorten
  | .lifetime _ => by simp only [Argument.shorten]
  | .type t => by rw [Argument.shorten, Argument.shorten, Ty.shorten_shorten t]
  | .other ps => by rw [Argument.shorten, Argument.shorten, shortenPieces_shortenPieces ps]

lemma Piece.shorten_shorten : ∀ p : Piece, p.shorten.shorten = p.shorten
  | .token _ => by simp only [Piece.shorten]
  | .type t => by rw [Piece.shorten, Piece.shorten, Ty.shorten_shorten t]
  | .path p => by rw [Piece.shorten, Piece.shorten, Path.shortenInner_shortenInner p]
  | .group d ps => by rw [Piece.shorten, Piece.shorten, shortenPieces_shortenPieces ps]

lemma shortenTypes_shortenTypes : ∀ ts : List Ty,
    shortenTypes (shortenTypes ts) = shortenTypes ts
  | [] => by rw [shortenTypes, shortenTypes]
  | t :: rest => by
      rw [shortenTypes, shortenTypes, Ty.shorten_shorten t, shortenTypes_shortenTypes rest]

lemma shortenSegments_shortenSegments : ∀ ss : List Segment,
    shortenSegments (shortenSegments ss) = shortenSegments ss
  | [] => by rw [shortenSegments, shortenSegments]
  | s :: rest => by
      rw [shortenSegments, shortenSegments, Segment.shortenInner_shortenInner s,
        shortenSegments_shortenSegments rest]

lemma shortenItems_shortenItems : ∀ items : List Argument,
    shortenItems (shortenItems items) = shortenItems items
  | [] => by rw [shortenItems, shortenItems]
  | a :: rest => by
      rw [shortenItems, shortenItems, Argument.shorten_shorten a, shortenItems_shortenItems rest]

lemma shortenPieces_shortenPieces : ∀ ps : List Piece,
    shortenPieces (shortenPieces ps) = shortenPieces ps
  | [] => by rw [shortenPieces, shortenPieces]
  | p :: rest => by
      rw [shortenPieces, shortenPieces, Piece.shorten_shorten p, shortenPieces_shortenPieces rest]

end

mutual

/-- **It does not matter whether lifetimes are moved before or after.** -/
theorem Ty.arranged_shorten : ∀ t : Ty, t.shorten.arranged = t.arranged.shorten
  | .path p => by
      rw [Ty.shorten, Ty.arranged, Ty.arranged, Ty.shorten, Path.arranged_shorten,
        Path.arranged_shortenInner p]
  | .qualified _ _ _ | .traitObject _ | .implTrait _ | .other _ => by
      simp only [Ty.shorten, Ty.arranged]
  | .reference l m t => by
      rw [Ty.shorten, Ty.arranged, Ty.arranged, Ty.shorten, Ty.arranged_shorten t]
  | .slice e => by rw [Ty.shorten, Ty.arranged, Ty.arranged, Ty.shorten, Ty.arranged_shorten e]
  | .array e n => by rw [Ty.shorten, Ty.arranged, Ty.arranged, Ty.shorten, Ty.arranged_shorten e]
  | .tuple es trailing => by
      rw [Ty.shorten, Ty.arranged, Ty.arranged, Ty.shorten, arrangedTypes_shortenTypes es]
  | .parenthesized t => by
      rw [Ty.shorten, Ty.arranged, Ty.arranged, Ty.shorten, Ty.arranged_shorten t]

lemma Path.arranged_shortenInner : ∀ p : Path, p.shortenInner.arranged = p.arranged.shortenInner
  | .mk r segments => by
      rw [Path.shortenInner, Path.arranged, Path.arranged, Path.shortenInner,
        arrangedSegments_shortenSegments segments]

lemma Segment.arranged_shortenInner : ∀ s : Segment,
    s.shortenInner.arranged = s.arranged.shortenInner
  | .mk n a => by
      rw [Segment.shortenInner, Segment.arranged, Segment.arranged, Segment.shortenInner,
        Arguments.arranged_shorten a]

lemma Arguments.arranged_shorten : ∀ a : Arguments, a.shorten.arranged = a.arranged.shorten
  | .none | .called _ => by simp only [Arguments.shorten, Arguments.arranged]
  | .angled turbofish items trailing => by
      rw [Arguments.shorten, Arguments.arranged, Arguments.arranged, Arguments.shorten,
        arrangedItems_shortenItems items, shortenItems_eq_map, shortenItems_eq_map,
        lifetimesFirst_map Argument.isLifetime_shorten,
        endsWithComma_map Argument.isLifetime_shorten]

lemma Argument.arranged_shorten : ∀ a : Argument, a.shorten.arranged = a.arranged.shorten
  | .lifetime _ | .other _ => by simp only [Argument.shorten, Argument.arranged]
  | .type t => by
      rw [Argument.shorten, Argument.arranged, Argument.arranged, Argument.shorten,
        Ty.arranged_shorten t]

lemma arrangedTypes_shortenTypes : ∀ ts : List Ty,
    arrangedTypes (shortenTypes ts) = shortenTypes (arrangedTypes ts)
  | [] => by rw [shortenTypes, arrangedTypes, shortenTypes]
  | t :: rest => by
      rw [shortenTypes, arrangedTypes, arrangedTypes, shortenTypes, Ty.arranged_shorten t,
        arrangedTypes_shortenTypes rest]

lemma arrangedSegments_shortenSegments : ∀ ss : List Segment,
    arrangedSegments (shortenSegments ss) = shortenSegments (arrangedSegments ss)
  | [] => by rw [shortenSegments, arrangedSegments, shortenSegments]
  | s :: rest => by
      rw [shortenSegments, arrangedSegments, arrangedSegments, shortenSegments,
        Segment.arranged_shortenInner s, arrangedSegments_shortenSegments rest]

lemma arrangedItems_shortenItems : ∀ items : List Argument,
    arrangedItems (shortenItems items) = shortenItems (arrangedItems items)
  | [] => by rw [shortenItems, arrangedItems, shortenItems]
  | a :: rest => by
      rw [shortenItems, arrangedItems, arrangedItems, shortenItems, Argument.arranged_shorten a,
        arrangedItems_shortenItems rest]

end

/-! ## Well-spelled types -/

/-- A text that is one word: an identifier or a raw identifier. -/
structure IsWord (w : String) : Prop where
  name : Scan.name? w.toList = some (w.toList, [])
  visible : ∀ c ∈ w.toList.head?, Scan.isSeparator c = false ∧ c ≠ '\ufeff'

/-- A text that is one whole number. -/
structure IsInteger (d : String) : Prop where
  whole : Literal.whole d.toList = some []
  decimal : Literal.decimal d.toList = none

/-- A word can be a name of a path.  There are few keywords that can, and most of them have no
arguments. -/
def IsPathWord (bare : Bool) (w : String) : Prop :=
  w ∉ Ahead.reserved ∨ w = "Self" ∨ bare = true ∧ w ∈ ["super", "self", "crate", "try"]

mutual

/-- A type is built from paths, references, slices, arrays, tuples and parentheses, and spelled with
words. -/
def Ty.WellSpelled : Ty → Prop
  | .path p => p.WellSpelled
  | .reference l _ t => (∀ n ∈ l, IsWord n) ∧ t.WellSpelled
  | .slice e => e.WellSpelled
  | .array e n => e.WellSpelled ∧ ∃ d, n = [.token (.literal d ())] ∧ IsInteger d
  | .tuple es trailing =>
      typesWellSpelled es ∧ (es = [] → trailing = false) ∧ (es.length = 1 → trailing = true)
  | .parenthesized t => t.WellSpelled
  | .qualified _ _ _ | .traitObject _ | .implTrait _ | .other _ => False

/-- A path is spelled with words. -/
def Path.WellSpelled : Path → Prop
  | .mk r segments =>
      segmentsWellSpelled segments ∧ segments ≠ []
        ∧ (r = false → ∀ s ∈ segments.head?, s.name ≠ "try")

/-- A name and its arguments are spelled with words. -/
def Segment.WellSpelled : Segment → Prop
  | .mk n a => IsWord n ∧ IsPathWord a.isNone n ∧ a.WellSpelled

/-- Arguments in angle brackets are spelled with words. -/
def Arguments.WellSpelled : Arguments → Prop
  | .none => True
  | .angled _ items trailing => itemsWellSpelled items ∧ (items = [] → trailing = true)
  | .called _ => False

/-- A lifetime or a type is spelled with words. -/
def Argument.WellSpelled : Argument → Prop
  | .lifetime n => IsWord n
  | .type t => t.WellSpelled
  | .other _ => False

/-- All of these types are spelled with words. -/
def typesWellSpelled : List Ty → Prop
  | [] => True
  | t :: rest => t.WellSpelled ∧ typesWellSpelled rest

/-- All of these names are spelled with words. -/
def segmentsWellSpelled : List Segment → Prop
  | [] => True
  | s :: rest => s.WellSpelled ∧ segmentsWellSpelled rest

/-- All of these arguments are spelled with words. -/
def itemsWellSpelled : List Argument → Prop
  | [] => True
  | a :: rest => a.WellSpelled ∧ itemsWellSpelled rest

end

lemma typesWellSpelled_iff : ∀ {ts : List Ty}, typesWellSpelled ts ↔ ∀ t ∈ ts, t.WellSpelled
  | [] => by simp [typesWellSpelled]
  | t :: rest => by rw [typesWellSpelled, typesWellSpelled_iff, List.forall_mem_cons]

lemma segmentsWellSpelled_iff : ∀ {ss : List Segment},
    segmentsWellSpelled ss ↔ ∀ s ∈ ss, s.WellSpelled
  | [] => by simp [segmentsWellSpelled]
  | s :: rest => by rw [segmentsWellSpelled, segmentsWellSpelled_iff, List.forall_mem_cons]

lemma itemsWellSpelled_iff : ∀ {items : List Argument},
    itemsWellSpelled items ↔ ∀ a ∈ items, a.WellSpelled
  | [] => by simp [itemsWellSpelled]
  | a :: rest => by rw [itemsWellSpelled, itemsWellSpelled_iff, List.forall_mem_cons]

/-- A shortened path is spelled with words. -/
lemma Path.WellSpelled.shorten {p : Path} (h : p.WellSpelled) : p.shorten.WellSpelled := by
  obtain ⟨r, segments⟩ := p
  rcases segments with _ | ⟨a, _ | ⟨b, _ | ⟨c, _ | ⟨d, rest⟩⟩⟩⟩
  case cons.cons.cons.nil =>
    cases hprelude : (Path.mk r [a, b, c]).isPrelude
    · simpa [Path.shorten, Path.segments, hprelude] using h
    · have hshort : (Path.mk r [a, b, c]).shorten = .mk false [c] := by
        simp [Path.shorten, Path.segments, hprelude]
      have hname : c.name ≠ "try" := by
        intro hc
        rw [Path.isPrelude, Path.segments] at hprelude
        simp [hc, preludeTypes] at hprelude
      rw [hshort]
      exact ⟨⟨h.1.2.2.1, trivial⟩, by simp, by simpa using hname⟩
  all_goals exact h

lemma shortenTypes_eq_map : ∀ ts : List Ty, shortenTypes ts = ts.map Ty.shorten
  | [] => rfl
  | t :: rest => by rw [shortenTypes, shortenTypes_eq_map rest, List.map_cons]

lemma arrangedTypes_eq_map : ∀ ts : List Ty, arrangedTypes ts = ts.map Ty.arranged
  | [] => rfl
  | t :: rest => by rw [arrangedTypes, arrangedTypes_eq_map rest, List.map_cons]

lemma Arguments.isNone_shorten : ∀ a : Arguments, a.shorten.isNone = a.isNone
  | .none | .angled _ _ _ | .called _ => by simp only [Arguments.shorten, Arguments.isNone]

lemma Arguments.isNone_arranged : ∀ a : Arguments, a.arranged.isNone = a.isNone
  | .none | .angled _ _ _ | .called _ => by simp only [Arguments.arranged, Arguments.isNone]

mutual

/-- **Shortening leaves a type spelled with words.** -/
theorem Ty.WellSpelled.shorten : ∀ {t : Ty}, t.WellSpelled → t.shorten.WellSpelled
  | .path p, h => by
      rw [Ty.shorten]
      exact Path.WellSpelled.shorten (Path.WellSpelled.shortenInner (p := p) h)
  | .reference l m t, h => by
      rw [Ty.shorten]
      exact ⟨h.1, Ty.WellSpelled.shorten h.2⟩
  | .slice e, h => by
      rw [Ty.shorten]
      exact Ty.WellSpelled.shorten (t := e) h
  | .array e n, h => by
      obtain ⟨he, d, rfl, hd⟩ := h
      rw [Ty.shorten]
      exact ⟨Ty.WellSpelled.shorten he, d, rfl, hd⟩
  | .tuple es trailing, h => by
      rw [Ty.shorten]
      refine ⟨typesWellSpelled_shorten h.1, ?_, ?_⟩
      · simpa [shortenTypes_eq_map] using h.2.1
      · simpa [shortenTypes_eq_map] using h.2.2
  | .parenthesized t, h => by
      rw [Ty.shorten]
      exact Ty.WellSpelled.shorten (t := t) h

lemma Path.WellSpelled.shortenInner : ∀ {p : Path}, p.WellSpelled → p.shortenInner.WellSpelled
  | .mk r segments, h => by
      rw [Path.shortenInner]
      refine ⟨segmentsWellSpelled_shorten h.1, ?_, ?_⟩
      · simpa [shortenSegments_eq_map] using h.2.1
      · simpa [shortenSegments_eq_map, Segment.name_shortenInner] using h.2.2

lemma Segment.WellSpelled.shortenInner : ∀ {s : Segment}, s.WellSpelled →
    s.shortenInner.WellSpelled
  | .mk n a, h => by
      rw [Segment.shortenInner]
      exact ⟨h.1, a.isNone_shorten.symm ▸ h.2.1, Arguments.WellSpelled.shorten h.2.2⟩

lemma Arguments.WellSpelled.shorten : ∀ {a : Arguments}, a.WellSpelled → a.shorten.WellSpelled
  | .none, _ => by
      rw [Arguments.shorten]
      trivial
  | .angled turbofish items trailing, h => by
      rw [Arguments.shorten]
      refine ⟨itemsWellSpelled_shorten h.1, ?_⟩
      simpa [shortenItems_eq_map] using h.2

lemma Argument.WellSpelled.shorten : ∀ {a : Argument}, a.WellSpelled → a.shorten.WellSpelled
  | .lifetime n, h => by
      rw [Argument.shorten]
      exact h
  | .type t, h => by
      rw [Argument.shorten]
      exact Ty.WellSpelled.shorten (t := t) h

lemma typesWellSpelled_shorten : ∀ {ts : List Ty}, typesWellSpelled ts →
    typesWellSpelled (shortenTypes ts)
  | [], _ => by
      rw [shortenTypes]
      trivial
  | t :: rest, h => by
      rw [shortenTypes]
      exact ⟨Ty.WellSpelled.shorten h.1, typesWellSpelled_shorten h.2⟩

lemma segmentsWellSpelled_shorten : ∀ {ss : List Segment}, segmentsWellSpelled ss →
    segmentsWellSpelled (shortenSegments ss)
  | [], _ => by
      rw [shortenSegments]
      trivial
  | s :: rest, h => by
      rw [shortenSegments]
      exact ⟨Segment.WellSpelled.shortenInner h.1, segmentsWellSpelled_shorten h.2⟩

lemma itemsWellSpelled_shorten : ∀ {items : List Argument}, itemsWellSpelled items →
    itemsWellSpelled (shortenItems items)
  | [], _ => by
      rw [shortenItems]
      trivial
  | a :: rest, h => by
      rw [shortenItems]
      exact ⟨Argument.WellSpelled.shorten h.1, itemsWellSpelled_shorten h.2⟩

end

lemma mem_lifetimesFirst {items : List Argument} {a : Argument} :
    a ∈ lifetimesFirst items ↔ a ∈ items := by
  rw [lifetimesFirst, List.mem_append, List.mem_filter, List.mem_filter]
  cases a.isLifetime <;> simp

mutual

/-- **Moving lifetimes leaves a type spelled with words.** -/
theorem Ty.WellSpelled.arranged : ∀ {t : Ty}, t.WellSpelled → t.arranged.WellSpelled
  | .path p, h => by
      rw [Ty.arranged]
      exact Path.WellSpelled.arranged (p := p) h
  | .reference l m t, h => by
      rw [Ty.arranged]
      exact ⟨h.1, Ty.WellSpelled.arranged h.2⟩
  | .slice e, h => by
      rw [Ty.arranged]
      exact Ty.WellSpelled.arranged (t := e) h
  | .array e n, h => by
      rw [Ty.arranged]
      exact ⟨Ty.WellSpelled.arranged h.1, h.2⟩
  | .tuple es trailing, h => by
      rw [Ty.arranged]
      refine ⟨typesWellSpelled_arranged h.1, ?_, ?_⟩
      · simpa [arrangedTypes_eq_map] using h.2.1
      · simpa [arrangedTypes_eq_map] using h.2.2
  | .parenthesized t, h => by
      rw [Ty.arranged]
      exact Ty.WellSpelled.arranged (t := t) h

lemma Path.WellSpelled.arranged : ∀ {p : Path}, p.WellSpelled → p.arranged.WellSpelled
  | .mk r segments, h => by
      rw [Path.arranged]
      refine ⟨segmentsWellSpelled_arranged h.1, ?_, ?_⟩
      · simpa [arrangedSegments_eq_map] using h.2.1
      · simpa [arrangedSegments_eq_map, Segment.name_arranged] using h.2.2

lemma Segment.WellSpelled.arranged : ∀ {s : Segment}, s.WellSpelled → s.arranged.WellSpelled
  | .mk n a, h => by
      rw [Segment.arranged]
      exact ⟨h.1, a.isNone_arranged.symm ▸ h.2.1, Arguments.WellSpelled.arranged h.2.2⟩

lemma Arguments.WellSpelled.arranged : ∀ {a : Arguments}, a.WellSpelled → a.arranged.WellSpelled
  | .none, _ => by
      rw [Arguments.arranged]
      trivial
  | .angled turbofish items trailing, h => by
      rw [Arguments.arranged]
      have hitems := itemsWellSpelled_iff.1 (itemsWellSpelled_arranged h.1)
      refine ⟨itemsWellSpelled_iff.2 fun a ha => hitems a (mem_lifetimesFirst.1 ha), fun hnil => ?_⟩
      have hempty : items = [] := by
        rw [arrangedItems_eq_map, lifetimesFirst_map Argument.isLifetime_arranged,
          List.map_eq_nil_iff] at hnil
        exact List.eq_nil_iff_forall_not_mem.2 fun a ha =>
          List.not_mem_nil (hnil ▸ mem_lifetimesFirst.2 ha)
      rw [endsWithComma, h.2 hempty, Bool.true_or]

lemma Argument.WellSpelled.arranged : ∀ {a : Argument}, a.WellSpelled → a.arranged.WellSpelled
  | .lifetime n, h => by
      rw [Argument.arranged]
      exact h
  | .type t, h => by
      rw [Argument.arranged]
      exact Ty.WellSpelled.arranged (t := t) h

lemma typesWellSpelled_arranged : ∀ {ts : List Ty}, typesWellSpelled ts →
    typesWellSpelled (arrangedTypes ts)
  | [], _ => by
      rw [arrangedTypes]
      trivial
  | t :: rest, h => by
      rw [arrangedTypes]
      exact ⟨Ty.WellSpelled.arranged h.1, typesWellSpelled_arranged h.2⟩

lemma segmentsWellSpelled_arranged : ∀ {ss : List Segment}, segmentsWellSpelled ss →
    segmentsWellSpelled (arrangedSegments ss)
  | [], _ => by
      rw [arrangedSegments]
      trivial
  | s :: rest, h => by
      rw [arrangedSegments]
      exact ⟨Segment.WellSpelled.arranged h.1, segmentsWellSpelled_arranged h.2⟩

lemma itemsWellSpelled_arranged : ∀ {items : List Argument}, itemsWellSpelled items →
    itemsWellSpelled (arrangedItems items)
  | [], _ => by
      rw [arrangedItems]
      trivial
  | a :: rest, h => by
      rw [arrangedItems]
      exact ⟨Argument.WellSpelled.arranged h.1, itemsWellSpelled_arranged h.2⟩

end

end FieldCopy.Source
