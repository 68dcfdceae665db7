import Mathlib
import FieldCopy.Source.Grammar
import FieldCopy.Proofs.Canonical.Shapes

/-!
# Tokens that parsers leave

A parser takes tokens from the front of a list, so what it leaves is a suffix of the list
(`Parser.TakesFront`).  That is a class: for a parser that is put together from others an instance
is found by following its definition, except where it looks into a token or into what another parser
gave.

**Groups.**  A group is one token for what it stands in.  Nothing needs to be known of the parsers
of its content, and so nothing of the statements of a block.

**Main statement.**  `Grammar.takesFront_atDepth`: all parsers of the grammar take tokens from the
front, however deep parts may be nested in it.
-/

namespace FieldCopy.Source

/-- A parser takes tokens from the front of a list and leaves the others. -/
class Parser.TakesFront {α : Type} (p : Parser α) : Prop where
  suffix : ∀ {ts : Tokens} {a : α} {rest : Tokens}, p ts = some (a, rest) → rest <:+ ts

namespace Parser

variable {α β : Type}

/-! ## Sequences -/

instance (a : α) : TakesFront (pure a) where
  suffix h := (pure_eq_some h).2 ▸ List.suffix_rfl

lemma TakesFront.bind {p : Parser α} {f : α → Parser β} (hp : p.TakesFront)
    (hf : ∀ a, (f a).TakesFront) : TakesFront (p >>= f) where
  suffix h := by
    obtain ⟨a, ts', ha, hb⟩ := bind_eq_some h
    exact ((hf a).suffix hb).trans (hp.suffix ha)

instance {p : Parser α} {f : α → Parser β} [p.TakesFront] [∀ a, (f a).TakesFront] :
    TakesFront (p >>= f) := .bind inferInstance inferInstance

instance {p : Parser α} {f : α → β} [hp : p.TakesFront] : TakesFront (f <$> p) where
  suffix h := by
    rw [map_apply] at h
    obtain ⟨⟨a, rest⟩, ha, h⟩ := Option.map_eq_some_iff.1 h
    obtain ⟨-, rfl⟩ := Prod.mk.inj h
    exact hp.suffix ha

instance {c : Prop} [Decidable c] {p q : Parser α} [p.TakesFront] [q.TakesFront] :
    TakesFront (if c then p else q) := by
  split <;> assumption

instance : TakesFront (failure : Parser α) where
  suffix h := absurd h (by simp [failure, StateT.failure])

instance (a : Ahead) : TakesFront (ahead a) where
  suffix h := by
    obtain ⟨-, rfl⟩ := Prod.mk.inj (Option.some.inj h)
    exact List.suffix_rfl

/-- What one of two parsers takes. -/
lemma orElse_cases {p q : Parser α} {ts rest : Tokens} {a : α}
    (h : (p <|> q) ts = some (a, rest)) : p ts = some (a, rest) ∨ q ts = some (a, rest) := by
  change (p ts <|> q ts) = some (a, rest) at h
  cases hp : p ts with
  | none => rw [hp] at h; exact .inr h
  | some x => rw [hp] at h; exact .inl h

instance {p q : Parser α} [p.TakesFront] [q.TakesFront] : TakesFront (p <|> q) where
  suffix h := (orElse_cases h).elim TakesFront.suffix TakesFront.suffix

lemma TakesFront.ahead {a : Ahead} {p q : Parser α} (hp : p.TakesFront) (hq : q.TakesFront) :
    TakesFront (do if ← ahead a then p else q) := inferInstance

instance : TakesFront (get : Parser Tokens) where
  suffix h := by
    obtain ⟨-, rfl⟩ := Prod.mk.inj (Option.some.inj h)
    exact List.suffix_rfl

/-- A parser may be chosen by the tokens it is run on. -/
instance (p : Nat → Parser α) [hp : ∀ n, (p n).TakesFront] (f : Tokens → Nat) :
    TakesFront fun ts => p (f ts) ts where
  suffix {ts _ _} h := (hp (f ts)).suffix h

/-! ## Tokens -/

instance (a : Ahead) : TakesFront (expect a) where
  suffix h := by
    unfold expect at h
    split at h
    · obtain ⟨-, rfl⟩ := Prod.mk.inj (Option.some.inj h)
      exact List.suffix_rfl
    · exact absurd h (by simp)

instance : TakesFront any where
  suffix {ts a rest} h := by
    cases ts with
    | nil => exact absurd h (by simp [any])
    | cons t ts =>
        obtain ⟨-, rfl⟩ := Prod.mk.inj (Option.some.inj h)
        exact List.suffix_cons _ _

instance (operator : String) : TakesFront (mark operator) where
  suffix h := by
    rw [mark] at h
    split at h
    · obtain ⟨-, rfl⟩ := Prod.mk.inj (Option.some.inj h)
      exact List.drop_suffix _ _
    · exact absurd h (by simp)

instance (w : String) : TakesFront (word w) where
  suffix h := by
    rw [word] at h
    split at h
    · obtain ⟨-, rfl⟩ := Prod.mk.inj (Option.some.inj h)
      exact List.drop_suffix _ _
    · exact absurd h (by simp)

instance : TakesFront anyWord where
  suffix h := by
    obtain ⟨p, rfl⟩ := anyWord_eq_some h
    exact List.suffix_cons _ _

instance : TakesFront placedName where
  suffix h := by
    unfold placedName at h
    split at h
    · split at h
      · exact absurd h (by simp)
      · obtain ⟨-, rfl⟩ := Prod.mk.inj (Option.some.inj h)
        exact List.suffix_cons _ _
    · exact absurd h (by simp)

instance : TakesFront name := by unfold name; infer_instance

instance : TakesFront lifetime where
  suffix h := by
    unfold lifetime at h
    split at h
    · obtain ⟨-, rfl⟩ := Prod.mk.inj (Option.some.inj h)
      exact (List.suffix_cons _ _).trans (List.suffix_cons _ _)
    · exact absurd h (by simp)

instance : TakesFront string where
  suffix h := by
    unfold string at h
    split at h
    · split at h
      · obtain ⟨-, rfl⟩ := Prod.mk.inj (Option.some.inj h)
        exact List.suffix_cons _ _
      · exact absurd h (by simp)
    · exact absurd h (by simp)

instance (operator : String) : TakesFront (optionalMark operator) := by
  unfold optionalMark; infer_instance
instance (w : String) : TakesFront (optionalWord w) := by unfold optionalWord; infer_instance
instance : TakesFront optionalLifetime := by unfold optionalLifetime; infer_instance

/-- A group is a token, whatever its content is parsed with. -/
instance (d : Delimiter) (p : Parser α) : TakesFront (inside d p) where
  suffix h := by
    obtain ⟨inner, q, rfl, -⟩ := inside_eq_some h
    exact List.suffix_cons _ _

/-! ## Repetition -/

instance takesFront_whileFuel (a : Ahead) (p : Parser α) [p.TakesFront] :
    ∀ n, TakesFront (whileFuel a p n)
  | 0 => by unfold whileFuel; infer_instance
  | n + 1 => by
      have := takesFront_whileFuel a p n
      unfold whileFuel
      infer_instance

instance (a : Ahead) (p : Parser α) [p.TakesFront] : TakesFront (repeatWhile a p) := by
  unfold repeatWhile; infer_instance
instance (p : Parser α) [p.TakesFront] : TakesFront (untilEnd p) := by
  unfold untilEnd; infer_instance

instance takesFront_separatedFuel (stop : Ahead) (separator : Parser β) (p : Parser α)
    [separator.TakesFront] [p.TakesFront] : ∀ n, TakesFront (separatedFuel stop separator p n)
  | 0 => by unfold separatedFuel; infer_instance
  | n + 1 => by
      have := takesFront_separatedFuel stop separator p n
      unfold separatedFuel
      infer_instance

instance (stop : Ahead) (separator : Parser β) (p : Parser α)
    [separator.TakesFront] [p.TakesFront] : TakesFront (separated stop separator p) := by
  unfold separated; infer_instance

instance (p : Parser α) [p.TakesFront] : TakesFront (commas p) := by unfold commas; infer_instance

/-! ## Phrases -/

instance (p q : Parser Pieces) [p.TakesFront] [q.TakesFront] : TakesFront (p ++ q) :=
  inferInstanceAs (TakesFront do pure ((← p) ++ (← q)))

instance : TakesFront empty := by unfold empty; infer_instance
instance (operator : String) : TakesFront (op operator) := by unfold op; infer_instance
instance (w : String) : TakesFront (kw w) := by unfold kw; infer_instance
instance : TakesFront namePiece := by unfold namePiece; infer_instance
instance : TakesFront wordPiece := by unfold wordPiece; infer_instance
instance : TakesFront lifetimePiece := by unfold lifetimePiece; infer_instance

instance : TakesFront literalPiece where
  suffix h := by
    unfold literalPiece at h
    split at h
    · obtain ⟨-, rfl⟩ := Prod.mk.inj (Option.some.inj h)
      exact List.suffix_cons _ _
    · split at h
      · obtain ⟨-, rfl⟩ := Prod.mk.inj (Option.some.inj h)
        exact (List.suffix_cons _ _).trans (List.suffix_cons _ _)
      · exact absurd h (by simp)
    · split at h
      · obtain ⟨-, rfl⟩ := Prod.mk.inj (Option.some.inj h)
        exact List.suffix_cons _ _
      · exact absurd h (by simp)
    · exact absurd h (by simp)

instance : TakesFront anyGroup where
  suffix h := by
    unfold anyGroup at h
    split at h
    · obtain ⟨-, rfl⟩ := Prod.mk.inj (Option.some.inj h)
      exact List.suffix_cons _ _
    · exact absurd h (by simp)

instance (a : Ahead) (p : Parser Pieces) [p.TakesFront] : TakesFront (when a p) := by
  unfold when; infer_instance
instance (operator : String) : TakesFront (opMaybe operator) := by unfold opMaybe; infer_instance
instance (w : String) : TakesFront (kwMaybe w) := by unfold kwMaybe; infer_instance
instance (d : Delimiter) (p : Parser Pieces) : TakesFront (groupOf d p) := by
  unfold groupOf; infer_instance
instance (a : Ahead) (p : Parser Pieces) [p.TakesFront] : TakesFront (manyWhile a p) := by
  unfold manyWhile; infer_instance
instance (stop : Ahead) (operator : String) (p : Parser Pieces) [p.TakesFront] :
    TakesFront (separatedPieces stop operator p) := by
  unfold separatedPieces; infer_instance

end Parser

namespace Grammar

open Source.Parser

-- The instances for long definitions are made of more parts than are looked for by default.
set_option synthInstance.maxSize 100000

/-- The parsers of a grammar take tokens from the front.  Statements stand in groups only. -/
class TakesFront (g : Grammar) : Prop where
  type : ∀ plus, (g.type plus).TakesFront
  bound : ∀ form, (g.bound form).TakesFront
  expression : ∀ structs, (g.expression structs).TakesFront
  unary : ∀ structs, (g.unary structs).TakesFront
  climb : ∀ structs operand level, (g.climb structs operand level).TakesFront
  operandTail : ∀ structs level operand, (g.operandTail structs level operand).TakesFront
  trailers : ∀ e, (g.trailers e).TakesFront
  pattern : g.pattern.TakesFront
  item : g.item.TakesFront
  useTree : ∀ roots, (g.useTree roots).TakesFront

attribute [instance] TakesFront.type TakesFront.bound TakesFront.expression TakesFront.unary
  TakesFront.climb TakesFront.operandTail TakesFront.trailers TakesFront.pattern TakesFront.item
  TakesFront.useTree

instance : TakesFront nothing := by constructor <;> intros <;> unfold nothing <;> infer_instance

instance : plainSegment.TakesFront := by unfold plainSegment; infer_instance
instance : plainPath.TakesFront := by unfold plainPath; infer_instance

variable (g : Grammar) [g.TakesFront]

/-! ## Types -/

instance (plus : Bool) : (typePiece g plus).TakesFront := by unfold typePiece; infer_instance
instance (structs : Bool) : (expressionPieces g structs).TakesFront := by
  unfold expressionPieces; infer_instance
instance : (block g).TakesFront := by unfold block; infer_instance

instance (isInner : Bool) : (oneAttribute g isInner).TakesFront where
  suffix h := by
    unfold oneAttribute at h
    split at h
    · exact Parser.TakesFront.suffix h
    · exact absurd h (by simp)

instance : (outerAttributes g).TakesFront := by unfold outerAttributes; infer_instance
instance : (innerAttributes g).TakesFront := by unfold innerAttributes; infer_instance
instance : (attributesPieces g).TakesFront := by unfold attributesPieces; infer_instance
instance : (attributedBlock g).TakesFront := by unfold attributedBlock; infer_instance
instance : (constantArgument g).TakesFront := by unfold constantArgument; infer_instance
instance : (boundPieces g).TakesFront := by unfold boundPieces; infer_instance

instance : (argument g).TakesFront := by
  unfold argument
  refine .ahead inferInstance (.ahead inferInstance (.bind inferInstance fun t => ?_))
  split <;> infer_instance

instance (turbofish : Bool) : (angled g turbofish).TakesFront := by unfold angled; infer_instance
instance (expressionStyle : Bool) : (segment g expressionStyle).TakesFront := by
  unfold segment; infer_instance
instance (expressionStyle : Bool) : (path g expressionStyle).TakesFront := by
  unfold path; infer_instance
instance : (calledArguments g).TakesFront := by unfold calledArguments; infer_instance
instance : (traitPath g).TakesFront := by unfold traitPath; infer_instance
instance : captures.TakesFront := by unfold captures; infer_instance
instance (binder : Bool) : (parameter g binder).TakesFront := by unfold parameter; infer_instance
instance : (binder g).TakesFront := by unfold binder; infer_instance
instance (allowed : Bool) : (constancy allowed).TakesFront := by unfold constancy; infer_instance
instance (constant : Bool) : (traitBound g constant).TakesFront := by
  unfold traitBound; infer_instance
instance (form : BoundForm) : (boundStep g form).TakesFront := by unfold boundStep; infer_instance

instance takesFront_moreBoundsFuel (form : BoundForm) : ∀ n, (moreBoundsFuel g form n).TakesFront
  | 0 => by unfold moreBoundsFuel; infer_instance
  | n + 1 => by
      have := takesFront_moreBoundsFuel form n
      unfold moreBoundsFuel
      infer_instance

instance (form : BoundForm) : (moreBounds g form).TakesFront := by unfold moreBounds; infer_instance
instance (plus : Bool) (form : BoundForm) : (objectBounds g plus form).TakesFront := by
  unfold objectBounds; infer_instance

instance (expressionStyle : Bool) : (qualifiedPath g expressionStyle).TakesFront := by
  have hlast : ∀ (subject : Ty) (first : Segment) (rest : List Segment) (traitPath : Option Path),
      Parser.TakesFront (match traitPath with
        | some p => pure (some (subject, p.segments.length),
            Path.mk p.rooted (p.segments ++ first :: rest))
        | none => pure (some (subject, 0), Path.mk true (first :: rest)) :
          Parser (Option (Ty × Nat) × Path)) := by
    intro subject first rest traitPath
    cases traitPath <;> infer_instance
  unfold qualifiedPath
  infer_instance

instance : abi.TakesFront := by unfold abi; infer_instance
instance : (pointer g).TakesFront := by unfold pointer; infer_instance
instance : (addedBounds g).TakesFront := by unfold addedBounds; infer_instance

instance (plus : Bool) : (parenthesizedType g plus).TakesFront := by
  have hsum : ∀ t, Parser.TakesFront (do
      match parenthesizedBound t with
      | some ps => pure (.traitObject (ps ++ (← addedBounds g)))
      | none => pure (.parenthesized t) : Parser Ty) := by
    intro t
    split <;> infer_instance
  unfold parenthesizedType
  refine .bind inferInstance fun found => ?_
  cases found <;> infer_instance

instance (plus : Bool) (binder : Pieces) : (pathType g plus binder).TakesFront := by
  unfold pathType
  refine .bind inferInstance fun found => ?_
  dsimp only
  split <;> infer_instance

instance (plus : Bool) : (typeStep g plus).TakesFront := by unfold typeStep; infer_instance
instance : (result g).TakesFront := by unfold result; infer_instance
instance : (generics g).TakesFront := by unfold generics; infer_instance
instance : (predicate g).TakesFront := by unfold predicate; infer_instance

instance takesFront_predicatesFuel : ∀ n, (predicatesFuel g n).TakesFront
  | 0 => by unfold predicatesFuel; infer_instance
  | n + 1 => by
      have := takesFront_predicatesFuel n
      unfold predicatesFuel
      infer_instance

instance : (whereClause g).TakesFront := by unfold whereClause; infer_instance

/-! ## Patterns -/

instance (threeDots : Bool) : (rangeDots threeDots).TakesFront := by
  unfold rangeDots; infer_instance
instance : (alternatives g).TakesFront := by unfold alternatives; infer_instance
instance : (alternativesPieces g).TakesFront := by unfold alternativesPieces; infer_instance

instance : (expressionPath g).TakesFront := by
  unfold expressionPath
  refine .bind inferInstance fun found => ?_
  dsimp only
  split <;> infer_instance

instance : (rangeBound g).TakesFront := by unfold rangeBound; infer_instance
instance (lower : Pieces) : (rangeTail g lower).TakesFront := by unfold rangeTail; infer_instance

instance : member.TakesFront where
  suffix h := by
    unfold member at h
    split at h
    · split at h
      · obtain ⟨-, rfl⟩ := Prod.mk.inj (Option.some.inj h)
        exact List.suffix_cons _ _
      · exact absurd h (by simp)
    · exact Parser.TakesFront.suffix h

instance : (pathPattern g).TakesFront := by unfold pathPattern; infer_instance
instance : (namePattern g).TakesFront := by unfold namePattern; infer_instance
instance : (openPattern g).TakesFront := by unfold openPattern; infer_instance
instance : (patternStep g).TakesFront := by unfold patternStep; infer_instance

/-! ## Expressions -/

instance (structs : Bool) (level : Nat) : (rightOperand g structs level).TakesFront := by
  unfold rightOperand; infer_instance
instance (structs : Bool) (level : Nat) (operand : Phrase) :
    (operandTailStep g structs level operand).TakesFront := by
  unfold operandTailStep; infer_instance
instance (structs : Bool) (lower : Pieces) : (rangeRest g structs lower).TakesFront := by
  unfold rangeRest; infer_instance

instance (structs : Bool) (operand : Phrase) (bound : Nat) :
    (climbStep g structs operand bound).TakesFront := by
  unfold climbStep
  refine .bind inferInstance fun ts => ?_
  split
  · infer_instance
  · split <;> infer_instance

instance (structs : Bool) : (expressionStep g structs).TakesFront := by
  unfold expressionStep; infer_instance
instance : (callArguments g).TakesFront := by unfold callArguments; infer_instance

instance : positions.TakesFront where
  suffix h := by
    unfold positions at h
    split at h
    · dsimp only at h
      split at h
      · obtain ⟨-, rfl⟩ := Prod.mk.inj (Option.some.inj h)
        exact List.suffix_cons _ _
      · exact absurd h (by simp)
    · exact absurd h (by simp)

instance : (memberAccess g).TakesFront := by unfold memberAccess; infer_instance
instance (e : Phrase) : (trailersStep g e).TakesFront := by unfold trailersStep; infer_instance
instance (structs : Bool) : (pathOperand g structs).TakesFront := by
  unfold pathOperand; infer_instance
instance : (closureParameter g).TakesFront := by unfold closureParameter; infer_instance
instance (structs : Bool) : (closure g structs).TakesFront := by unfold closure; infer_instance
instance : (condition g).TakesFront := by unfold condition; infer_instance

instance takesFront_branchesFuel : ∀ n, (branchesFuel g n).TakesFront
  | 0 => by unfold branchesFuel; infer_instance
  | n + 1 => by
      have := takesFront_branchesFuel n
      unfold branchesFuel
      infer_instance

instance : (conditional g).TakesFront := by unfold conditional; infer_instance
instance : label.TakesFront := by unfold label; infer_instance
instance : (whileLoop g).TakesFront := by unfold whileLoop; infer_instance
instance : (forLoop g).TakesFront := by unfold forLoop; infer_instance
instance : (endlessLoop g).TakesFront := by unfold endlessLoop; infer_instance
instance : (matching g).TakesFront := by unfold matching; infer_instance
instance (structs : Bool) : (letCondition g structs).TakesFront := by
  unfold letCondition; infer_instance
instance (structs : Bool) : (breakJump g structs).TakesFront := by unfold breakJump; infer_instance
instance : (labelled g).TakesFront := by unfold labelled; infer_instance

instance (structs : Bool) : (operand g structs).TakesFront := by
  unfold operand
  dsimp only
  repeat refine .ahead inferInstance ?_
  infer_instance

instance (structs : Bool) : (unaryStep g structs).TakesFront := by unfold unaryStep; infer_instance

/-! ## Items -/

instance : visibility.TakesFront := by
  unfold visibility
  refine .bind inferInstance fun isPublic => ?_
  split
  · refine .bind inferInstance fun ts => ?_
    split <;> infer_instance
  · infer_instance

instance (foreign : Bool) : (functionModifiers foreign).TakesFront := by
  unfold functionModifiers; infer_instance
instance : callEnd.TakesFront := by unfold callEnd; infer_instance
instance : nameOrUnderscore.TakesFront := by unfold nameOrUnderscore; infer_instance
instance : (receiver g).TakesFront := by unfold receiver; infer_instance
instance : (typedParameter g).TakesFront := by unfold typedParameter; infer_instance
instance : (parameterForm g).TakesFront := by unfold parameterForm; infer_instance

instance takesFront_parametersFuel (isFirst : Bool) : ∀ n, (parametersFuel g isFirst n).TakesFront
  | 0 => by unfold parametersFuel; infer_instance
  | n + 1 => by
      have := takesFront_parametersFuel false n
      unfold parametersFuel
      refine .ahead inferInstance (.bind inferInstance fun form => ?_)
      dsimp only
      cases form <;> infer_instance

instance (foreign : Bool) : (signature g foreign).TakesFront := by
  unfold signature; infer_instance
instance : (body g).TakesFront := by unfold body; infer_instance
instance (foreign : Bool) : (functionOrHead g foreign).TakesFront := by
  unfold functionOrHead; infer_instance
instance : (skipExpression g).TakesFront := by unfold skipExpression; infer_instance
instance : (optionalValue g).TakesFront := by unfold optionalValue; infer_instance
instance : (constant g).TakesFront := by unfold constant; infer_instance
instance : (staticItem g).TakesFront := by unfold staticItem; infer_instance
instance (stop : Ahead) : (boundsUntil g stop).TakesFront := by unfold boundsUntil; infer_instance
instance (before behind : Bool) : (typeItem g before behind).TakesFront := by
  unfold typeItem; infer_instance

instance takesFront_namedFieldFuel : ∀ n, (namedFieldFuel g n).TakesFront
  | 0 => by unfold namedFieldFuel; infer_instance
  | n + 1 => by
      have := takesFront_namedFieldFuel n
      unfold namedFieldFuel
      infer_instance

instance : (namedFields g).TakesFront where
  suffix h := by
    unfold namedFields at h
    exact Parser.TakesFront.suffix h

instance : (positionalFields g).TakesFront := by unfold positionalFields; infer_instance
instance : (structureFields g).TakesFront := by unfold structureFields; infer_instance
instance : (structureItem g).TakesFront := by unfold structureItem; infer_instance
instance : (enumerationItem g).TakesFront := by unfold enumerationItem; infer_instance
instance : (unionItem g).TakesFront := by unfold unionItem; infer_instance
instance (w : String) : (optionalModifier w).TakesFront := by
  unfold optionalModifier; infer_instance
instance : memberCall.TakesFront := by unfold memberCall; infer_instance
instance : (traitMember g).TakesFront := by unfold traitMember; infer_instance
instance : (implementationMember g).TakesFront := by unfold implementationMember; infer_instance
instance (attributes : List Attribute) (n : String) (place : Place) :
    (traitRest g attributes n place).TakesFront := by unfold traitRest; infer_instance
instance (attributes : List Attribute) : (traitItem g attributes).TakesFront := by
  unfold traitItem; infer_instance

instance (isVisible : Bool) : (implementationItem g isVisible).TakesFront := by
  have hfound : ∀ (first subject : Ty) (found : List Signature), Parser.TakesFront (match first with
      | .path p => pure (.implementation ⟨some p, subject, found⟩)
      | _ => pure .other : Parser Item) := by
    intro first subject found
    cases first <;> infer_instance
  unfold implementationItem
  infer_instance

instance : (moduleItem g).TakesFront := by unfold moduleItem; infer_instance
instance : (foreignItem g).TakesFront := by unfold foreignItem; infer_instance
instance : crateItem.TakesFront := by unfold crateItem; infer_instance
instance (roots : Bool) : (useTreeStep g roots).TakesFront := by unfold useTreeStep; infer_instance

instance (attributes : List Attribute) (visibility : Visibility) :
    (useItem g attributes visibility).TakesFront := by
  unfold useItem
  refine .bind inferInstance fun _ => .bind inferInstance fun _ => .bind inferInstance fun tree =>
    .bind inferInstance fun _ => ?_
  cases tree <;> infer_instance

instance : ruleItem.TakesFront := by unfold ruleItem; infer_instance
instance : callItem.TakesFront := by unfold callItem; infer_instance
instance (p : Parser Unit) [p.TakesFront] : (passOver p).TakesFront := by
  unfold passOver; infer_instance

instance : (itemStep g).TakesFront := by
  unfold itemStep
  refine .bind inferInstance fun attributes => .bind inferInstance fun visibility => ?_
  dsimp only
  repeat refine .ahead inferInstance ?_
  infer_instance

/-- **All parsers of the grammar take tokens from the front.** -/
instance takesFront_atDepth : ∀ n, (atDepth n).TakesFront
  | 0 => by unfold atDepth; infer_instance
  | n + 1 => by
      have := takesFront_atDepth n
      constructor <;> intros <;> unfold atDepth <;> infer_instance

end Grammar

end FieldCopy.Source
