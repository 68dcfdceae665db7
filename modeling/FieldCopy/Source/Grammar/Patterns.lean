import FieldCopy.Source.Grammar.Types

/-!
# Patterns

A pattern is looked into only for the name of a parameter; all else about it is kept as pieces.
-/

namespace FieldCopy.Source.Grammar

open Source.Parser

/-- A pattern that is neither a name nor a range nor the rest of a list. -/
def Pattern.of (pieces : Pieces) : Pattern := ⟨pieces, none, false, false⟩

/-- Takes the dots of a range, and tells whether they need an upper end.  Three dots count as an
older way to write the closed range. -/
def rangeDots (threeDots : Bool) : Parser (Pieces × Bool) := do
  if ← ahead (.mark "..=") then pure (← op "..=", true)
  else if ← ahead (.mark "...") then
    if threeDots then pure (← op "...", true) else failure
  else pure (← op "..", false)

section

variable (g : Grammar)

/-- Takes alternatives of patterns, `|` being allowed in front of the first. -/
def alternatives : Parser Pattern := do
  let leading ← optionalMark "|"
  let bar : Ahead := .allOf [.mark "|", .notNext (.oneMark ["||", "|="])]
  let first ← g.pattern
  let rest ← repeatWhile bar do
    let b ← op "|"
    pure (b ++ (← g.pattern).pieces)
  if leading then pure (Pattern.of (operatorPieces "|" ++ first.pieces ++ rest.flatten))
  else if rest.isEmpty then pure first
  else pure (Pattern.of (first.pieces ++ rest.flatten))

/-- Takes alternatives of patterns as pieces. -/
def alternativesPieces : Parser Pieces := do pure (← alternatives g).pieces

/-- Where a range may lack its end. -/
def noBound : Ahead :=
  .anyOf [.nothing, .mark "|", .mark "=", .colon, .mark ",", .mark ";", .word "if"]

/-- Takes a path that may begin with a type in angle brackets, in the style of expressions. -/
def expressionPath : Parser (Bool × Path × Pieces) := do
  let (subject, p) ← qualifiedPath g true
  match subject with
  | some (s, depth) => pure (true, p, [.type (.qualified s depth p)])
  | none => pure (false, p, [.path p])

/-- A path of an expression stands next. -/
def pathAhead : Ahead := .anyOf [.name, .mark "::", .mark "<", .oneWord pathWords]

/-- Takes the end of a range, if there is one. -/
def rangeBound : Parser Pieces := do
  if ← ahead noBound then empty
  else if ← ahead .literal then literalPiece
  else if ← ahead pathAhead then do pure (← expressionPath g).2.2
  else kw "const" ++ attributedBlock g

/-- Takes the dots and the upper end of a range behind its lower end. -/
def rangeTail (lower : Pieces) : Parser Pattern := do
  let (dots, isClosed) ← rangeDots true
  let upper ← rangeBound g
  if isClosed && upper.isEmpty then failure
  else pure { Pattern.of (lower ++ dots ++ upper) with isHalfRange := upper.isEmpty }

/-- Takes a member: a name or the number of a position. -/
def member : Parser (Bool × Pieces) := fun ts =>
  match ts with
  | .literal t _ :: rest =>
      if (t.toList.head?).any Char.isDigit && t.toList.all Char.isDigit then
        some ((false, [.token (.literal t ())]), rest)
      else none
  | _ => (do pure (true, ← namePiece) : Parser (Bool × Pieces)) ts

/-- Takes a field of a structure's pattern, or the dots for its other fields. -/
def fieldPattern : Parser Pieces := do
  let attributes ← attributesPieces g
  if ← ahead (.mark "..") then
    let dots ← op ".."
    expect .nothing
    pure (attributes ++ dots)
  else
    let binding ← kwMaybe "box" ++ kwMaybe "ref" ++ kwMaybe "mut"
    if !binding.isEmpty then pure (attributes ++ binding ++ (← namePiece))
    else
      let (named, m) ← member
      if !named || (← ahead (.mark ":")) then
        let colon ← op ":"
        pure (attributes ++ m ++ colon ++ (← alternativesPieces g))
      else pure (attributes ++ m)

/-- Takes a pattern that begins with a path. -/
def pathPattern : Parser Pattern := do
  let (qualified, p, pieces) ← expressionPath g
  if !qualified && p.isPlain && (← ahead (.allOf [.mark "!", .notNext (.mark "!=")])) then
    let bang ← op "!"
    pure (Pattern.of (pieces ++ bang ++ (← anyGroup)))
  else if ← ahead (.group .brace) then
    pure (Pattern.of (pieces ++ (← groupOf .brace (commaPieces (fieldPattern g)))))
  else if ← ahead (.group .parenthesis) then
    pure (Pattern.of (pieces ++ (← groupOf .parenthesis (commaPieces (alternativesPieces g)))))
  else if ← ahead (.mark "..") then rangeTail g pieces
  else pure (Pattern.of pieces)

/-- Takes a name to bind, with what may stand around it. -/
def namePattern : Parser Pattern := do
  let front ← kwMaybe "ref" ++ kwMaybe "mut"
  let n ← if ← ahead (.word "self") then anyWord else name
  let subpattern ←
    if ← ahead (.mark "@") then
      let sign ← op "@"
      pure (sign ++ (← g.pattern).pieces)
    else pure []
  pure ⟨front ++ .token (.word n ()) :: subpattern, some n, false, false⟩

/-- Takes a range without a lower end, or the dots for the rest of a list. -/
def openPattern : Parser Pattern := do
  let (dots, isClosed) ← rangeDots false
  let upper ← rangeBound g
  if upper.isEmpty then
    if isClosed then failure else pure ⟨dots, none, true, false⟩
  else pure ⟨dots ++ upper, none, false, true⟩

/-- Takes an element of a list pattern, which cannot be a range without one of its ends. -/
def listElement : Parser Pieces := do
  let p ← alternatives g
  if p.isHalfRange then failure else pure p.pieces

/-- A pattern without alternatives. -/
def patternStep : Parser Pattern := do
  let behindName : Ahead := .second
    (.anyOf [.mark "::", .mark "!", .group .brace, .group .parenthesis, .mark ".."])
  let pathFirst : Ahead := .anyOf
    [.allOf [.name, behindName], .allOf [.word "self", .second (.mark "::")], .mark "::",
      .mark "<", .oneWord ["Self", "super", "crate"]]
  if ← ahead pathFirst then pathPattern g
  else if ← ahead (.word "_") then pure (Pattern.of (← kw "_"))
  else if ← ahead (.word "box") then
    let box ← kw "box"
    pure (Pattern.of (box ++ (← g.pattern).pieces))
  else if ← ahead (.anyOf [.mark "-", .literal, .word "const"]) then
    let lower ← rangeBound g
    if ← ahead (.mark "..") then rangeTail g lower else pure (Pattern.of lower)
  else if ← ahead (.anyOf [.oneWord ["ref", "mut", "self"], .name]) then namePattern g
  else if ← ahead (.mark "&") then
    let front ← op "&" ++ kwMaybe "mut"
    pure (Pattern.of (front ++ (← g.pattern).pieces))
  else if ← ahead (.group .parenthesis) then
    pure (Pattern.of (← groupOf .parenthesis (commaPieces (alternativesPieces g))))
  else if ← ahead (.group .bracket) then
    pure (Pattern.of (← groupOf .bracket (commaPieces (listElement g))))
  else openPattern g

end

end FieldCopy.Source.Grammar
