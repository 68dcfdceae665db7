import FieldCopy.Source.Grammar.Basic

/-!
# Types, paths and generics

The parsers of types and of what belongs to them: paths with their arguments, bounds, generic
parameters and where clauses.  Attributes are here too, since they may stand in front of a generic
parameter.
-/

namespace FieldCopy.Source.Grammar

open Source.Parser

/-! ## Paths -/

/-- The words that may stand in a path although they are no names. -/
def pathWords : List String := ["super", "self", "Self", "crate"]

/-- A name of a path without arguments stands next. -/
def plainSegmentAhead : Ahead := .anyOf [.name, .oneWord pathWords]

/-- Takes a name of a path without arguments. -/
def plainSegment : Parser Segment := do
  expect plainSegmentAhead
  pure (.mk (← anyWord) .none)

/-- Takes a path without arguments. -/
def plainPath : Parser Path := do
  let rooted ← optionalMark "::"
  let first ← plainSegment
  let rest ← repeatWhile (.mark "::") do mark "::"; plainSegment
  pure (.mk rooted (first :: rest))

section

variable (g : Grammar)

/-- Takes a type, as a piece. -/
def typePiece (plus : Bool) : Parser Pieces := do pure [.type (← g.type plus)]

/-- Takes an expression, as pieces. -/
def expressionPieces (structs : Bool) : Parser Pieces := do
  pure (← g.expression structs).pieces

/-- Takes a block. -/
def block : Parser Pieces := groupOf .brace g.statements

/-! ## Attributes -/

/-- The value behind the equals sign of an attribute: a single literal, or an expression that
does not begin with an attribute. -/
def attributeValue : Parser Pieces := do
  if ← ahead .literal then
    let start ← get
    let value ← literalPiece
    if ← ahead .nothing then pure value
    else
      set start
      expressionPieces g true
  else
    expect (.notNext (.allOf [.mark "#", .second (.group .bracket)]))
    expressionPieces g true

/-- What follows the path of an attribute. -/
def attributeContent : Parser AttributeContent := fun ts =>
  match ts with
  | .group d inner _ :: rest => some (.tokens d inner, rest)
  | _ =>
      if Ahead.allOf [.mark "=", .notNext (.oneMark ["==", "=>"])] ts then
        (do mark "="; pure (.value (← attributeValue g)) : Parser AttributeContent) ts
      else some (.nothing, ts)

/-- What stands between the brackets of an attribute. -/
def attributeBody : Parser (Path × AttributeContent) := do
  let path ← if ← ahead (.word "unsafe") then Path.ofName <$> anyWord else plainPath
  pure (path, ← attributeContent g)

/-- Takes an attribute. -/
def oneAttribute (isInner : Bool) : Parser Attribute := fun ts =>
  match ts with
  | .mark '#' _ place :: _ =>
      (do
        mark "#"
        if isInner then mark "!"
        let (path, content) ← inside .bracket (attributeBody g)
        pure ⟨isInner, path, content, place⟩ : Parser Attribute) ts
  | _ => none

/-- Takes the attributes in front of something. -/
def outerAttributes : Parser (List Attribute) := repeatWhile (.mark "#") (oneAttribute g false)

/-- Takes the attributes at the beginning of what they belong to. -/
def innerAttributes : Parser (List Attribute) :=
  repeatWhile (.allOf [.mark "#", .second (.mark "!")]) (oneAttribute g true)

/-- The pieces of what follows the path of an attribute. -/
def contentPieces : AttributeContent → Pieces
  | .nothing => []
  | .tokens d inner => [.group d ((Token.eraseAll inner).map .token)]
  | .value e => operatorPieces "=" ++ e

/-- The pieces of an attribute. -/
def attributePieces (a : Attribute) : Pieces :=
  operatorPieces "#" ++ (if a.isInner then operatorPieces "!" else [])
    ++ [.group .bracket (.path a.path :: contentPieces a.content)]

/-- Takes the attributes in front of something, as pieces. -/
def attributesPieces : Parser Pieces := do
  pure ((← outerAttributes g).flatMap attributePieces)

/-- Takes the attributes at the beginning of something, as pieces. -/
def innerAttributesPieces : Parser Pieces := do
  pure ((← innerAttributes g).flatMap attributePieces)

/-- Takes a block that may begin with attributes of its own. -/
def attributedBlock : Parser Pieces :=
  groupOf .brace (innerAttributesPieces g ++ g.statements)

/-! ## Generic arguments -/

/-- Takes a constant argument: a literal, a name or a block. -/
def constantArgument : Parser Pieces := do
  if ← ahead .literal then literalPiece
  else if ← ahead .name then namePiece
  else attributedBlock g

/-- A constant argument stands next. -/
def constantAhead : Ahead := .anyOf [.literal, .group .brace]

/-- A path that binds or bounds an associated item is a single name. -/
def bindable : Ty → Option Path
  | .path (.mk false [.mk n .none]) => some (.mk false [.mk n .none])
  | .path (.mk false [.mk n (.angled t items trailing)]) =>
      some (.mk false [.mk n (.angled t items trailing)])
  | _ => none

/-- Takes a bound as it may stand in most places. -/
def boundPieces : Parser Pieces := do pure (← g.bound ⟨false, true⟩).pieces

/-- Takes a generic argument. -/
def argument : Parser Argument := do
  if ← ahead (.allOf [.lifetime, .notNext (.second (.mark "+"))]) then
    pure (.lifetime (← lifetime))
  else if ← ahead constantAhead then pure (.other (← constantArgument g))
  else
    let t ← g.type true
    match bindable t with
    | some subject =>
        if ← ahead (.mark "=") then
          let equals ← op "="
          let value ← if ← ahead constantAhead then constantArgument g else typePiece g true
          pure (.other (.path subject :: equals ++ value))
        else if ← ahead (.mark ":") then
          let colon ← op ":"
          let bounds ← separatedPieces (.oneMark [",", ">"]) "+" (boundPieces g)
          pure (.other (.path subject :: colon ++ bounds))
        else pure (.type t)
    | none => pure (.type t)

/-- Takes arguments in angle brackets. -/
def angled (turbofish : Bool) : Parser Arguments := do
  mark "<"
  let (items, trailing) ← separated (.mark ">") (mark ",") (argument g)
  mark ">"
  pure (.angled turbofish items trailing)

/-- Takes a name of a path with its arguments.  In an expression only two colons begin the
arguments. -/
def segment (expressionStyle : Bool) : Parser Segment := do
  if ← ahead (.oneWord ["super", "self", "crate", "try"]) then pure (.mk (← anyWord) .none)
  else
    let n ← if ← ahead (.word "Self") then anyWord else name
    let plain : Ahead := .allOf [.mark "<", .notNext (.mark "<=")]
    let behindColons : Ahead := .allOf [.mark "::", .third (.mark "<")]
    if (← ahead behindColons) || (!expressionStyle && (← ahead plain)) then
      let turbofish ← optionalMark "::"
      pure (.mk n (← angled g turbofish))
    else pure (.mk n .none)

/-- Takes a path. -/
def path (expressionStyle : Bool) : Parser Path := do
  let rooted ← optionalMark "::"
  let first ← segment g expressionStyle
  let rest ← repeatWhile (.allOf [.mark "::", .notNext (.third (.group .parenthesis))]) do
    mark "::"
    segment g expressionStyle
  pure (.mk rooted (first :: rest))

/-! ## Bounds -/

/-- Takes the parameters and the result of a function trait. -/
def calledArguments : Parser Pieces :=
  groupOf .parenthesis (commaPieces (typePiece g true))
    ++ when (.mark "->") (op "->" ++ typePiece g false)

/-- A path with the arguments of its last name replaced. -/
def withArguments (p : Path) (a : Arguments) : Path :=
  match p with
  | .mk r segments =>
      match segments.getLast? with
      | some s => .mk r (segments.dropLast ++ [.mk s.name a])
      | none => p

/-- Takes the path of a trait; parameters in parentheses may follow it. -/
def traitPath : Parser Pieces := do
  let p ← path g false
  let isBare := (p.last?.map (·.arguments.isNone)).getD false
  let called : Ahead := .anyOf [.group .parenthesis,
    .allOf [.mark "::", .third (.group .parenthesis)]]
  if isBare && (← ahead called) then
    let _ ← optionalMark "::"
    pure [.path (withArguments p (.called (← calledArguments g)))]
  else pure [.path p]

/-- Takes the names that a type captures. -/
def captures : Parser Pieces :=
  kw "use" ++ op "<"
    ++ separatedPieces (.mark ">") ","
        (do if ← ahead .lifetime then lifetimePiece
            else
              expect (.anyOf [.name, .word "Self"])
              wordPiece)
    ++ op ">"

/-- Takes a generic parameter.  In front of a type it cannot be an underscore. -/
def parameter (binder : Bool) : Parser Pieces := do
  let attributes ← attributesPieces g
  let parameter ←
    if ← ahead .lifetime then
      lifetimePiece ++ when (.mark ":")
        (op ":" ++ separatedPieces (.oneMark [",", ">"]) "+" lifetimePiece)
    else if ← ahead (.word "const") then
      kw "const" ++ namePiece ++ op ":" ++ typePiece g true
        ++ when (.mark "=") (op "=" ++ constantArgument g)
    else do
      expect (if binder then .name else .anyOf [.name, .word "_"])
      wordPiece
        ++ when (.mark ":")
            (op ":" ++ separatedPieces (.oneMark [",", ">", "="]) "+" (boundPieces g))
        ++ when (.mark "=") (op "=" ++ typePiece g true)
  pure (attributes ++ parameter)

/-- Takes the lifetimes that are introduced in front of a type. -/
def binder : Parser Pieces :=
  kw "for" ++ op "<" ++ separatedPieces (.mark ">") "," (parameter g true) ++ op ">"

/-- Takes the marks that make a bound constant. -/
def constancy (allowed : Bool) : Parser Pieces := do
  if ← ahead (.group .bracket) then
    if allowed then groupOf .bracket (kw "const") else failure
  else if ← ahead (.word "const") then
    if allowed then kw "const" else failure
  else if ← ahead (.allOf [.mark "~", .second (.word "const")]) then
    if allowed then op "~" ++ kw "const" else failure
  else empty

/-- Takes a trait with what may stand in front of it. -/
def traitBound (constant : Bool) : Parser Pieces := do
  let early ← when (.word "for") (binder g)
  let constancy ← constancy constant
  let relaxed ← opMaybe "?"
  let late ←
    if early.isEmpty && !relaxed.isEmpty then when (.word "for") (binder g) else empty
  pure (early ++ constancy ++ relaxed ++ late ++ (← traitPath g))

/-- Takes a bound. -/
def boundStep (form : BoundForm) : Parser Bound := do
  if ← ahead .lifetime then pure ⟨← lifetimePiece, false⟩
  else if ← ahead (.word "use") then
    if form.captures then pure ⟨← captures, false⟩ else failure
  else if ← ahead (.group .parenthesis) then
    pure ⟨← groupOf .parenthesis (traitBound g form.constant), true⟩
  else pure ⟨← traitBound g form.constant, true⟩

/-- A bound stands next behind a plus sign. -/
def boundAhead (constant : Bool) : Ahead :=
  .anyOf [.anyWord, .mark "::", .mark "?", .lifetime, .group .parenthesis,
    .allOf [fun _ => constant, .group .bracket]]

/-- Takes the bounds behind the first one, each after a plus sign; a plus sign that no bound
follows ends them. -/
def moreBoundsFuel (form : BoundForm) : Nat → Parser (List Bound)
  | 0 => pure []
  | n + 1 => do
      if ← ahead (.mark "+") then
        let plus ← op "+"
        if ← ahead (boundAhead form.constant) then
          let b ← g.bound form
          pure (⟨plus ++ b.pieces, b.isTrait⟩ :: (← moreBoundsFuel form n))
        else pure [⟨plus, false⟩]
      else pure []

/-- Takes the bounds behind the first one. -/
def moreBounds (form : BoundForm) : Parser (List Bound) := fun ts =>
  moreBoundsFuel g form (ts.length + 1) ts

/-- Takes a sum of bounds, one of which must be a trait. -/
def objectBounds (plus : Bool) (form : BoundForm) : Parser Pieces := do
  let first ← g.bound form
  let bounds := first :: (← if plus then moreBounds g form else pure [])
  if bounds.any (·.isTrait) then pure (bounds.flatMap (·.pieces)) else failure

/-! ## Types -/

/-- Takes a path that may begin with a type in angle brackets.  The first part of the result is
that type with the number of names that belong to its trait. -/
def qualifiedPath (expressionStyle : Bool) : Parser (Option (Ty × Nat) × Path) := do
  if ← ahead (.mark "<") then
    mark "<"
    let subject ← g.type true
    let traitPath ← if ← optionalWord "as" then some <$> path g false else pure none
    mark ">"
    mark "::"
    let first ← segment g expressionStyle
    let rest ← repeatWhile (.mark "::") do
      mark "::"
      segment g expressionStyle
    match traitPath with
    | some p =>
        pure (some (subject, p.segments.length), .mk p.rooted (p.segments ++ first :: rest))
    | none => pure (some (subject, 0), .mk true (first :: rest))
  else pure (none, ← path g expressionStyle)

/-- Takes the interface of a foreign function. -/
def abi : Parser Pieces :=
  kw "extern" ++ when .string (do pure [.token (.literal (← string) ())])

/-- Takes the dots behind the parameters of a function pointer. -/
def variadic : Parser Pieces := do
  let pieces ←
    when (.anyOf [.name, .word "_"]) (wordPiece ++ op ":") ++ op "..." ++ opMaybe ","
  expect .nothing
  pure pieces

/-- Takes a parameter of a function pointer. -/
def pointerParameter (isFirst : Bool) : Parser Pieces := do
  let attributes ← attributesPieces g
  let dots : Ahead := .anyOf [.mark "...",
    .allOf [.anyOf [.name, .word "_"], .second (.mark ":"), .third (.mark "...")]]
  let firstOnly (a : Ahead) : Ahead := .allOf [fun _ => isFirst, a]
  let mutableSelf := firstOnly (.allOf [.word "mut", .second (.word "self")])
  let named : Ahead := .allOf
    [.anyOf [.name, .word "_", firstOnly (.word "self")], .second .colon]
  let parameter ←
    if ← ahead dots then variadic
    else if ← ahead mutableSelf then
      kw "mut" ++ kw "self" ++ when .colon (op ":" ++ typePiece g true)
    else if ← ahead named then wordPiece ++ op ":" ++ typePiece g true
    else typePiece g true
  pure (attributes ++ parameter)

/-- Takes the parameters of a function pointer. -/
def pointerParameters : Parser Pieces := do
  if ← ahead .nothing then empty
  else
    pointerParameter g true
      ++ when (.notNext .nothing) (op "," ++ commaPieces (pointerParameter g false))

/-- Takes a function pointer. -/
def pointer : Parser Pieces :=
  kwMaybe "unsafe" ++ when (.word "extern") abi ++ kw "fn"
    ++ groupOf .parenthesis (pointerParameters g)
    ++ when (.mark "->") (op "->" ++ typePiece g false)

/-- What may stand between the parentheses of a type. -/
inductive Parenthesized where
  | empty
  | object (pieces : Pieces)
  | relaxed (pieces : Pieces)
  | tuple (elements : List Ty) (trailing : Bool)
  | one (type : Ty)

/-- Takes what stands between the parentheses of a type. -/
def parenthesized : Parser Parenthesized := do
  if ← ahead .nothing then pure .empty
  else if ← ahead .lifetime then pure (.object (← objectBounds g true ⟨false, false⟩))
  else if ← ahead (.mark "?") then pure (.relaxed (← g.bound ⟨false, false⟩).pieces)
  else
    let first ← g.type true
    if ← ahead (.mark ",") then
      mark ","
      let (rest, trailing) ← commas (g.type true)
      pure (.tuple (first :: rest) trailing)
    else pure (.one first)

/-- The bound that a type in parentheses is, when a plus sign follows it. -/
def parenthesizedBound : Ty → Option Pieces
  | .path p => some [.group .parenthesis [.path p]]
  | .traitObject (.token (.word "for" ()) :: rest) =>
      let isSum := rest.any fun
        | .token (.mark '+' _ _) => true
        | _ => false
      if isSum then none
      else some [.group .parenthesis (.token (.word "for" ()) :: rest)]
  | _ => none

/-- Takes the bounds that follow plus signs; every plus sign must be followed by one. -/
def addedBounds : Parser Pieces :=
  manyWhile (.mark "+") do op "+" ++ (do pure (← g.bound ⟨false, false⟩).pieces)

/-- Takes a type that begins with a parenthesis. -/
def parenthesizedType (plus : Bool) : Parser Ty := do
  match ← inside .parenthesis (parenthesized g) with
  | .empty => pure (.tuple [] false)
  | .object ps => pure (.parenthesized (.traitObject ps))
  | .relaxed ps => pure (.traitObject (.group .parenthesis ps :: (← addedBounds g)))
  | .tuple es trailing => pure (.tuple es trailing)
  | .one t =>
      if plus && (← ahead (.mark "+")) then
        match parenthesizedBound t with
        | some ps => pure (.traitObject (ps ++ (← addedBounds g)))
        | none => pure (.parenthesized t)
      else pure (.parenthesized t)

/-- Takes a type that begins with a path, `binder` being the lifetimes introduced in front. -/
def pathType (plus : Bool) (binder : Pieces) : Parser Ty := do
  let (subject, p) ← qualifiedPath g false
  match subject with
  | some (s, depth) => pure (.qualified s depth p)
  | none =>
      if p.isPlain && (← ahead (.allOf [.mark "!", .notNext (.mark "!=")])) then
        let bang ← op "!"
        pure (.other (.path p :: bang ++ (← anyGroup)))
      else if !binder.isEmpty || (plus && (← ahead (.mark "+"))) then
        let more ← if plus then moreBounds g ⟨false, false⟩ else pure []
        pure (.traitObject (binder ++ .path p :: more.flatMap (·.pieces)))
      else pure (.path p)

/-- Takes a slice or an array, given its brackets' content. -/
def bracketed : Parser Ty := do
  let element ← g.type true
  if ← optionalMark ";" then pure (.array element (← expressionPieces g true))
  else pure (.slice element)

/-- A function pointer stands next. -/
def pointerAhead : Ahead := .oneWord ["fn", "unsafe", "extern"]

/-- A type. -/
def typeStep (plus : Bool) : Parser Ty := do
  let binder ← when (.word "for") (binder g)
  if !binder.isEmpty then
    expect (.anyOf [.name, pointerAhead, .oneWord pathWords])
  if ← ahead (.group .parenthesis) then parenthesizedType g plus
  else if ← ahead pointerAhead then pure (.other (binder ++ (← pointer g)))
  else if ← ahead (.anyOf [plainSegmentAhead, .mark "::", .mark "<"]) then pathType g plus binder
  else if ← ahead (.word "dyn") then
    let dyn ← kw "dyn"
    let star ← opMaybe "*"
    let bounds ← objectBounds g plus ⟨false, false⟩
    pure (if star.isEmpty then .traitObject (dyn ++ bounds) else .other (dyn ++ star ++ bounds))
  else if ← ahead (.group .bracket) then inside .bracket (bracketed g)
  else if ← ahead (.mark "*") then
    let star ← op "*"
    let mutability ← if ← ahead (.word "const") then kw "const" else kw "mut"
    pure (.other (star ++ mutability ++ (← typePiece g false)))
  else if ← ahead (.mark "&") then
    mark "&"
    let l ← optionalLifetime
    let m ← optionalWord "mut"
    pure (.reference l m (← g.type false))
  else if ← ahead (.mark "!") then pure (.other (← op "!"))
  else if ← ahead (.word "impl") then
    let impl ← kw "impl"
    pure (.implTrait (impl ++ (← objectBounds g plus ⟨true, true⟩)))
  else if ← ahead (.word "_") then pure (.other (← kw "_"))
  else
    expect .lifetime
    pure (.traitObject (← objectBounds g true ⟨false, false⟩))

/-! ## Generic parameters -/

/-- A type behind an arrow, if there is one. -/
def result : Parser (Option Ty) := do
  if ← optionalMark "->" then some <$> g.type true else pure none

/-- Takes the generic parameters of an item, if there are some, and tells whether. -/
def generics : Parser Bool := do
  if ← ahead (.mark "<") then
    mark "<"
    let _ ← separated (.mark ">") (mark ",") (parameter g false)
    mark ">"
    pure true
  else pure false

/-- The end of a where clause, or of one of its bounds. -/
def whereEnd : Ahead :=
  .anyOf [.nothing, .group .brace, .mark ",", .mark ";", .colon, .mark "="]

/-- Takes a condition of a where clause. -/
def predicate : Parser Pieces := do
  if ← ahead (.allOf [.lifetime, .second (.mark ":")]) then
    lifetimePiece ++ op ":" ++ separatedPieces whereEnd "+" lifetimePiece
  else
    when (.word "for") (binder g) ++ typePiece g true ++ op ":"
      ++ separatedPieces whereEnd "+" (boundPieces g)

/-- Takes the conditions of a where clause, up to one that no comma follows. -/
def predicatesFuel : Nat → Parser Unit
  | 0 => pure ()
  | n + 1 => do
      if ← ahead whereEnd then pure ()
      else
        let _ ← predicate g
        if ← optionalMark "," then predicatesFuel n else pure ()

/-- Takes a where clause, if there is one, and tells whether. -/
def whereClause : Parser Bool := do
  if ← optionalWord "where" then
    fun ts => predicatesFuel g (ts.length + 1) ts
    pure true
  else pure false

end

end FieldCopy.Source.Grammar
