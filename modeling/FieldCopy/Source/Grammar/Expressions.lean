import FieldCopy.Source.Grammar.Patterns
import FieldCopy.Source.Literal

/-!
# Expressions and statements

Expressions matter to the program only as the values of constants, the lengths of arrays and the
bodies of functions.  What is kept of them is their pieces, with the types inside marked as such,
and the little that decides where an expression ends (`Shape`).

**Precedence.**  A binary operator has a level (`binaryOperators`); `climbStep` takes the operators
that bind at least as tightly as a bound, and `operandTailStep` those that take the operand away
from the operator in front of it.
-/

namespace FieldCopy.Source.Grammar

open Source.Parser

/-! ## Operators -/

/-- The levels of operators, from the loosest to the tightest. -/
def assignLevel : Nat := 1
def rangeLevel : Nat := 2
def compareLevel : Nat := 6
def castLevel : Nat := 13

/-- The binary operators with their levels, in the order in which they are looked for. -/
def binaryOperators : List (String × Nat) :=
  [("+=", 1), ("-=", 1), ("*=", 1), ("/=", 1), ("%=", 1), ("^=", 1), ("&=", 1), ("|=", 1),
    ("<<=", 1), (">>=", 1), ("&&", 4), ("||", 3), ("<<", 10), (">>", 10), ("==", 6), ("<=", 6),
    ("!=", 6), (">=", 6), ("+", 11), ("-", 11), ("*", 12), ("/", 12), ("%", 12), ("^", 8),
    ("&", 9), ("|", 7), ("<", 6), (">", 6)]

/-- The binary operator that stands next, with its level. -/
def binaryOperator (ts : Tokens) : Option (String × Nat) :=
  binaryOperators.find? fun o => Ahead.mark o.1 ts

/-- An assignment stands next. -/
def assignment : Ahead := .allOf [.mark "=", .notNext (.mark "=>")]

/-- A single dot stands next. -/
def dot : Ahead := .allOf [.mark ".", .notNext (.mark "..")]

/-- The level of the operator that stands next, zero if there is none. -/
def nextLevel (ts : Tokens) : Nat :=
  match binaryOperator ts with
  | some (_, level) => level
  | none =>
      if assignment ts then assignLevel
      else if Ahead.mark ".." ts then rangeLevel
      else if Ahead.word "as" ts then castLevel
      else 0

/-- An expression that is nothing special. -/
def Phrase.plain (pieces : Pieces) : Phrase := ⟨pieces, .plain⟩

/-- What cannot follow a cast. -/
def behindCast : Ahead :=
  .anyOf [dot, .mark "?", .group .bracket, .group .parenthesis]

/-- An expression stands next. -/
def expressionAhead : Ahead :=
  let unlike (operator : String) (longer : List String) : Ahead :=
    .allOf [.mark operator, .notNext (.oneMark longer)]
  .anyOf [.allOf [.anyWord, .notNext (.word "as")], .group .parenthesis, .group .bracket,
    .group .brace, .literal, unlike "!" ["!="], unlike "-" ["-=", "->"], unlike "*" ["*="],
    unlike "|" ["|="], unlike "&" ["&="], .mark "..", unlike "<" ["<=", "<<="], .mark "::",
    .lifetime, .mark "#"]

/-- Where a range lacks its upper end. -/
def rangeStop (structs : Bool) : Ahead :=
  .anyOf [.nothing, .mark ",", .mark ";", dot, .mark "?", .mark "=>",
    .allOf [fun _ => !structs, .group .brace], .mark "=", .mark "+", .mark "/", .mark "%",
    .mark "^", .mark ">", .mark "<=", .mark "!=", .mark "-=", .mark "*=", .mark "&=", .mark "|=",
    .mark "<<=", .word "as"]

section

variable (g : Grammar)

/-- Takes the right operand of an operator of this level. -/
def rightOperand (structs : Bool) (level : Nat) : Parser Phrase := do
  g.operandTail structs level (← g.unary structs)

/-- Takes operators that follow an operand as long as they bind more tightly than the operator of
`level` in front of it; an assignment also gives way to an assignment. -/
def operandTailStep (structs : Bool) (level : Nat) (operand : Phrase) : Parser Phrase := do
  let before ← get
  let next := nextLevel before
  if next > level || (next = level && level = assignLevel) then
    let longer ← g.climb structs operand next
    let rest ← get
    if rest.length = before.length then pure longer
    else g.operandTail structs level longer
  else pure operand

/-- Takes the dots and the upper end of a range. -/
def rangeRest (structs : Bool) (lower : Pieces) : Parser Phrase := do
  let (dots, isClosed) ← rangeDots false
  if !isClosed && (← ahead (rangeStop structs)) then pure ⟨lower ++ dots, .openRange⟩
  else pure ⟨lower ++ dots ++ (← rightOperand g structs rangeLevel).pieces, .closedRange⟩

/-- Takes the operators that follow an operand and have at least the level `bound`. -/
def climbStep (structs : Bool) (operand : Phrase) (bound : Nat) : Parser Phrase := do
  let ts ← get
  if operand.shape = .closedRange then pure operand
  else match binaryOperator ts with
  | some (operator, level) =>
      if level < bound || (level = assignLevel && operand.shape.isRange) then pure operand
      else if level = compareLevel && operand.shape = .comparison then failure
      else
        let sign ← op operator
        let right ← rightOperand g structs level
        let shape := if level = compareLevel then Shape.comparison else .plain
        g.climb structs ⟨operand.pieces ++ sign ++ right.pieces, shape⟩ bound
  | none =>
      if bound ≤ assignLevel && assignment ts && !operand.shape.isRange then
        let sign ← op "="
        let right ← rightOperand g structs assignLevel
        g.climb structs (Phrase.plain (operand.pieces ++ sign ++ right.pieces)) bound
      else if bound ≤ rangeLevel && Ahead.mark ".." ts then
        let range ← rangeRest g structs operand.pieces
        g.climb structs range bound
      else if bound ≤ castLevel && Ahead.word "as" ts then
        let cast ← kw "as" ++ typePiece g false
        expect (.notNext behindCast)
        g.climb structs (Phrase.plain (operand.pieces ++ cast)) bound
      else pure operand

/-- An expression. -/
def expressionStep (structs : Bool) : Parser Phrase := do
  g.climb structs (← g.unary structs) 0

/-! ## Operands -/

/-- Takes expressions with commas between them, up to the end. -/
def expressions : Parser Pieces := commaPieces (expressionPieces g true)

/-- Takes the arguments of a call. -/
def callArguments : Parser Pieces := groupOf .parenthesis (expressions g)

/-- Takes a number that stands for positions in nested tuples, such as `0.1`.  The result tells
also whether it ends with its point. -/
def positions : Parser (Pieces × Bool) := fun ts =>
  match ts with
  | .literal t _ :: rest =>
      let digits := t.toList
      let endsWithDot := digits.getLast? == some '.'
      if digits.contains '.' && digits.all (fun c => c.isDigit || c = '.') then
        some (([.token (.literal t ())], endsWithDot), rest)
      else none
  | _ => none

/-- A number with a point or an exponent stands next. -/
def decimalAhead : Ahead
  | .literal t _ :: _ => (Literal.decimal t.toList).isSome
  | _ => false

/-- Takes a member behind a dot, with the arguments of a method. -/
def memberAccess : Parser Pieces := do
  if ← ahead (.word "await") then kw "await"
  else
    let (named, m) ← member
    if named && (← ahead (.mark "::")) then
      mark "::"
      let arguments ← angled g true
      pure (m ++ arguments.lexemes.map .token ++ (← callArguments g))
    else if named && (← ahead (.group .parenthesis)) then pure (m ++ (← callArguments g))
    else pure m

/-- Takes the calls, member accesses and indices that follow an operand. -/
def trailersStep (e : Phrase) : Parser Phrase := do
  if ← ahead (.group .parenthesis) then
    g.trailers (Phrase.plain (e.pieces ++ (← callArguments g)))
  else if (← ahead dot) && !e.shape.isRange then
    let dot ← op "."
    if ← ahead decimalAhead then
      let (numbers, endsWithDot) ← positions
      let more ← if endsWithDot then memberAccess g else empty
      g.trailers (Phrase.plain (e.pieces ++ dot ++ numbers ++ more))
    else
      g.trailers (Phrase.plain (e.pieces ++ dot ++ (← memberAccess g)))
  else if ← ahead (.group .bracket) then
    let index ← groupOf .bracket (expressionPieces g true)
    g.trailers (Phrase.plain (e.pieces ++ index))
  else if (← ahead (.mark "?")) && !e.shape.isRange then
    let mark ← op "?"
    g.trailers (Phrase.plain (e.pieces ++ mark))
  else pure e

/-- Takes a field of a structure's value, or the dots in front of the value it is taken from. -/
def fieldValue : Parser Pieces := do
  if ← ahead (.mark "..") then
    let dots ← op ".."
    let base ← when (.notNext .nothing) (expressionPieces g true)
    expect .nothing
    pure (dots ++ base)
  else
    let attributes ← attributesPieces g
    let (named, m) ← member
    if !named || (← ahead (.mark ":")) then
      let colon ← op ":"
      pure (attributes ++ m ++ colon ++ (← expressionPieces g true))
    else pure (attributes ++ m)

/-- Takes an operand that begins with a path: a macro call, a structure's value or the path. -/
def pathOperand (structs : Bool) : Parser Phrase := do
  let (qualified, p, pieces) ← expressionPath g
  if !qualified && p.isPlain && (← ahead (.allOf [.mark "!", .notNext (.mark "!=")])) then
    let bang ← op "!"
    let braced ← ahead (.group .brace)
    pure ⟨pieces ++ bang ++ (← anyGroup), .call braced⟩
  else if structs && (← ahead (.group .brace)) then
    pure (Phrase.plain (pieces ++ (← groupOf .brace (commaPieces (fieldValue g)))))
  else pure (Phrase.plain pieces)

/-- Takes what stands between the brackets of a list: elements, or an element and its count. -/
def listContent : Parser Pieces := do
  if ← ahead .nothing then empty
  else
    let first ← expressionPieces g true
    if ← ahead (.mark ";") then
      let semicolon ← op ";"
      pure (first ++ semicolon ++ (← expressionPieces g true))
    else if ← ahead (.mark ",") then
      let comma ← op ","
      pure (first ++ comma ++ (← expressions g))
    else pure first

/-- Takes a parameter of a closure. -/
def closureParameter : Parser Pieces := do
  let attributes ← attributesPieces g
  let pattern ← g.pattern
  pure (attributes ++ pattern.pieces ++ (← when (.mark ":") (op ":" ++ typePiece g true)))

/-- Takes a closure. -/
def closure (structs : Bool) : Parser Pieces := do
  let front ← when (.word "for") (binder g) ++ kwMaybe "const" ++ kwMaybe "static"
    ++ kwMaybe "async" ++ kwMaybe "move"
  let parameters ← op "|" ++ separatedPieces (.mark "|") "," (closureParameter g) ++ op "|"
  let body ←
    if ← ahead (.mark "->") then op "->" ++ typePiece g true ++ block g
    else expressionPieces g structs
  pure (front ++ parameters ++ body)

/-- Takes a condition or another expression that a block follows. -/
def condition : Parser Pieces := expressionPieces g false

/-- Takes the branches of a conditional, at most `fuel` of them. -/
def branchesFuel : Nat → Parser Pieces
  | 0 => failure
  | n + 1 => do
      let branch ← kw "if" ++ condition g ++ block g
      if ← ahead (.word "else") then
        let otherwise ← kw "else"
        let rest ← if ← ahead (.word "if") then branchesFuel n else attributedBlock g
        pure (branch ++ otherwise ++ rest)
      else pure branch

/-- Takes a conditional. -/
def conditional : Parser Pieces := fun ts => branchesFuel g (ts.length + 1) ts

/-- Takes the name of a loop or block. -/
def label : Parser Pieces := lifetimePiece ++ op ":"

/-- Takes a loop that runs while a condition holds. -/
def whileLoop : Parser Pieces := kw "while" ++ condition g ++ attributedBlock g

/-- Takes a loop over a sequence. -/
def forLoop : Parser Pieces :=
  kw "for" ++ alternativesPieces g ++ kw "in" ++ condition g ++ attributedBlock g

/-- Takes a loop without a condition. -/
def endlessLoop : Parser Pieces := kw "loop" ++ attributedBlock g

/-- An arm of a match stands next, or nothing. -/
def isBlockLike : Shape → Bool
  | .block => true
  | _ => false

/-- The words that begin an expression which ends with its block. -/
def loopWords : List String := ["if", "while", "for", "loop", "match"]

/-- Takes an expression that a statement or an arm of a match begins with.  One that ends with
its block goes on only behind a dot or a question mark. -/
def boundaryExpression : Parser Phrase := do
  let attributes ← attributesPieces g
  let binderFor : Ahead := .allOf
    [.word "for", .second (.mark "<"), .third (.anyOf [.lifetime, .mark ">"])]
  let blockFirst : Ahead := .anyOf
    [.allOf [.oneWord loopWords, .notNext binderFor], .allOf [.word "try", .second (.group .brace)],
      .word "unsafe", .allOf [.word "const", .second (.group .brace)], .group .brace, .lifetime]
  let e ←
    if ← ahead (.word "if") then pure ⟨← conditional g, .block⟩
    else if ← ahead (.word "while") then pure ⟨← whileLoop g, .block⟩
    else if ← ahead (.allOf [.word "for", .notNext binderFor]) then pure ⟨← forLoop g, .block⟩
    else if ← ahead (.word "loop") then pure ⟨← endlessLoop g, .block⟩
    else if ← ahead blockFirst then g.unary true
    else g.unary true
  let whole : Phrase := ⟨attributes ++ e.pieces, e.shape⟩
  if !isBlockLike e.shape then g.climb true whole 0
  else if ← ahead (.anyOf [dot, .mark "?"]) then
    let longer ← g.trailers whole
    g.climb true longer 0
  else pure whole

/-- Takes an arm of a match. -/
def arm : Parser Pieces := do
  let attributes ← attributesPieces g
  let pattern ← alternativesPieces g
  let guard ← when (.word "if") (kw "if" ++ expressionPieces g true)
  let arrow ← op "=>"
  let body ← boundaryExpression g
  let comma ←
    if !isBlockLike body.shape && !(← ahead .nothing) then op "," else opMaybe ","
  pure (attributes ++ pattern ++ guard ++ arrow ++ body.pieces ++ comma)

/-- Takes a match. -/
def matching : Parser Pieces :=
  kw "match" ++ condition g ++ groupOf .brace (innerAttributesPieces g ++ toEnd (arm g))

/-- Takes a binding inside a condition. -/
def letCondition (structs : Bool) : Parser Pieces := do
  let front ← kw "let" ++ alternativesPieces g ++ op "="
  let operand ← g.unary structs
  pure (front ++ (← g.climb structs operand compareLevel).pieces)

/-- Takes a jump out of a loop or block. -/
def breakJump (structs : Bool) : Parser Pieces := do
  let front ← kw "break"
  if ← ahead (.allOf [.lifetime, .second (.mark ":")]) then failure
  let target ← when .lifetime lifetimePiece
  let value : Ahead := .allOf
    [expressionAhead, .anyOf [fun _ => structs, .notNext (.group .brace)]]
  pure (front ++ target ++ (← when value (expressionPieces g structs)))

/-- Takes a labelled loop or block. -/
def labelled : Parser Phrase := do
  let name ← label
  let body ←
    if ← ahead (.word "while") then whileLoop g
    else if ← ahead (.word "for") then forLoop g
    else if ← ahead (.word "loop") then endlessLoop g
    else attributedBlock g
  pure ⟨name ++ body, .block⟩

/-- Takes an operand without what may follow it. -/
def operand (structs : Bool) : Parser Phrase := do
  let brace2 : Ahead := .second (.group .brace)
  let binderFor : Ahead := .allOf
    [.word "for", .second (.mark "<"), .third (.anyOf [.lifetime, .mark ">"])]
  let asyncBlock : Ahead := .allOf [.word "async",
    .anyOf [brace2, .allOf [.second (.word "move"), .third (.group .brace)]]]
  let closureFirst : Ahead := .anyOf
    [.mark "|", .word "move", binderFor, .allOf [.word "const", .notNext brace2], .word "static",
      .allOf [.word "async", .second (.anyOf [.mark "|", .word "move"])]]
  let tryPath : Ahead := .allOf [.word "try", .second (.anyOf [.mark "!", .mark "::"])]
  if ← ahead .literal then pure (Phrase.plain (← literalPiece))
  else if ← ahead asyncBlock then
    pure (Phrase.plain (← kw "async" ++ kwMaybe "move" ++ block g))
  else if ← ahead (.allOf [.word "try", brace2]) then pure ⟨← kw "try" ++ block g, .block⟩
  else if ← ahead closureFirst then pure (Phrase.plain (← closure g structs))
  else if ← ahead (.allOf [.word "builtin", .second (.mark "#")]) then
    pure (Phrase.plain (← kw "builtin" ++ op "#" ++ wordPiece ++ anyGroup))
  else if ← ahead (.anyOf [pathAhead, tryPath]) then pathOperand g structs
  else if ← ahead (.group .parenthesis) then
    pure (Phrase.plain (← groupOf .parenthesis (expressions g)))
  else if ← ahead (.word "break") then pure (Phrase.plain (← breakJump g structs))
  else if ← ahead (.word "continue") then
    pure (Phrase.plain (← kw "continue" ++ when .lifetime lifetimePiece))
  else if ← ahead (.oneWord ["return", "yield"]) then
    pure (Phrase.plain (← wordPiece ++ when expressionAhead (expressionPieces g true)))
  else if ← ahead (.word "become") then
    pure (Phrase.plain (← kw "become" ++ expressionPieces g true))
  else if ← ahead (.group .bracket) then
    pure (Phrase.plain (← groupOf .bracket (listContent g)))
  else if ← ahead (.word "let") then pure (Phrase.plain (← letCondition g structs))
  else if ← ahead (.word "if") then pure ⟨← conditional g, .block⟩
  else if ← ahead (.word "while") then pure ⟨← whileLoop g, .block⟩
  else if ← ahead (.word "for") then pure ⟨← forLoop g, .block⟩
  else if ← ahead (.word "loop") then pure ⟨← endlessLoop g, .block⟩
  else if ← ahead (.word "match") then pure ⟨← matching g, .block⟩
  else if ← ahead (.oneWord ["unsafe", "const"]) then
    pure ⟨← wordPiece ++ attributedBlock g, .block⟩
  else if ← ahead (.group .brace) then pure ⟨← attributedBlock g, .block⟩
  else if ← ahead (.mark "..") then rangeRest g structs []
  else if ← ahead (.word "_") then pure (Phrase.plain (← kw "_"))
  else labelled g

/-- An operand with the operators in front of it. -/
def unaryStep (structs : Bool) : Parser Phrase := do
  let attributes ← attributesPieces g
  if ← ahead (.mark "&") then
    let rawAhead : Ahead := .allOf [.word "raw", .second (.oneWord ["mut", "const"])]
    let sign ← op "&"
    let kind ←
      if ← ahead rawAhead then
        kw "raw" ++ (do if ← ahead (.word "mut") then kw "mut" else kw "const")
      else kwMaybe "mut"
    pure (Phrase.plain (attributes ++ sign ++ kind ++ (← g.unary structs).pieces))
  else if ← ahead (.oneMark ["*", "!", "-"]) then
    let sign ←
      if ← ahead (.mark "*") then op "*" else if ← ahead (.mark "!") then op "!" else op "-"
    pure (Phrase.plain (attributes ++ sign ++ (← g.unary structs).pieces))
  else
    let e ← g.trailers (← operand g structs)
    if !attributes.isEmpty && e.shape.isRange then failure
    else pure ⟨attributes ++ e.pieces, e.shape⟩

/-! ## Statements -/

/-- Whether the last piece is a group in braces. -/
def endsWithBrace (ps : Pieces) : Bool :=
  match ps.getLast? with
  | some (.group .brace _) => true
  | some (.token (.group .brace _ _)) => true
  | some (.type t) =>
      match t.lexemes.getLast? with
      | some (.group .brace _ _) => true
      | _ => false
  | _ => false

/-- Takes a local binding. -/
def localBinding : Parser Pieces := do
  let front ← kw "let"
  let pattern := (← g.pattern).pieces
  let type ← when (.mark ":") (op ":" ++ typePiece g true)
  let value ←
    if ← ahead (.mark "=") then
      let sign ← op "="
      let e ← expressionPieces g true
      let otherwise ←
        if !endsWithBrace e && (← ahead (.word "else")) then kw "else" ++ block g else empty
      pure (sign ++ e ++ otherwise)
    else pure []
  pure (front ++ pattern ++ type ++ value ++ (← op ";"))

/-- A statement, and whether a semicolon must follow before the next one. -/
structure Statement where
  pieces : Pieces
  isOpen : Bool

/-- The tokens that begin an item inside a block. -/
def itemAhead : Ahead :=
  let second := Ahead.second
  let third := Ahead.third
  .anyOf [.oneWord ["pub", "extern", "use", "fn", "mod", "type", "struct", "enum", "trait", "impl",
      "macro"],
    .allOf [.word "crate", .notNext (second (.mark "::"))],
    .allOf [.word "static", .anyOf [second (.word "mut"), .allOf [second .name,
      .notNext (.allOf [second (.word "async"), third (.anyOf [.word "move", .mark "|"])])]]],
    .allOf [.word "const", .notNext (.anyOf [second (.group .brace), second (.word "static"),
      .allOf [second (.word "async"), .notNext (third (.oneWord ["unsafe", "extern", "fn"]))],
      second (.word "move"), second (.mark "|")])],
    .allOf [.word "unsafe", .notNext (second (.group .brace))],
    .allOf [.word "async", second (.oneWord ["unsafe", "extern", "fn"])],
    .allOf [.word "union", second .name],
    .allOf [.word "auto", second (.word "trait")],
    .allOf [.word "default", second (.oneWord ["unsafe", "impl"])]]

/-- Takes an expression that is a statement. -/
def expressionStatement (attributes : Pieces) : Parser Statement := do
  let e ← boundaryExpression g
  let semicolon ← opMaybe ";"
  let isOpen := semicolon.isEmpty && !isBlockLike e.shape && e.shape != .call true
  pure ⟨attributes ++ e.pieces ++ semicolon, isOpen⟩

/-- What a macro call at the beginning of a statement is. -/
inductive CallForm where
  | item
  | statement
  | expression
  deriving DecidableEq

/-- The form of the macro call that a statement may begin with: with a name behind the exclamation
mark it is an item, and with braces it is a statement of its own unless it is asked for a member. -/
def callForm (ts : Tokens) : CallForm :=
  match plainPath ts with
  | some (_, rest) =>
      if Ahead.mark "!" rest then
        if Ahead.second (.anyOf [.name, .word "try"]) rest then .item
        else if Ahead.second (.group .brace) rest
            && !Ahead.third (.anyOf [dot, .mark "?"]) rest then .statement
        else .expression
      else .expression
  | none => .expression

/-- Takes a statement. -/
def statement : Parser Statement := do
  let start ← get
  let attributes ← attributesPieces g
  let form := callForm (← get)
  if form = .statement then
    let call ← (do pure [.path (← plainPath)]) ++ op "!" ++ anyGroup ++ opMaybe ";"
    pure ⟨attributes ++ call, false⟩
  else if ← ahead (.word "let") then pure ⟨attributes ++ (← localBinding g), false⟩
  else if form = .item || (← ahead itemAhead) then
    set start
    let _ ← g.item
    let rest ← get
    let taken := start.take (start.length - rest.length)
    pure ⟨(Token.eraseAll taken).map .token, false⟩
  else expressionStatement g attributes

/-- Takes statements up to the end, at most `fuel` of them. -/
def statementsFuel : Nat → Parser Pieces
  | 0 => failure
  | n + 1 => do
      let semicolons ← manyWhile (.mark ";") (op ";")
      if ← ahead .nothing then pure semicolons
      else
        let s ← statement g
        if ← ahead .nothing then pure (semicolons ++ s.pieces)
        else if s.isOpen then failure
        else pure (semicolons ++ s.pieces ++ (← statementsFuel n))

/-- The statements of a block. -/
def statementsStep : Parser Pieces := fun ts => statementsFuel g (ts.length + 1) ts

end

end FieldCopy.Source.Grammar
