import FieldCopy.Source.Ty

/-!
# Parsing token lists

A parser takes tokens from the front of a list and fails if they are not what it looks for.

**Looking ahead** is a test of the token list (`Ahead`).  A lifetime counts as one token there, an
operator as one token for each of its characters.

**Phrases.**  A parser of `Pieces` returns what it took, each operator as a unit: its characters
are joined to each other and to nothing else, however closely the next token followed.  Such
parsers are put in sequence by `++`.
-/

namespace FieldCopy.Source

/-- What is left to be parsed. -/
abbrev Tokens := List (Token Place)

/-- A parser of values of type `α`. -/
abbrev Parser := StateT Tokens Option

/-- A phrase, kept as the pieces it is made of. -/
abbrev Pieces := List Piece

/-! ## Looking ahead -/

/-- A test of the next tokens. -/
abbrev Ahead := Tokens → Bool

namespace Ahead

/-- The characters of an operator stand next, each but the last joined to the next. -/
def marks : List Char → Ahead
  | [c], .mark d _ _ :: _ => c == d
  | c :: cs, .mark d true _ :: rest => c == d && marks cs rest
  | _, _ => false

/-- An operator stands next.  A longer operator may have it at its front. -/
def mark (operator : String) : Ahead := marks operator.toList

/-- This word stands next. -/
def word (w : String) : Ahead
  | .word t _ :: _ => t == w
  | _ => false

/-- Any word stands next. -/
def anyWord : Ahead
  | .word _ _ :: _ => true
  | _ => false

/-- The words that cannot be names. -/
def reserved : List String :=
  ["_", "abstract", "as", "async", "await", "become", "box", "break", "const", "continue",
    "crate", "do", "dyn", "else", "enum", "extern", "false", "final", "fn", "for", "if", "impl",
    "in", "let", "loop", "macro", "match", "mod", "move", "mut", "override", "priv", "pub", "ref",
    "return", "Self", "self", "static", "struct", "super", "trait", "true", "try", "type",
    "typeof", "unsafe", "unsized", "use", "virtual", "where", "while", "yield"]

/-- A name stands next: a word that is not reserved. -/
def name : Ahead
  | .word t _ :: _ => !reserved.contains t
  | _ => false

/-- A lifetime stands next. -/
def lifetime : Ahead
  | .mark '\'' true _ :: .word _ _ :: _ => true
  | _ => false

/-- A group with these delimiters stands next. -/
def group (d : Delimiter) : Ahead
  | .group d' _ _ :: _ => d == d'
  | _ => false

/-- A literal stands next: a number with or without a minus sign, a quoted literal or a truth
value. -/
def literal : Ahead
  | .literal _ _ :: _ => true
  | .word t _ :: _ => t == "true" || t == "false"
  | .mark '-' _ _ :: .literal t _ :: _ => (t.toList.head?).any Char.isDigit
  | _ => false

/-- A string literal stands next. -/
def string : Ahead
  | .literal t _ :: _ =>
      match t.toList with
      | '"' :: _ | 'r' :: _ => true
      | _ => false
  | _ => false

/-- Nothing is left. -/
def nothing : Ahead := List.isEmpty

/-- The tokens behind the next one, a lifetime counting as one token. -/
def skip : Tokens → Tokens
  | .mark '\'' true _ :: .word _ _ :: rest => rest
  | _ :: rest => rest
  | [] => []

/-- The test holds behind the next token. -/
def second (a : Ahead) : Ahead := fun ts => a (skip ts)

/-- The test holds behind the next two tokens. -/
def third (a : Ahead) : Ahead := fun ts => a (skip (skip ts))

/-- One of the tests holds. -/
def anyOf (as : List Ahead) : Ahead := fun ts => as.any (· ts)

/-- All of the tests hold. -/
def allOf (as : List Ahead) : Ahead := fun ts => as.all (· ts)

/-- The test does not hold. -/
def notNext (a : Ahead) : Ahead := fun ts => !a ts

/-- One of these words stands next. -/
def oneWord (ws : List String) : Ahead := fun ts => ws.any (word · ts)

/-- One of these operators stands next. -/
def oneMark (operators : List String) : Ahead := fun ts => operators.any (mark · ts)

/-- A single colon stands next, not the two colons of a path. -/
def colon : Ahead := allOf [mark ":", notNext (mark "::")]

end Ahead

namespace Parser

variable {α β : Type}

/-- Whether the test holds for the tokens that are left. -/
def ahead (a : Ahead) : Parser Bool := fun ts => some (a ts, ts)

/-- Fails unless the test holds. -/
def expect (a : Ahead) : Parser Unit := fun ts => if a ts then some ((), ts) else none

/-- Takes one token of any kind. -/
def any : Parser (Token Place)
  | t :: rest => some (t, rest)
  | [] => none

/-- Takes an operator. -/
def mark (operator : String) : Parser Unit := fun ts =>
  if Ahead.mark operator ts then some ((), ts.drop operator.length) else none

/-- Takes a word. -/
def word (w : String) : Parser Unit := fun ts =>
  if Ahead.word w ts then some ((), ts.drop 1) else none

/-- Takes any word. -/
def anyWord : Parser String
  | .word t _ :: rest => some (t, rest)
  | _ => none

/-- Takes a name and returns it with its place. -/
def placedName : Parser (String × Place)
  | .word t p :: rest => if Ahead.reserved.contains t then none else some ((t, p), rest)
  | _ => none

/-- Takes a name. -/
def name : Parser String := (·.1) <$> placedName

/-- Takes a lifetime and returns its name. -/
def lifetime : Parser String
  | .mark '\'' true _ :: .word t _ :: rest => some (t, rest)
  | _ => none

/-- Takes a string literal, as written. -/
def string : Parser String := fun ts =>
  match ts with
  | .literal t _ :: rest => if Ahead.string ts then some (t, rest) else none
  | _ => none

/-- Takes the operator if it stands next, and tells whether it did. -/
def optionalMark (operator : String) : Parser Bool := do
  if ← ahead (.mark operator) then mark operator; pure true else pure false

/-- Takes the word if it stands next, and tells whether it did. -/
def optionalWord (w : String) : Parser Bool := do
  if ← ahead (.word w) then word w; pure true else pure false

/-- Takes a lifetime if one stands next. -/
def optionalLifetime : Parser (Option String) := do
  if ← ahead .lifetime then some <$> lifetime else pure none

/-- Runs a parser on a token list that it must take to the end. -/
def all (p : Parser α) (ts : Tokens) : Option α :=
  match p ts with
  | some (a, []) => some a
  | _ => none

/-- Takes a group and runs a parser on all of its content. -/
def inside (d : Delimiter) (p : Parser α) : Parser α
  | .group d' inner _ :: rest => if d = d' then (all p inner).map (·, rest) else none
  | _ => none

/-- Repeats a parser while the test holds, at most `fuel` times. -/
def whileFuel (a : Ahead) (p : Parser α) : Nat → Parser (List α)
  | 0 => pure []
  | n + 1 => do
      if ← ahead a then
        let x ← p
        let xs ← whileFuel a p n
        pure (x :: xs)
      else pure []

/-- Repeats a parser that takes a token at least while the test holds. -/
def repeatWhile (a : Ahead) (p : Parser α) : Parser (List α) := fun ts =>
  whileFuel a p (ts.length + 1) ts

/-- Repeats a parser until nothing is left. -/
def untilEnd (p : Parser α) : Parser (List α) := repeatWhile (.notNext .nothing) p

/-- Items with separators between them, up to where the test holds, at most `fuel` of them.  The
result tells also whether a separator follows the last item. -/
def separatedFuel (stop : Ahead) (separator : Parser β) (p : Parser α) :
    Nat → Parser (List α × Bool)
  | 0 => failure
  | n + 1 => do
      if ← ahead stop then pure ([], true)
      else
        let x ← p
        if ← ahead stop then pure ([x], false)
        else
          let _ ← separator
          let (xs, trailing) ← separatedFuel stop separator p n
          pure (x :: xs, trailing)

/-- Items with separators between them, up to where the test holds. -/
def separated (stop : Ahead) (separator : Parser β) (p : Parser α) : Parser (List α × Bool) :=
  fun ts => separatedFuel stop separator p (ts.length + 1) ts

/-- Items with commas between them, up to the end. -/
def commas (p : Parser α) : Parser (List α × Bool) := separated .nothing (mark ",") p

/-! ## Phrases -/

instance : Append (Parser Pieces) := ⟨fun p q => do pure ((← p) ++ (← q))⟩

/-- Takes nothing. -/
def empty : Parser Pieces := pure []

/-- The pieces of an operator. -/
def operatorPieces (operator : String) : Pieces := (Token.marks operator).map .token

/-- Takes an operator. -/
def op (operator : String) : Parser Pieces := do mark operator; pure (operatorPieces operator)

/-- Takes a word. -/
def kw (w : String) : Parser Pieces := do word w; pure [.token (.word w ())]

/-- Takes a name. -/
def namePiece : Parser Pieces := do pure [.token (.word (← name) ())]

/-- Takes any word. -/
def wordPiece : Parser Pieces := do pure [.token (.word (← anyWord) ())]

/-- Takes a lifetime. -/
def lifetimePiece : Parser Pieces := do pure ((Token.lifetime (← lifetime)).map .token)

/-- Takes a literal.  A minus sign in front of a number is a token of its own. -/
def literalPiece : Parser Pieces
  | .literal t _ :: rest => some ([.token (.literal t ())], rest)
  | .mark '-' _ _ :: .literal t _ :: rest =>
      if (t.toList.head?).any Char.isDigit then
        some (operatorPieces "-" ++ [.token (.literal t ())], rest)
      else none
  | .word t _ :: rest =>
      if t == "true" || t == "false" then some ([.token (.word t ())], rest) else none
  | _ => none

/-- Runs a phrase if the test holds. -/
def when (a : Ahead) (p : Parser Pieces) : Parser Pieces := do
  if ← ahead a then p else pure []

/-- Takes the operator if it stands next. -/
def opMaybe (operator : String) : Parser Pieces := when (.mark operator) (op operator)

/-- Takes the word if it stands next. -/
def kwMaybe (w : String) : Parser Pieces := when (.word w) (kw w)

/-- A phrase that takes all of a group's content. -/
def groupOf (d : Delimiter) (p : Parser Pieces) : Parser Pieces := do
  pure [.group d (← inside d p)]

/-- Phrases in sequence while the test holds. -/
def manyWhile (a : Ahead) (p : Parser Pieces) : Parser Pieces := do
  pure (← repeatWhile a p).flatten

/-- Phrases in sequence until nothing is left. -/
def toEnd (p : Parser Pieces) : Parser Pieces := manyWhile (.notNext .nothing) p

/-- The pieces of items with an operator between them. -/
def joinPieces (operator : String) (items : List Pieces) (trailing : Bool) : Pieces :=
  (items.intersperse (operatorPieces operator)).flatten
    ++ if trailing && !items.isEmpty then operatorPieces operator else []

/-- Phrases with an operator between them, up to where the test holds. -/
def separatedPieces (stop : Ahead) (operator : String) (p : Parser Pieces) : Parser Pieces := do
  let (items, trailing) ← separated stop (mark operator) p
  pure (joinPieces operator items trailing)

/-- Phrases with commas between them, up to the end. -/
def commaPieces (p : Parser Pieces) : Parser Pieces := separatedPieces .nothing "," p

/-- Takes a group of any kind as it stands. -/
def anyGroup : Parser Pieces
  | .group d inner _ :: rest =>
      some ([.group d ((Token.eraseAll inner).map .token)], rest)
  | _ => none

end Parser

end FieldCopy.Source
