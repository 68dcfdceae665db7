/-!
# Tokens of Rust text

A source text is a list of token trees: words, punctuation marks, literals, and groups of tokens
between matching delimiters.  Every token carries an annotation; the scanner puts the place of the
token there, and the types and attributes that are kept after parsing carry nothing.

**Printing.**  `Token.text` is the one-line form of a token list: tokens stand one space apart,
except that nothing follows a mark which is joined to its successor.
-/

namespace FieldCopy.Source

/-- A line and a column, both counted from one. -/
structure Place where
  line : Nat
  column : Nat
  deriving DecidableEq, Repr, Inhabited

namespace Place

/-- The first place of a text. -/
def start : Place := ⟨1, 1⟩

/-- The place behind a character that stands at `p`. -/
def after (p : Place) (c : Char) : Place :=
  if c = '\n' then ⟨p.line + 1, 1⟩ else ⟨p.line, p.column + 1⟩

/-- The place behind a text that begins at `p`. -/
def afterText (p : Place) (text : List Char) : Place := text.foldl after p

end Place

/-- The three kinds of matching delimiters. -/
inductive Delimiter where
  | parenthesis
  | bracket
  | brace
  deriving DecidableEq, Repr, Inhabited

/-- A token tree with annotations of type `α`. -/
inductive Token (α : Type) where
  /-- An identifier, raw identifier or keyword, as written. -/
  | word (text : String) (place : α)
  /-- One punctuation character, and whether the next token is joined to it. -/
  | mark (char : Char) (joint : Bool) (place : α)
  /-- A number, character or string literal, as written. -/
  | literal (text : String) (place : α)
  /-- A delimited list of tokens. -/
  | group (delimiter : Delimiter) (inner : List (Token α)) (place : α)

/-- A token without a place. -/
abbrev Lexeme := Token Unit

namespace Token

variable {α : Type}

/-- The annotation of a token. -/
def place : Token α → α
  | word _ p | mark _ _ p | literal _ p | group _ _ p => p

mutual

/-- The token without its annotation. -/
def erase : Token α → Lexeme
  | word t _ => .word t ()
  | mark c j _ => .mark c j ()
  | literal t _ => .literal t ()
  | group d inner _ => .group d (eraseAll inner) ()

/-- The tokens without their annotations. -/
def eraseAll : List (Token α) → List Lexeme
  | [] => []
  | t :: rest => t.erase :: eraseAll rest

end

mutual

/-- The number of tokens in a tree, every group counting as one more. -/
def size : Token α → Nat
  | group _ inner _ => 1 + sizeAll inner
  | _ => 1

/-- The number of tokens in a list of trees. -/
def sizeAll : List (Token α) → Nat
  | [] => 0
  | t :: rest => t.size + sizeAll rest

end

/-- What stands in front of the content of a group. -/
def openingText : Delimiter → List Char
  | .parenthesis => ['(']
  | .bracket => ['[']
  | .brace => ['\x7b', ' ']

/-- What stands behind the content of a group; a brace keeps its distance from the content. -/
def closingText (isEmpty : Bool) : Delimiter → List Char
  | .parenthesis => [')']
  | .bracket => [']']
  | .brace => if isEmpty then ['\x7d'] else [' ', '\x7d']

/-- Whether the next token follows without a space. -/
def isJoint : Token α → Bool
  | mark _ joint _ => joint
  | _ => false

mutual

/-- The one-line form of a token. -/
def textOne : Token α → List Char
  | word t _ | literal t _ => t.toList
  | mark c _ _ => [c]
  | group d inner _ => openingText d ++ textAll inner ++ closingText inner.isEmpty d

/-- The one-line form of a token list. -/
def textAll : List (Token α) → List Char
  | [] => []
  | t :: rest =>
      t.textOne ++ (if t.isJoint || rest.isEmpty then [] else [' ']) ++ textAll rest

end

/-- The one-line form of a token list, as a string. -/
def text (ts : List (Token α)) : String := String.ofList (textAll ts)

/-- The marks of an operator, each but the last joined to the next. -/
def marksOf : List Char → List Lexeme
  | [] => []
  | [c] => [.mark c false ()]
  | c :: rest => .mark c true () :: marksOf rest

/-- The marks of an operator such as an arrow. -/
def marks (operator : String) : List Lexeme := marksOf operator.toList

/-- The two tokens of a lifetime, given its name without the quote. -/
def lifetime (name : String) : List Lexeme := [.mark '\'' true (), .word name ()]

end Token

end FieldCopy.Source
