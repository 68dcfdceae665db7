import FieldCopy.Source.Token
import FieldCopy.Source.Literal
import FieldCopy.Text.Blank

/-!
# From text to tokens

`Token.scan?` reads a source text into token trees.

**First the leaves.**  `leavesFuel` cuts the text into words, marks, literals and delimiters, each
with its place.  Blanks and plain comments are skipped.  A documentation comment stands for an
attribute, `#[doc = "..."]`, all of whose tokens have the place of the comment.

**Then the trees.**  `Leaf.nest` puts what stands between matching delimiters into a group.

A text without tokens of its own (an unclosed comment, a stray quote) or without matching
delimiters has no token trees.
-/

namespace FieldCopy.Source

/-- A token, or one side of a group. -/
inductive Leaf where
  | token (token : Token Place)
  | opening (delimiter : Delimiter) (place : Place)
  | closing (delimiter : Delimiter)

namespace Leaf

/-- Puts leaves between matching delimiters into groups.  `outer` holds the groups that are open,
innermost first, each with the reversed tokens in front of it; `level` holds the reversed tokens
of the innermost group. -/
def nestFrom (outer : List (Delimiter × Place × List (Token Place)))
    (level : List (Token Place)) : List Leaf → Option (List (Token Place))
  | [] => if outer.isEmpty then some level.reverse else none
  | .token t :: rest => nestFrom outer (t :: level) rest
  | .opening d p :: rest => nestFrom ((d, p, level) :: outer) [] rest
  | .closing d :: rest =>
      match outer with
      | (d', p, before) :: outer' =>
          if d = d' then nestFrom outer' (.group d level.reverse p :: before) rest else none
      | [] => none

/-- The token trees of a list of leaves, if every delimiter has its match. -/
def nest (leaves : List Leaf) : Option (List (Token Place)) := nestFrom [] [] leaves

end Leaf

namespace Scan

/-- Whether a character separates tokens.  The two direction marks count as blanks. -/
def isSeparator (c : Char) : Bool := isBlank c || c == '\u200e' || c == '\u200f'

/-- The rest of the text behind the current line, its line end not included. -/
def afterLine : List Char → List Char
  | [] => []
  | '\n' :: rest => '\n' :: rest
  | '\r' :: '\n' :: rest => '\n' :: rest
  | _ :: rest => afterLine rest

/-- The current line, without its line end. -/
def line : List Char → List Char
  | [] => []
  | '\n' :: _ => []
  | '\r' :: '\n' :: _ => []
  | c :: rest => c :: line rest

/-- The rest of the text behind a block comment, given the text behind one of its characters.
`depth` counts the comments that are open. -/
def afterBlock (depth : Nat) : List Char → Option (List Char)
  | '/' :: '*' :: rest => afterBlock (depth + 1) rest
  | '*' :: '/' :: rest => if depth ≤ 1 then some rest else afterBlock (depth - 1) rest
  | _ :: rest => afterBlock depth rest
  | [] => none

/-- The rest of the text behind a plain comment at its front, if there is one. -/
def afterComment : List Char → Option (List Char)
  | '/' :: '/' :: '/' :: '/' :: rest => some (afterLine rest)
  | '/' :: '/' :: '/' :: _ | '/' :: '/' :: '!' :: _ => none
  | '/' :: '/' :: rest => some (afterLine rest)
  | '/' :: '*' :: '*' :: '/' :: rest => some rest
  | '/' :: '*' :: '*' :: '*' :: rest => afterBlock 0 ('/' :: '*' :: '*' :: '*' :: rest)
  | '/' :: '*' :: '*' :: _ | '/' :: '*' :: '!' :: _ => none
  | '/' :: '*' :: rest => afterBlock 0 ('/' :: '*' :: rest)
  | _ => none

/-- A documentation comment at the front of a text. -/
structure Documentation where
  content : List Char
  /-- Whether the comment documents what it stands in. -/
  isInner : Bool
  rest : List Char

/-- The content of a block comment: what stands behind its three opening characters, without its
two closing ones. -/
def blockContent (s rest : List Char) : List Char :=
  (s.take (s.length - rest.length - 2)).drop 3

/-- The documentation comment at the front of a text. -/
def documentation? (s : List Char) : Option Documentation :=
  match s with
  | '/' :: '/' :: '!' :: rest => some ⟨line rest, true, afterLine rest⟩
  | '/' :: '*' :: '!' :: _ => (afterBlock 0 s).map fun rest => ⟨blockContent s rest, true, rest⟩
  | '/' :: '/' :: '/' :: '/' :: _ => none
  | '/' :: '/' :: '/' :: rest => some ⟨line rest, false, afterLine rest⟩
  | '/' :: '*' :: '*' :: '*' :: _ => none
  | '/' :: '*' :: '*' :: _ => (afterBlock 0 s).map fun rest => ⟨blockContent s rest, false, rest⟩
  | _ => none

/-- Whether every carriage return of a text is followed by a line feed. -/
def returnsArePaired : List Char → Bool
  | [] => true
  | '\r' :: '\n' :: rest => returnsArePaired rest
  | '\r' :: _ => false
  | _ :: rest => returnsArePaired rest

/-- The attribute that a documentation comment stands for, all of it at the comment's place. -/
def documentationLeaves (d : Documentation) (p : Place) : List Leaf :=
  [.token (.mark '#' false p)]
    ++ (if d.isInner then [.token (.mark '!' false p)] else [])
    ++ [.opening .bracket p, .token (.word "doc" p), .token (.mark '=' false p),
        .token (.literal (Literal.documentation d.content) p), .closing .bracket]

/-- The characters that are punctuation marks. -/
def markCharacters : List Char := "~!@#$%^&*-=+|;:,<.>/?'".toList

/-- Whether a punctuation mark stands at the front of a text; a slash that begins a comment is
none. -/
def startsWithMark : List Char → Bool
  | '/' :: '/' :: _ | '/' :: '*' :: _ => false
  | c :: _ => markCharacters.contains c
  | [] => false

/-- The identifier at the front of a text and the rest behind it. -/
def identifier? (s : List Char) : Option (List Char × List Char) :=
  match s with
  | c :: rest =>
      if isIdentifierStart c then
        let (tail, after) := rest.span isIdentifierPart
        some (c :: tail, after)
      else none
  | [] => none

/-- The words that have no raw form. -/
def neverRaw : List (List Char) :=
  ["_".toList, "super".toList, "self".toList, "Self".toList, "crate".toList]

/-- The identifier or raw identifier at the front of a text and the rest behind it. -/
def name? (s : List Char) : Option (List Char × List Char) :=
  match s with
  | 'r' :: '#' :: rest =>
      match identifier? rest with
      | some (n, after) => if neverRaw.contains n then none else some ('r' :: '#' :: n, after)
      | none => none
  | _ => identifier? s

/-- The beginnings of literals, which no identifier has. -/
def literalBeginnings : List (List Char) :=
  ["r\"", "r#\"", "r##", "b\"", "b'", "br\"", "br#", "c\"", "cr\"", "cr#"].map String.toList

/-- The mark at the front of a text, whether the next token is joined to it, and the rest.  A
quote is a mark only in front of a lifetime's name, which no second quote may follow. -/
def mark? (s : List Char) : Option (Char × Bool × List Char) :=
  if startsWithMark s then
    match s with
    | '\'' :: rest =>
        match name? rest with
        | some (_, after) =>
            match after with
            | '\'' :: _ => none
            | '#' :: _ => if "r#".toList.isPrefixOf rest then some ('\'', true, rest) else none
            | _ => some ('\'', true, rest)
        | none => none
    | c :: rest => some (c, startsWithMark rest, rest)
    | [] => none
  else none

/-- The leaves at the front of a text that is not blank there, and the rest behind them. -/
def step (p : Place) (s : List Char) : Option (List Leaf × List Char) :=
  match documentation? s with
  | some d =>
      if returnsArePaired d.content then some (documentationLeaves d p, d.rest) else none
  | none =>
      match s with
      | '(' :: rest => some ([.opening .parenthesis p], rest)
      | '[' :: rest => some ([.opening .bracket p], rest)
      | '\x7b' :: rest => some ([.opening .brace p], rest)
      | ')' :: rest => some ([.closing .parenthesis], rest)
      | ']' :: rest => some ([.closing .bracket], rest)
      | '\x7d' :: rest => some ([.closing .brace], rest)
      | _ =>
          match Literal.after s with
          | some rest =>
              some ([.token (.literal (String.ofList (s.take (s.length - rest.length))) p)], rest)
          | none =>
              match mark? s with
              | some (c, joint, rest) => some ([.token (.mark c joint p)], rest)
              | none =>
                  if literalBeginnings.any fun b => b.isPrefixOf s then none
                  else (name? s).map fun (n, rest) => ([.token (.word (String.ofList n) p)], rest)

/-- The leaves of a text that begins at `p`, `fuel` bounding the number of steps.  Every step
consumes a character at least. -/
def leavesFuel : Nat → Place → List Char → Option (List Leaf)
  | 0, _, s => if s.isEmpty then some [] else none
  | n + 1, p, s =>
      match s with
      | [] => some []
      | c :: rest =>
          match afterComment s with
          | some after => leavesFuel n (p.afterText (s.take (s.length - after.length))) after
          | none =>
              if isSeparator c then leavesFuel n (p.after c) rest
              else do
                let (found, after) ← step p s
                let others ← leavesFuel n (p.afterText (s.take (s.length - after.length))) after
                some (found ++ others)

/-- The leaves of a text.  A byte order mark at its front takes a column of its own. -/
def leaves (s : List Char) : Option (List Leaf) :=
  match s with
  | '\ufeff' :: rest => leavesFuel (rest.length + 1) (Place.start.after '\ufeff') rest
  | _ => leavesFuel (s.length + 1) .start s

end Scan

/-- The token trees of a text, if it is made of tokens with matching delimiters. -/
def Token.scan? (s : List Char) : Option (List (Token Place)) := (Scan.leaves s).bind Leaf.nest

end FieldCopy.Source
