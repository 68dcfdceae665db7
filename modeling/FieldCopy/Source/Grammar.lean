import FieldCopy.Source.Grammar.Items
import FieldCopy.Source.Scan
import FieldCopy.Source.TypeName

/-!
# The grammar

The parsers of the single levels are tied together here, and whole texts are parsed.

**Depth.**  Every step into a nested part, to the next operator of an expression and to the next
call behind an operand goes one level down.  A text cannot need more levels than a fixed number
for each of its tokens (`Grammar.levelsPerToken`), so `Grammar.forTokens` never runs out of them.
-/

namespace FieldCopy.Source

namespace Grammar

/-- The grammar whose parts may be nested this deeply. -/
def atDepth : Nat → Grammar
  | 0 => nothing
  | n + 1 =>
      { type := fun plus ts => typeStep (atDepth n) plus ts
        bound := fun form ts => boundStep (atDepth n) form ts
        expression := fun structs ts => expressionStep (atDepth n) structs ts
        unary := fun structs ts => unaryStep (atDepth n) structs ts
        climb := fun structs operand bound ts => climbStep (atDepth n) structs operand bound ts
        operandTail := fun structs level operand ts =>
          operandTailStep (atDepth n) structs level operand ts
        trailers := fun e ts => trailersStep (atDepth n) e ts
        pattern := fun ts => patternStep (atDepth n) ts
        statements := fun ts => statementsStep (atDepth n) ts
        item := fun ts => itemStep (atDepth n) ts
        useTree := fun roots ts => useTreeStep (atDepth n) roots ts }

/-- More levels than a token can ask for. -/
def levelsPerToken : Nat := 20

/-- The grammar for a token list. -/
def forTokens (ts : Tokens) : Grammar := atDepth (levelsPerToken * (Token.sizeAll ts + 1))

end Grammar

/-- The type that a text spells, if it spells one. -/
def Ty.parse? (text : String) : Option Ty := do
  let ts ← Token.scan? text.toList
  Parser.all ((Grammar.forTokens ts).type true) ts

/-- The path that a text spells, if it spells one. -/
def Path.parse? (text : String) : Option Path := do
  let ts ← Token.scan? text.toList
  Parser.all (Grammar.path (Grammar.forTokens ts) false) ts

/-- The name of the type that a text spells, if it spells one. -/
def Ty.nameOf? (text : String) : Option String := (Ty.parse? text).map Ty.displayName

/-- The name of the type of the elements, for a type given as text. -/
def Ty.elementName? (text : String) : Option String :=
  ((Ty.parse? text).bind Ty.element?).map Ty.displayName

/-! ## Files -/

/-- Whether a line that begins with `#!` is an attribute: a bracket is the first token behind. -/
def startsAttribute : Nat → List Char → Bool
  | 0, _ => false
  | n + 1, s =>
      match Scan.afterComment s with
      | some rest => startsAttribute n rest
      | none =>
          match s with
          | c :: rest => if Scan.isSeparator c then startsAttribute n rest else c = '['
          | [] => false

/-- A file's text without a byte order mark and without a first line for the shell. -/
def withoutShellLine (text : List Char) : List Char :=
  let s := match text with
    | '\ufeff' :: rest => rest
    | _ => text
  match s with
  | '#' :: '!' :: rest =>
      if startsAttribute (rest.length + 1) rest then s else rest.dropWhile (· != '\n')
  | _ => s

/-- The items of a source file, if its text is one. -/
def parseItems? (text : String) : Option (List Item) := do
  let ts ← Token.scan? (withoutShellLine text.toList)
  let g := Grammar.forTokens ts
  let file : Parser (List Item) := do
    let _ ← Grammar.innerAttributes g
    Parser.untilEnd g.item
  Parser.all file ts

end FieldCopy.Source
