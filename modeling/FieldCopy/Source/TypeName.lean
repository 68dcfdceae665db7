import FieldCopy.Source.Ty
import FieldCopy.Text.Alphanumeric

/-!
# Names of types

Two spellings of one type should have one name.  The name of a type is its text with two things
done to it.

**Prelude paths are shortened.**  The full path of `Box`, `String`, `Vec`, `Option` or `Result` in
one of the standard crates becomes the bare name, at every type inside the type
(`Ty.shorten`).

**Spaces are removed.**  Between two neighbours a space is kept only where it is customary; the
two characters next to it decide (`TypeName.keepsSpace`).
-/

namespace FieldCopy.Source

/-! ## Shortening -/

/-- The crates that define the types of the prelude. -/
def standardCrates : List String := ["alloc", "core", "std"]

/-- The types of the prelude, each with the module that defines it. -/
def preludeTypes : List (String × String) :=
  [("boxed", "Box"), ("option", "Option"), ("result", "Result"), ("string", "String"),
    ("vec", "Vec")]

/-- Whether a path leads to a type of the prelude. -/
def Path.isPrelude (p : Path) : Bool :=
  match p.segments with
  | [c, m, t] => standardCrates.contains c.name && preludeTypes.contains (m.name, t.name)
  | _ => false

/-- A path to a type of the prelude without all but its last name. -/
def Path.shorten (p : Path) : Path :=
  match p.segments with
  | [_, _, last] => if p.isPrelude then .mk false [last] else p
  | _ => p

mutual

/-- The type with all prelude paths inside it shortened. -/
def Ty.shorten : Ty → Ty
  | .path p => .path p.shortenInner.shorten
  | .qualified s d p => .qualified s.shorten d p.shortenInner.shorten
  | .reference l m t => .reference l m t.shorten
  | .slice e => .slice e.shorten
  | .array e n => .array e.shorten (shortenPieces n)
  | .tuple es trailing => .tuple (shortenTypes es) trailing
  | .parenthesized t => .parenthesized t.shorten
  | .traitObject ps => .traitObject (shortenPieces ps)
  | .implTrait ps => .implTrait (shortenPieces ps)
  | .other ps => .other (shortenPieces ps)

/-- The path with the types inside its arguments shortened. -/
def Path.shortenInner : Path → Path
  | .mk r segments => .mk r (shortenSegments segments)

/-- The name with the types inside its arguments shortened. -/
def Segment.shortenInner : Segment → Segment
  | .mk n a => .mk n a.shorten

/-- The arguments with the types inside them shortened. -/
def Arguments.shorten : Arguments → Arguments
  | .none => .none
  | .angled turbofish items trailing => .angled turbofish (shortenItems items) trailing
  | .called ps => .called (shortenPieces ps)

/-- The argument with the types inside it shortened. -/
def Argument.shorten : Argument → Argument
  | .lifetime n => .lifetime n
  | .type t => .type t.shorten
  | .other ps => .other (shortenPieces ps)

/-- The piece with the types inside it shortened. -/
def Piece.shorten : Piece → Piece
  | .token t => .token t
  | .type t => .type t.shorten
  | .path p => .path p.shortenInner
  | .group d ps => .group d (shortenPieces ps)

/-- Shortens every type of a list. -/
def shortenTypes : List Ty → List Ty
  | [] => []
  | t :: rest => t.shorten :: shortenTypes rest

/-- Shortens inside every name of a path. -/
def shortenSegments : List Segment → List Segment
  | [] => []
  | s :: rest => s.shortenInner :: shortenSegments rest

/-- Shortens inside every argument of a list. -/
def shortenItems : List Argument → List Argument
  | [] => []
  | a :: rest => a.shorten :: shortenItems rest

/-- Shortens inside every piece of a list. -/
def shortenPieces : List Piece → List Piece
  | [] => []
  | p :: rest => p.shorten :: shortenPieces rest

end

/-! ## Removing spaces -/

namespace TypeName

/-- Whether no space is customary behind this character. -/
def gluesBehind (c : Char) : Bool :=
  c = '<' || c = '&' || c = '(' || c = '[' || c = ':' || c = '\''

/-- Whether no space is customary in front of this character. -/
def gluesInFront (c : Char) : Bool :=
  c = '<' || c = '>' || c = ',' || c = ';' || c = ')' || c = ']' || c = ':'

/-- Whether a space stays between its neighbours.  A comma and a semicolon keep the space behind
them, and so does a closing angle bracket in front of a word. -/
def keepsSpace (before after : Option Char) : Bool :=
  before.any (fun c => c = ',' || c = ';')
    || (before == some '>' && after.any isAlphanumeric)
    || !(before.any gluesBehind || after.any gluesInFront)

/-- Removes spaces from a text whose last kept character is `before`. -/
def compactFrom (before : Option Char) : List Char → List Char
  | [] => []
  | c :: rest =>
      if c = ' ' then
        if keepsSpace before rest.head? then ' ' :: compactFrom (some ' ') rest
        else compactFrom before rest
      else c :: compactFrom (some c) rest

/-- Removes the spaces between tokens that are not customary. -/
def compactChars (s : List Char) : List Char := compactFrom none s

/-- Removes the spaces between tokens that are not customary. -/
def compact (s : String) : String := String.ofList (compactChars s.toList)

/-- The compact text of a token list. -/
def ofLexemes (ts : List Lexeme) : String := String.ofList (compactChars (Token.textAll ts))

end TypeName

/-- The name of a type: its compact text with prelude paths shortened. -/
def Ty.displayName (t : Ty) : String := TypeName.ofLexemes t.shorten.lexemes

/-- The names of a path joined by two colons, a prelude path shortened and arguments dropped. -/
def Path.displayName (p : Path) : String :=
  "::".intercalate (p.shorten.segments.map Segment.name)

end FieldCopy.Source
