import FieldCopy.Source.Token

/-!
# Types as written

A type as it stands in a source text.  The forms that the program looks into have constructors of
their own: paths with their arguments, references, slices, arrays, tuples and parentheses.  All
other forms (function pointers, raw pointers, trait objects, …) are kept as the *pieces* they are
made of, and a piece is a token, a type, a path or a group of pieces.  Every type inside another
is thus reachable, whatever stands around it.

`Ty.lexemes` lists the tokens of a type.  In a list of generic arguments the lifetimes come first,
whatever their order in the text.
-/

namespace FieldCopy.Source

mutual

/-- A type as written. -/
inductive Ty where
  | path (path : Path)
  /-- An associated type, `<subject as Trait>::Name`.  The first `depth` segments of the path
  are the trait. -/
  | qualified (subject : Ty) (depth : Nat) (path : Path)
  | reference (lifetime : Option String) (mutable : Bool) (target : Ty)
  | slice (element : Ty)
  /-- An array with its length, the pieces of an expression. -/
  | array (element : Ty) (length : List Piece)
  | tuple (elements : List Ty) (trailing : Bool)
  | parenthesized (inner : Ty)
  | traitObject (pieces : List Piece)
  | implTrait (pieces : List Piece)
  | other (pieces : List Piece)

/-- A path: whether it starts at the root, and its segments. -/
inductive Path where
  | mk (rooted : Bool) (segments : List Segment)

/-- A name of a path with its arguments. -/
inductive Segment where
  | mk (name : String) (arguments : Arguments)

/-- The arguments of a path's segment. -/
inductive Arguments where
  | none
  /-- Arguments in angle brackets, `turbofish` telling whether two colons stand in front. -/
  | angled (turbofish : Bool) (items : List Argument) (trailing : Bool)
  /-- Parameters and result of a function trait. -/
  | called (pieces : List Piece)

/-- A generic argument. -/
inductive Argument where
  | lifetime (name : String)
  | type (type : Ty)
  /-- A constant, or a binding or bound of an associated item. -/
  | other (pieces : List Piece)

/-- A part of a phrase that is kept as written. -/
inductive Piece where
  | token (token : Lexeme)
  | type (type : Ty)
  | path (path : Path)
  | group (delimiter : Delimiter) (inner : List Piece)

end

instance : Inhabited Ty := ⟨.other []⟩

namespace Path

def rooted : Path → Bool
  | mk r _ => r

def segments : Path → List Segment
  | mk _ s => s

end Path

namespace Segment

def name : Segment → String
  | mk n _ => n

def arguments : Segment → Arguments
  | mk _ a => a

end Segment

namespace Arguments

/-- The arguments in angle brackets. -/
def items : Arguments → List Argument
  | angled _ items _ => items
  | _ => []

/-- The types among the arguments in angle brackets. -/
def types (a : Arguments) : List Ty :=
  a.items.filterMap fun
    | .type t => some t
    | _ => Option.none

def isNone : Arguments → Bool
  | none => true
  | _ => false

end Arguments

namespace Argument

def isLifetime : Argument → Bool
  | lifetime _ => true
  | _ => false

end Argument

namespace Path

/-- The last name of a path with its arguments. -/
def last? (p : Path) : Option Segment := p.segments.getLast?

/-- Whether the path is this single name, without arguments. -/
def isName (p : Path) (name : String) : Bool :=
  match p with
  | mk false [.mk n a] => n == name && a.isNone
  | _ => false

/-- Whether no name of the path has arguments. -/
def isPlain (p : Path) : Bool := p.segments.all (·.arguments.isNone)

/-- The path that consists of one name. -/
def ofName (name : String) : Path := mk false [.mk name .none]

end Path

/-! ## Elements -/

/-- The type behind all references. -/
def Ty.stripReferences : Ty → Ty
  | .reference _ _ t => t.stripReferences
  | t => t

/-- The first type among the arguments of a path's last name. -/
def Path.firstType? (p : Path) : Option Ty := p.last?.bind fun s => s.arguments.types.head?

/-- The type of the elements: of a slice or an array, and the first type argument of a path. -/
def Ty.element? (t : Ty) : Option Ty :=
  match t.stripReferences with
  | .slice e | .array e _ => some e
  | .path p | .qualified _ _ p => p.firstType?
  | _ => none

/-! ## The tokens of a type -/

/-- The two colons between the names of a path. -/
def colons : List Lexeme := Token.marks "::"

/-- The tokens of an argument list, given for each argument whether it is a lifetime, its tokens,
and whether a comma follows it.  A comma is put between two arguments that lack one. -/
def joinArguments (separated : Bool) : List (List Lexeme × Bool) → List Lexeme
  | [] => []
  | (tokens, comma) :: rest =>
      (if separated then [] else Token.marks ",") ++ tokens
        ++ (if comma then Token.marks "," else []) ++ joinArguments comma rest

/-- Marks each argument with whether a comma follows it. -/
def withCommas (trailing : Bool) : List (Bool × List Lexeme) → List (Bool × List Lexeme × Bool)
  | [] => []
  | [(l, ts)] => [(l, ts, trailing)]
  | (l, ts) :: rest => (l, ts, true) :: withCommas trailing rest

/-- Whether a comma was the last token of the lifetimes, or there are none. -/
def lifetimesSeparated : List (List Lexeme × Bool) → Bool
  | [] => true
  | l => (l.getLast?.map (·.2)).getD true

/-- The tokens of an argument list: lifetimes first, then all other arguments. -/
def argumentLexemes (items : List (Bool × List Lexeme)) (trailing : Bool) : List Lexeme :=
  let marked := withCommas trailing items
  let lifetimes := (marked.filter (·.1)).map (·.2)
  let others := (marked.filter (! ·.1)).map (·.2)
  (lifetimes.flatMap fun (ts, comma) => ts ++ if comma then Token.marks "," else [])
    ++ joinArguments (lifetimesSeparated lifetimes) others

/-- Token lists with commas between them. -/
def commaLexemes (trailing : Bool) : List (List Lexeme) → List Lexeme
  | [] => []
  | [ts] => ts ++ if trailing then Token.marks "," else []
  | ts :: rest => ts ++ Token.marks "," ++ commaLexemes trailing rest

/-- The tokens of a path with a qualifying type, given the tokens of its segments. -/
def qualifiedLexemes (subject : List Lexeme) (depth : Nat) (rooted : Bool)
    (segments : List (List Lexeme)) : List Lexeme :=
  let root := if rooted then colons else []
  let depth := min depth segments.length
  let separate : List (List Lexeme) → List Lexeme := fun l => (l.intersperse colons).flatten
  let front := segments.take depth
  let back := segments.drop depth
  Token.marks "<" ++ subject
    ++ (if depth = 0 then Token.marks ">" ++ root
        else [.word "as" ()] ++ root ++ separate front ++ Token.marks ">"
          ++ (if back.isEmpty then [] else colons))
    ++ separate back

mutual

/-- The tokens of a type. -/
def Ty.lexemes : Ty → List Lexeme
  | .path p => p.lexemes
  | .qualified s d (.mk r segments) => qualifiedLexemes s.lexemes d r (segmentLexemes segments)
  | .reference l m t =>
      Token.marks "&" ++ (match l with | some n => Token.lifetime n | none => [])
        ++ (if m then [.word "mut" ()] else []) ++ t.lexemes
  | .slice e => [.group .bracket e.lexemes ()]
  | .array e n => [.group .bracket (e.lexemes ++ Token.marks ";" ++ pieceLexemes n) ()]
  | .tuple es trailing => [.group .parenthesis (commaLexemes trailing (typeLexemes es)) ()]
  | .parenthesized t => [.group .parenthesis t.lexemes ()]
  | .traitObject ps | .implTrait ps | .other ps => pieceLexemes ps

/-- The tokens of a path. -/
def Path.lexemes : Path → List Lexeme
  | .mk r segments =>
      (if r then colons else []) ++ ((segmentLexemes segments).intersperse colons).flatten

/-- The tokens of a name with its arguments. -/
def Segment.lexemes : Segment → List Lexeme
  | .mk n a => .word n () :: a.lexemes

/-- The tokens of a name's arguments. -/
def Arguments.lexemes : Arguments → List Lexeme
  | .none => []
  | .angled turbofish items trailing =>
      (if turbofish then colons else []) ++ Token.marks "<"
        ++ argumentLexemes (itemLexemes items) trailing ++ Token.marks ">"
  | .called ps => pieceLexemes ps

/-- The tokens of a generic argument. -/
def Argument.lexemes : Argument → List Lexeme
  | .lifetime n => Token.lifetime n
  | .type t => t.lexemes
  | .other ps => pieceLexemes ps

/-- The tokens of a piece. -/
def Piece.lexemes : Piece → List Lexeme
  | .token t => [t]
  | .type t => t.lexemes
  | .path p => p.lexemes
  | .group d ps => [.group d (pieceLexemes ps) ()]

/-- The tokens of each type of a list. -/
def typeLexemes : List Ty → List (List Lexeme)
  | [] => []
  | t :: rest => t.lexemes :: typeLexemes rest

/-- The tokens of each name of a path. -/
def segmentLexemes : List Segment → List (List Lexeme)
  | [] => []
  | s :: rest => s.lexemes :: segmentLexemes rest

/-- The tokens of each generic argument, marked with whether it is a lifetime. -/
def itemLexemes : List Argument → List (Bool × List Lexeme)
  | [] => []
  | a :: rest => (a.isLifetime, a.lexemes) :: itemLexemes rest

/-- The tokens of a list of pieces. -/
def pieceLexemes : List Piece → List Lexeme
  | [] => []
  | p :: rest => p.lexemes ++ pieceLexemes rest

end

end FieldCopy.Source
