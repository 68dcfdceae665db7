import FieldCopy.Source.Parser
import FieldCopy.Source.Item

/-!
# The recursive parts of the grammar

Types, expressions, patterns, statements and items contain each other.  `Grammar` collects a
parser for each of them; the modules that follow define the parsers of one level from a `Grammar`
for what is nested in it.  The knot is tied once, by recursion on the depth of nesting.
-/

namespace FieldCopy.Source

/-- What must be known of an expression to tell where it ends. -/
inductive Shape where
  /-- A range without its upper end. -/
  | openRange
  /-- A range with its upper end. -/
  | closedRange
  /-- A comparison, which cannot be compared again. -/
  | comparison
  /-- An expression that ends with its block, such as a loop. -/
  | block
  /-- A macro call, and whether its arguments are in braces. -/
  | call (braced : Bool)
  | plain
  deriving DecidableEq

namespace Shape

def isRange : Shape → Bool
  | openRange | closedRange => true
  | _ => false

end Shape

/-- An expression, kept as its pieces. -/
structure Phrase where
  pieces : Pieces
  shape : Shape

/-- A pattern, kept as its pieces. -/
structure Pattern where
  pieces : Pieces
  /-- The name that the pattern binds, if it does nothing but that. -/
  name : Option String
  /-- Whether the pattern is the rest of a list. -/
  isRest : Bool
  /-- Whether the pattern is a range without one of its ends. -/
  isHalfRange : Bool

/-- How a bound may be written: whether it may capture names and whether it may be constant. -/
structure BoundForm where
  captures : Bool
  constant : Bool

/-- A bound, and whether it is a trait. -/
structure Bound where
  pieces : Pieces
  isTrait : Bool

/-- The parsers of the parts that contain each other. -/
structure Grammar where
  /-- A type; `plus` tells whether it may be a sum of bounds. -/
  type : (plus : Bool) → Parser Ty
  /-- One of the bounds of a type. -/
  bound : BoundForm → Parser Bound
  /-- An expression; `structs` tells whether braces may follow a path in it. -/
  expression : (structs : Bool) → Parser Phrase
  /-- An operand with the operators in front of it. -/
  unary : (structs : Bool) → Parser Phrase
  /-- The binary operators that follow an operand and bind as tightly as a bound. -/
  climb : (structs : Bool) → Phrase → Nat → Parser Phrase
  /-- The operators that bind an operand more tightly than the operator in front of it. -/
  operandTail : (structs : Bool) → Nat → Phrase → Parser Phrase
  /-- The calls, member accesses and indices that follow an operand. -/
  trailers : Phrase → Parser Phrase
  /-- A pattern without alternatives. -/
  pattern : Parser Pattern
  /-- The statements of a block. -/
  statements : Parser Pieces
  /-- An item. -/
  item : Parser Item
  /-- What an import leads to, and whether a path in it may start at the root. -/
  useTree : (roots : Bool) → Parser (Option UseTree)

namespace Grammar

/-- The grammar that accepts nothing. -/
def nothing : Grammar where
  type _ := failure
  bound _ := failure
  expression _ := failure
  unary _ := failure
  climb _ _ _ := failure
  operandTail _ _ _ := failure
  trailers _ := failure
  pattern := failure
  statements := failure
  item := failure
  useTree _ := failure

end Grammar

end FieldCopy.Source
