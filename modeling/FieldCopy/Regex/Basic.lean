import FieldCopy.Text.Property

/-!
# Regular expressions

The expressions themselves, without their notation.  An expression takes a stretch of a text; a
*look* takes nothing but asks what stands on either side.

**Size.**  Repetitions multiply, so a short notation can stand for a huge expression.
`Regex.isSmall` bounds the memory that its matching would need.
-/

namespace FieldCopy

/-- A condition on a position between two characters. -/
inductive Look where
  | textStart
  | textEnd
  /-- At the beginning of a line, a carriage return ending lines too where `crlf` says so. -/
  | lineStart (crlf : Bool)
  | lineEnd (crlf : Bool)
  /-- Between a word and what is none. -/
  | boundary (unicode : Bool)
  | noBoundary (unicode : Bool)
  | wordStart (unicode : Bool)
  | wordEnd (unicode : Bool)
  /-- Not behind a character of a word. -/
  | wordStartHalf (unicode : Bool)
  /-- Not in front of a character of a word. -/
  | wordEndHalf (unicode : Bool)
  deriving DecidableEq

/-- A regular expression. -/
inductive Regex where
  | empty
  /-- One character of a set. -/
  | one (set : CharSet)
  | look (condition : Look)
  | seq (first second : Regex)
  | alt (left right : Regex)
  /-- The expression at least `least` times, and at most `most` times if there is a limit. -/
  | repeated (body : Regex) (least : Nat) (most : Option Nat)

namespace Look

/-- Whether the character belongs to a word. -/
def inWord (unicode : Bool) (c : Option Char) : Bool :=
  c.any (if unicode then Property.wordPart else Property.asciiWordPart).contains

/-- Whether the condition holds between these two characters, one lacking at an end of the
text. -/
def holds (before after : Option Char) : Look → Bool
  | textStart => before.isNone
  | textEnd => after.isNone
  | lineStart false => before.isNone || before == some '\n'
  | lineStart true =>
      before.isNone || before == some '\n' || (before == some '\r' && after != some '\n')
  | lineEnd false => after.isNone || after == some '\n'
  | lineEnd true =>
      after.isNone || after == some '\r' || (after == some '\n' && before != some '\r')
  | boundary u => inWord u before != inWord u after
  | noBoundary u => inWord u before == inWord u after
  | wordStart u => !inWord u before && inWord u after
  | wordEnd u => inWord u before && !inWord u after
  | wordStartHalf u => !inWord u before
  | wordEndHalf u => !inWord u after

end Look

namespace Regex

/-- Whether the expression takes nothing of any text. -/
def takesNothing : Regex → Bool
  | empty | look _ => true
  | one _ => false
  | seq a b | alt a b => a.takesNothing && b.takesNothing
  | repeated a _ most => a.takesNothing || most == some 0

/-- The expression repeated.  Repeating what takes nothing is the same as taking it once. -/
def times (a : Regex) (least : Nat) (most : Option Nat) : Regex :=
  if a.takesNothing then
    .repeated a (min least 1) (some (min (most.getD 1) 1))
  else .repeated a least most

/-- Expressions one after the other. -/
def sequence : List Regex → Regex
  | [] => .empty
  | [a] => a
  | a :: rest => .seq a (sequence rest)

/-- One of several expressions. -/
def anyOf : List Regex → Regex
  | [] => .one .empty
  | [a] => a
  | a :: rest => .alt a (anyOf rest)

/-! ## Size -/

/-- The memory for one state of a matching machine, in bytes. -/
def stateSize : Nat := 32

/-- The memory for one range of characters beyond ASCII, whose encodings have several bytes. -/
def rangeSize : Nat := 62

/-- The memory that an expression's machine needs, in bytes. -/
def size : Regex → Nat
  | empty => 0
  | one s => stateSize + rangeSize * (s.merged.ranges.filter fun r => r.2 ≥ 128).length
  | look _ => stateSize
  | seq a b => a.size + b.size
  | alt a b => stateSize + a.size + b.size
  | repeated a least most => (stateSize + a.size) * max least (most.getD (least + 1))

/-- The largest machine that is built, in bytes. -/
def sizeLimit : Nat := 10 * 0x100000

/-- Whether the machine of an expression stays within the limit. -/
def isSmall (r : Regex) : Bool := r.size ≤ sizeLimit

end Regex

end FieldCopy
