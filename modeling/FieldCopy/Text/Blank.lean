/-!
# Blank space

The blank characters are those with the Unicode property `White_Space`.  The functions below cut
blanks off a text, cut a text into words and cut it into lines; they work on lists of characters,
and their companions on `String` are defined from them.
-/

namespace FieldCopy

/-- The characters with the Unicode property `White_Space`. -/
def isBlank (c : Char) : Bool :=
  let n := c.toNat
  (9 ≤ n && n ≤ 13) || n == 0x20 || n == 0x85 || n == 0xa0 || n == 0x1680
    || (0x2000 ≤ n && n ≤ 0x200a) || n == 0x2028 || n == 0x2029 || n == 0x202f
    || n == 0x205f || n == 0x3000

namespace Text

/-- The text without its leading blanks. -/
def trimStart (s : List Char) : List Char := s.dropWhile isBlank

/-- The text without its trailing blanks. -/
def trimEnd (s : List Char) : List Char := (s.reverse.dropWhile isBlank).reverse

/-- The first word of a text and what follows it, if the text has one at its start. -/
def word (s : List Char) : List Char × List Char := s.span (! isBlank ·)

/-- The maximal runs of non-blank characters, in order.  `current` is the reversed run that is
being read. -/
def wordsFrom (current : List Char) : List Char → List (List Char)
  | [] => if current.isEmpty then [] else [current.reverse]
  | c :: rest =>
      if isBlank c then
        if current.isEmpty then wordsFrom [] rest else current.reverse :: wordsFrom [] rest
      else wordsFrom (c :: current) rest

/-- The words of a text: its maximal runs of non-blank characters, in order. -/
def words (s : List Char) : List (List Char) := wordsFrom [] s

/-- The line read so far, in reverse, without the carriage return that a line feed completes. -/
def closeLine : List Char → List Char
  | '\r' :: rest => rest.reverse
  | line => line.reverse

/-- The lines of a text, `current` being the reversed line that is being read. -/
def linesFrom (current : List Char) : List Char → List (List Char)
  | [] => if current.isEmpty then [] else [current.reverse]
  | c :: rest =>
      if c = '\n' then closeLine current :: linesFrom [] rest else linesFrom (c :: current) rest

/-- The lines of a text.  A line ends at a line feed or a carriage return with a line feed; the
text after the last line end is a line only when it is not empty. -/
def lines (s : List Char) : List (List Char) := linesFrom [] s

/-- Removes `affix` from the front of a text as often as it stands there, at most `fuel` times. -/
def dropRepeatedFuel (affix : List Char) : Nat → List Char → List Char
  | 0, s => s
  | n + 1, s =>
      match affix.isPrefixOf? s with
      | some rest => dropRepeatedFuel affix n rest
      | none => s

/-- Removes `affix` from the front of a text as often as it stands there. -/
def dropRepeated (affix s : List Char) : List Char :=
  if affix.isEmpty then s else dropRepeatedFuel affix s.length s

/-- Removes `affix` from the end of a text as often as it stands there. -/
def dropRepeatedEnd (affix s : List Char) : List Char :=
  (dropRepeated affix.reverse s.reverse).reverse

/-- The text in front of the first occurrence of `separator`, and the text after it. -/
def cutAt (separator : List Char) : List Char → Option (List Char × List Char)
  | [] => none
  | c :: rest =>
      match separator.isPrefixOf? (c :: rest) with
      | some after => some ([], after)
      | none => (cutAt separator rest).map fun (before, after) => (c :: before, after)

/-- The pieces of a text between the occurrences of `separator`, at most `fuel` cuts being made. -/
def splitFuel (separator : List Char) : Nat → List Char → List (List Char)
  | 0, s => [s]
  | n + 1, s =>
      match cutAt separator s with
      | some (before, after) => before :: splitFuel separator n after
      | none => [s]

/-- The pieces of a text between the occurrences of a separator that is not empty. -/
def split (separator s : List Char) : List (List Char) := splitFuel separator s.length s

end Text

end FieldCopy
