import FieldCopy.Text.Printable

/-!
# Quoted text

A quoted text shows on one line what a message is about.  The double quote, the backslash, the tab,
the two characters of a line end and the null character are written with a backslash and one more
character.  Every other character that could not be seen, or would merge with the one in front of
it, is written by its code point.
-/

namespace FieldCopy.Quoted

/-- The lower case hexadecimal digits of a number, without leading zeros. -/
def hexDigits (n : Nat) : List Char := Nat.toDigits 16 n

/-- How one character is written between quotes. -/
def encodeChar (c : Char) : List Char :=
  if c = '"' then ['\\', '"']
  else if c = '\\' then ['\\', '\\']
  else if c = '\t' then ['\\', 't']
  else if c = '\r' then ['\\', 'r']
  else if c = '\n' then ['\\', 'n']
  else if c = '\x00' then ['\\', '0']
  else if extendsGrapheme c || !isPrintable c then
    ['\\', 'u', '\x7b'] ++ hexDigits c.toNat ++ ['\x7d']
  else [c]

/-- The characters between the quotes. -/
def encode (s : List Char) : List Char := s.flatMap encodeChar

/-- A text in double quotes. -/
def quote (s : String) : String := String.ofList ('"' :: encode s.toList ++ ['"'])

end FieldCopy.Quoted
