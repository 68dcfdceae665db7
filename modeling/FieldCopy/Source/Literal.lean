import FieldCopy.Text.Identifier
import FieldCopy.Text.CharSet
import FieldCopy.Text.Quoted

/-!
# Literals

Where a literal begins and ends in a source text, and what a string literal means.

The functions named for a form of literal take the text from the literal's first character on and
return the rest of the text behind it, or nothing if no literal of that form stands there.

**Quoted literals** come in three kinds: text, bytes and zero-terminated text.  They differ in the
escapes they allow and in the characters they may hold (`Quotation`).  A carriage return is only
allowed in front of a line feed.

**Meaning.**  `Literal.stringValue?` reads the text behind a string literal, escapes resolved.
-/

namespace FieldCopy.Source.Literal

/-- What kind of data a quoted literal holds. -/
inductive Quotation where
  | text
  | bytes
  | terminated
  deriving DecidableEq, Repr

def isHexDigit (c : Char) : Bool :=
  c.isDigit || ('a' ≤ c && c ≤ 'f') || ('A' ≤ c && c ≤ 'F')

/-- The rest behind an identifier's characters. -/
def afterIdentifier (s : List Char) : List Char :=
  match s with
  | c :: rest => if isIdentifierStart c then rest.dropWhile isIdentifierPart else s
  | [] => []

/-- A code point is a character unless it is too large or a surrogate. -/
def isCharacterCode (n : Nat) : Bool := n < 0xD800 || (0xDFFF < n && n < 0x110000)

/-- The digits of a `\u` escape behind its opening brace: at most six, with underscores allowed
after the first.  The result is the code and the rest behind the closing brace. -/
def unicodeEscape (value count : Nat) : List Char → Option (Nat × List Char)
  | [] => none
  | c :: rest =>
      if isHexDigit c then
        if count = 6 then none
        else unicodeEscape (16 * value + CharSet.hexValue c) (count + 1) rest
      else if c = '_' && count > 0 then unicodeEscape value count rest
      else if c = '\x7d' && count > 0 then
        if isCharacterCode value then some (value, rest) else none
      else none

/-- The blanks behind a backslash at the end of a line.  Something must follow them. -/
def continuation (afterReturn : Bool) : List Char → Option (List Char)
  | [] => none
  | c :: rest =>
      if afterReturn then (if c = '\n' then continuation false rest else none)
      else if c = '\r' then continuation true rest
      else if c = ' ' || c = '\t' || c = '\n' then continuation false rest
      else some (c :: rest)

/-- The rest behind an escape, given what follows the backslash. -/
def escape (kind : Quotation) : List Char → Option (List Char)
  | 'x' :: a :: b :: rest =>
      let allowed := match kind with
        | .text => ('0' ≤ a && a ≤ '7') && isHexDigit b
        | .bytes => isHexDigit a && isHexDigit b
        | .terminated => isHexDigit a && isHexDigit b && !(a = '0' && b = '0')
      if allowed then some rest else none
  | 'u' :: '\x7b' :: rest =>
      match kind, unicodeEscape 0 0 rest with
      | .text, some (_, after) => some after
      | .terminated, some (n, after) => if n = 0 then none else some after
      | _, _ => none
  | '0' :: rest => if kind = .terminated then none else some rest
  | '\n' :: rest => continuation false rest
  | '\r' :: rest => continuation true rest
  | c :: rest =>
      if c = 'n' || c = 'r' || c = 't' || c = '\\' || c = '\'' || c = '"' then some rest else none
  | [] => none

/-- Whether a quoted literal may hold this character as it stands. -/
def mayHold (kind : Quotation) (c : Char) : Bool :=
  match kind with
  | .text => true
  | .bytes => c.toNat < 128
  | .terminated => c != '\x00'

/-- The rest behind the closing quote and a suffix, `fuel` bounding the characters read. -/
def quotedFuel (kind : Quotation) : Nat → List Char → Option (List Char)
  | 0, _ => none
  | n + 1, s =>
      match s with
      | [] => none
      | '"' :: rest => some (afterIdentifier rest)
      | '\r' :: '\n' :: rest => quotedFuel kind n rest
      | '\r' :: _ => none
      | '\\' :: rest => (escape kind rest).bind (quotedFuel kind n)
      | c :: rest => if mayHold kind c then quotedFuel kind n rest else none

/-- The rest behind a quoted literal, given the text behind its opening quote. -/
def quoted (kind : Quotation) (s : List Char) : Option (List Char) :=
  quotedFuel kind (s.length + 1) s

/-- The rest behind the closing quote of a raw literal with `hashes` number signs. -/
def rawBody (kind : Quotation) (hashes : Nat) : List Char → Option (List Char)
  | [] => none
  | '\r' :: '\n' :: rest => rawBody kind hashes rest
  | '\r' :: _ => none
  | c :: rest =>
      if c = '"' && rest.take hashes == List.replicate hashes '#' then
        some (afterIdentifier (rest.drop hashes))
      else if mayHold kind c then rawBody kind hashes rest
      else none

/-- The rest behind a raw literal, given the text behind its leading letters. -/
def raw (kind : Quotation) (s : List Char) : Option (List Char) :=
  let hashes := s.takeWhile (· = '#')
  match s.drop hashes.length with
  | '"' :: rest => if hashes.length ≤ 255 then rawBody kind hashes.length rest else none
  | _ => none

/-- The rest behind a character or byte literal, given the text behind its opening quote. -/
def character (kind : Quotation) (s : List Char) : Option (List Char) := do
  let rest ← match s with
    | '\\' :: '\n' :: _ | '\\' :: '\r' :: _ => none
    | '\\' :: rest => escape kind rest
    | c :: rest => if mayHold kind c then some rest else none
    | [] => none
  match rest with
  | '\'' :: after => some (afterIdentifier after)
  | _ => none

/-- What the digits of a decimal number are followed by. -/
structure Mantissa where
  hasDot : Bool
  hasExponent : Bool
  rest : List Char

/-- The digits, underscores and the point of a decimal number, and the letter of its exponent.
A point that begins a range or a member access belongs to no number. -/
def mantissa (hasDot : Bool) : List Char → Option Mantissa
  | [] => some ⟨hasDot, false, []⟩
  | c :: rest =>
      if c.isDigit || c = '_' then mantissa hasDot rest
      else if c = '.' then
        if hasDot then some ⟨hasDot, false, c :: rest⟩
        else match rest with
          | next :: _ =>
              if next = '.' || isIdentifierStart next then none else mantissa true rest
          | [] => some ⟨true, false, []⟩
      else if c = 'e' || c = 'E' then some ⟨hasDot, true, rest⟩
      else some ⟨hasDot, false, c :: rest⟩

/-- The rest behind the sign and the digits of an exponent, if it has a digit and one sign. -/
def exponent (hasSign hasDigit : Bool) : List Char → Option (List Char)
  | [] => if hasDigit then some [] else none
  | c :: rest =>
      if (c = '+' || c = '-') && !hasDigit then
        if hasSign then none else exponent true hasDigit rest
      else if c.isDigit then exponent hasSign true rest
      else if c = '_' then exponent hasSign hasDigit rest
      else if hasDigit then some (c :: rest)
      else none

/-- The rest behind a number and its suffix; the next character must not go on with a word. -/
def numberEnd (rest : List Char) : Option (List Char) :=
  match afterIdentifier rest with
  | c :: after => if isIdentifierPart c then none else some (c :: after)
  | [] => some []

/-- The rest behind a number with a point or an exponent, given what its digits are followed by.
An exponent without digits is read as a suffix, which only a number with a point may have. -/
def decimalEnd (s : List Char) (m : Mantissa) : Option (List Char) :=
  if m.hasExponent then
    match exponent false false m.rest with
    | some after => numberEnd after
    | none => if m.hasDot then numberEnd (s.drop (s.length - m.rest.length - 1)) else none
  else if m.hasDot then numberEnd m.rest
  else none

/-- The rest behind a number with a point or an exponent. -/
def decimal (s : List Char) : Option (List Char) :=
  match s with
  | c :: rest => if c.isDigit then (mantissa false rest).bind (decimalEnd s) else none
  | [] => none

/-- The digits of a whole number in a base.  Digits beyond the base end the number, but an
Arabic digit beyond it makes the number malformed. -/
def wholeDigits (base : Nat) (isEmpty : Bool) : List Char → Option (List Char)
  | [] => if isEmpty then none else some []
  | c :: rest =>
      if c.isDigit then
        if CharSet.hexValue c < base then wholeDigits base false rest else none
      else if isHexDigit c && CharSet.hexValue c < base then wholeDigits base false rest
      else if c = '_' then
        if isEmpty && base = 10 then none else wholeDigits base isEmpty rest
      else if isEmpty then none
      else some (c :: rest)

/-- The rest behind a whole number. -/
def whole (s : List Char) : Option (List Char) := do
  let digits ← match s with
    | '0' :: 'x' :: rest => wholeDigits 16 true rest
    | '0' :: 'o' :: rest => wholeDigits 8 true rest
    | '0' :: 'b' :: rest => wholeDigits 2 true rest
    | _ => wholeDigits 10 true s
  numberEnd digits

/-- The rest behind a quoted literal of any kind. -/
def anyQuoted : List Char → Option (List Char)
  | '"' :: rest => quoted .text rest
  | 'r' :: rest => raw .text rest
  | 'b' :: '"' :: rest => quoted .bytes rest
  | 'b' :: 'r' :: rest => raw .bytes rest
  | 'b' :: '\'' :: rest => character .bytes rest
  | 'c' :: '"' :: rest => quoted .terminated rest
  | 'c' :: 'r' :: rest => raw .terminated rest
  | '\'' :: rest => character .text rest
  | _ => none

/-- The rest behind the literal at the front of a text. -/
def after (s : List Char) : Option (List Char) :=
  anyQuoted s <|> decimal s <|> whole s

/-! ## The meaning of string literals -/

/-- The blanks that a backslash at the end of a line swallows. -/
def skipContinuation : List Char → List Char
  | c :: rest =>
      if c = ' ' || c = '\t' || c = '\n' || c = '\r' then skipContinuation rest else c :: rest
  | [] => []

/-- The text between the quotes of a literal, escapes resolved, `fuel` bounding the characters
read.  Reading ends at the closing quote. -/
def valueFuel : Nat → List Char → Option (List Char)
  | 0, _ => none
  | n + 1, s =>
      match s with
      | [] => none
      | '"' :: _ => some []
      | '\r' :: '\n' :: rest => (valueFuel n rest).map ('\n' :: ·)
      | '\\' :: 'x' :: a :: b :: rest =>
          (valueFuel n rest).map
            (Char.ofNat (16 * CharSet.hexValue a + CharSet.hexValue b) :: ·)
      | '\\' :: 'u' :: '\x7b' :: rest => do
          let (code, after) ← unicodeEscape 0 0 rest
          (valueFuel n after).map (Char.ofNat code :: ·)
      | '\\' :: 'n' :: rest => (valueFuel n rest).map ('\n' :: ·)
      | '\\' :: 'r' :: rest => (valueFuel n rest).map ('\r' :: ·)
      | '\\' :: 't' :: rest => (valueFuel n rest).map ('\t' :: ·)
      | '\\' :: '0' :: rest => (valueFuel n rest).map ('\x00' :: ·)
      | '\\' :: '\n' :: rest | '\\' :: '\r' :: rest => valueFuel n (skipContinuation rest)
      | '\\' :: c :: rest => (valueFuel n rest).map (c :: ·)
      | c :: rest => (valueFuel n rest).map (c :: ·)

/-- The text of a raw literal, given the text behind its leading letter. -/
def rawValue (s : List Char) : List Char :=
  let hashes := (s.takeWhile (· = '#')).length
  let body := s.drop (hashes + 1)
  (body.reverse.dropWhile (· != '"')).reverse.dropLast

/-- The text that a string literal stands for, if the literal is one. -/
def stringValue? (literal : String) : Option String :=
  match literal.toList with
  | '"' :: rest => (valueFuel (rest.length + 1) rest).map String.ofList
  | 'r' :: rest => some (String.ofList (rawValue rest))
  | _ => none

/-- Whether a literal is a string literal. -/
def isString (literal : String) : Bool :=
  match literal.toList with
  | '"' :: _ | 'r' :: _ => true
  | _ => false

/-- How a character of a documentation text is written in the literal made of it. -/
def documentationChar (next : Option Char) (c : Char) : List Char :=
  if c = '\'' then [c]
  else if c = '\x00' then
    match next with
    | some d => if '0' ≤ d && d ≤ '7' then ['\\', 'x', '0', '0'] else ['\\', '0']
    | none => ['\\', '0']
  else Quoted.encodeChar c

/-- The characters between the quotes of a literal for a documentation text. -/
def documentationBody : List Char → List Char
  | [] => []
  | c :: rest => documentationChar rest.head? c ++ documentationBody rest

/-- The string literal that a documentation comment stands for. -/
def documentation (content : List Char) : String :=
  String.ofList ('"' :: documentationBody content ++ ['"'])

end FieldCopy.Source.Literal
