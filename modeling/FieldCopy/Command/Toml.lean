import FieldCopy.Text.Blank

/-!
# Lists of settings in TOML

A list of settings is a TOML document whose keys stand alone and whose values are texts and truth
values.  A document with tables, dotted keys or other values is no list of settings.

**Texts** stand between single quotes as they are, and between double quotes with escapes.  Between
three quotes they may fill several lines; a line end right behind the opening quotes does not
count, and every line end in the text is a line feed.
-/

namespace FieldCopy.Toml

/-- The value of a setting. -/
inductive Value where
  | text (s : String)
  | flag (b : Bool)
  deriving DecidableEq

/-- Whether a character may stand in a comment or in a text on one line. -/
def isPlain (c : Char) : Bool := c = '\t' || (0x20 ≤ c.toNat && c.toNat != 0x7f)

/-- Whether a character separates what stands on one line. -/
def isSpace (c : Char) : Bool := c = ' ' || c = '\t'

/-- The rest behind spaces. -/
def skipSpaces (s : List Char) : List Char := s.dropWhile isSpace

/-- The rest behind a line end, or nothing at the end of the document. -/
def lineEnd? : List Char → Option (List Char)
  | [] => some []
  | '\n' :: rest | '\r' :: '\n' :: rest => some rest
  | _ => none

/-- The rest behind a line on which nothing but a comment is left. -/
def endLine? (s : List Char) : Option (List Char) :=
  match skipSpaces s with
  | '#' :: rest => lineEnd? (rest.dropWhile isPlain)
  | rest => lineEnd? rest

/-! ## Texts -/

/-- The value of a hexadecimal digit. -/
def hexDigit? (c : Char) : Option Nat :=
  if '0' ≤ c && c ≤ '9' then some (c.toNat - '0'.toNat)
  else if 'a' ≤ c && c ≤ 'f' then some (c.toNat - 'a'.toNat + 10)
  else if 'A' ≤ c && c ≤ 'F' then some (c.toNat - 'A'.toNat + 10)
  else none

/-- The number that so many hexadecimal digits are, and the rest behind them. -/
def hexCode? (value : Nat) : Nat → List Char → Option (Nat × List Char)
  | 0, s => some (value, s)
  | n + 1, c :: rest => (hexDigit? c).bind fun d => hexCode? (16 * value + d) n rest
  | _ + 1, [] => none

/-- The character whose code has so many hexadecimal digits, and the rest behind them. -/
def codedChar? (digits : Nat) (s : List Char) : Option (Char × List Char) := do
  let (n, rest) ← hexCode? 0 digits s
  if n < 0xD800 || (0xDFFF < n && n < 0x110000) then pure (Char.ofNat n, rest) else none

/-- The character that an escape stands for, given what follows its backslash, and the rest. -/
def escape? : List Char → Option (Char × List Char)
  | 'b' :: rest => some ('\x08', rest)
  | 't' :: rest => some ('\t', rest)
  | 'n' :: rest => some ('\n', rest)
  | 'f' :: rest => some ('\x0c', rest)
  | 'r' :: rest => some ('\r', rest)
  | '"' :: rest => some ('"', rest)
  | '\\' :: rest => some ('\\', rest)
  | 'u' :: rest => codedChar? 4 rest
  | 'U' :: rest => codedChar? 8 rest
  | _ => none

/-- The rest behind spaces and line ends. -/
def skipLines : List Char → List Char
  | ' ' :: rest | '\t' :: rest | '\n' :: rest | '\r' :: '\n' :: rest => skipLines rest
  | s => s

/-- The rest behind a backslash at the end of a line and the blanks that follow it. -/
def continuation? (s : List Char) : Option (List Char) :=
  match skipSpaces s with
  | '\n' :: rest | '\r' :: '\n' :: rest => some (skipLines rest)
  | _ => none

/-- A text with escapes on one line up to its closing quote, `fuel` bounding its characters. -/
def escapedFuel : Nat → List Char → Option (List Char × List Char)
  | 0, _ => none
  | n + 1, s =>
      match s with
      | '"' :: rest => some ([], rest)
      | '\\' :: rest => do
          let (c, rest) ← escape? rest
          let (text, rest) ← escapedFuel n rest
          pure (c :: text, rest)
      | c :: rest =>
          if isPlain c then (escapedFuel n rest).map fun r => (c :: r.1, r.2) else none
      | [] => none

/-- A text as it is on one line up to its closing quote. -/
def literal? : List Char → Option (List Char × List Char)
  | '\'' :: rest => some ([], rest)
  | c :: rest => if isPlain c then (literal? rest).map fun r => (c :: r.1, r.2) else none
  | [] => none

/-- A text with escapes up to its three closing quotes, `fuel` bounding its characters.  Up to two
quotes in front of those belong to the text. -/
def escapedLinesFuel : Nat → List Char → Option (List Char × List Char)
  | 0, _ => none
  | n + 1, s =>
      match s with
      | '"' :: '"' :: '"' :: '"' :: '"' :: rest => some (['"', '"'], rest)
      | '"' :: '"' :: '"' :: '"' :: rest => some (['"'], rest)
      | '"' :: '"' :: '"' :: rest => some ([], rest)
      | '\\' :: rest =>
          match continuation? rest with
          | some rest => escapedLinesFuel n rest
          | none => do
              let (c, rest) ← escape? rest
              let (text, rest) ← escapedLinesFuel n rest
              pure (c :: text, rest)
      | '\r' :: '\n' :: rest => (escapedLinesFuel n rest).map fun r => ('\n' :: r.1, r.2)
      | c :: rest =>
          if c = '\n' || isPlain c then (escapedLinesFuel n rest).map fun r => (c :: r.1, r.2)
          else none
      | [] => none

/-- A text as it is up to its three closing quotes. -/
def literalLines? : List Char → Option (List Char × List Char)
  | '\'' :: '\'' :: '\'' :: '\'' :: '\'' :: rest => some (['\'', '\''], rest)
  | '\'' :: '\'' :: '\'' :: '\'' :: rest => some (['\''], rest)
  | '\'' :: '\'' :: '\'' :: rest => some ([], rest)
  | '\r' :: '\n' :: rest => (literalLines? rest).map fun r => ('\n' :: r.1, r.2)
  | c :: rest =>
      if c = '\n' || isPlain c then (literalLines? rest).map fun r => (c :: r.1, r.2) else none
  | [] => none

/-- A text without a line end at its front. -/
def withoutFirstLineEnd : List Char → List Char
  | '\n' :: rest | '\r' :: '\n' :: rest => rest
  | s => s

/-- The text on one line at the front of a document, and the rest behind it. -/
def lineText? : List Char → Option (List Char × List Char)
  | '"' :: rest => escapedFuel (rest.length + 1) rest
  | '\'' :: rest => literal? rest
  | _ => none

/-! ## Settings -/

/-- Whether a character may stand in a key without quotes. -/
def isKeyChar (c : Char) : Bool :=
  ('a' ≤ c && c ≤ 'z') || ('A' ≤ c && c ≤ 'Z') || ('0' ≤ c && c ≤ '9') || c = '-' || c = '_'

/-- The key at the front of a document, and the rest behind it. -/
def key? (s : List Char) : Option (List Char × List Char) :=
  match s with
  | '"' :: _ | '\'' :: _ => lineText? s
  | _ =>
      let (k, rest) := s.span isKeyChar
      if k.isEmpty then none else some (k, rest)

/-- The value at the front of a document, and the rest behind it. -/
def value? (s : List Char) : Option (Value × List Char) :=
  let asText (r : List Char × List Char) : Value × List Char := (.text (String.ofList r.1), r.2)
  match s with
  | '"' :: '"' :: '"' :: rest =>
      let body := withoutFirstLineEnd rest
      (escapedLinesFuel (body.length + 1) body).map asText
  | '\'' :: '\'' :: '\'' :: rest => (literalLines? (withoutFirstLineEnd rest)).map asText
  | '"' :: _ | '\'' :: _ => (lineText? s).map asText
  | 't' :: 'r' :: 'u' :: 'e' :: rest => some (.flag true, rest)
  | 'f' :: 'a' :: 'l' :: 's' :: 'e' :: rest => some (.flag false, rest)
  | _ => none

/-- The setting at the front of a document, and the rest behind its line. -/
def setting? (s : List Char) : Option ((String × Value) × List Char) := do
  let (k, rest) ← key? s
  match skipSpaces rest with
  | '=' :: rest =>
      let (v, rest) ← value? (skipSpaces rest)
      pure ((String.ofList k, v), ← endLine? rest)
  | _ => none

/-- The settings of a document with at most `fuel` lines. -/
def settingsFuel : Nat → List Char → Option (List (String × Value))
  | 0, s => if s.isEmpty then some [] else none
  | n + 1, s =>
      if s.isEmpty then some []
      else
        match endLine? s with
        | some rest => settingsFuel n rest
        | none => do
            let (first, rest) ← setting? (skipSpaces s)
            pure (first :: (← settingsFuel n rest))

/-- The settings that a document lists, in order.  A byte order mark may stand in front of it. -/
def settings? (document : String) : Option (List (String × Value)) :=
  let s := match document.toList with
    | '\ufeff' :: rest => rest
    | s => s
  settingsFuel (s.length + 1) s

end FieldCopy.Toml
