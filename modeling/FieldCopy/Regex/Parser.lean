import FieldCopy.Regex.Basic
import FieldCopy.Text.Alphanumeric
import FieldCopy.Text.Blank
import FieldCopy.Text.Folding

/-!
# The notation of regular expressions

`Regex.parse` reads an expression from its notation; a text that is no expression is refused.

**Flags** such as `(?i)` hold up to the end of the group they stand in.  They are part of the
reader's state, so each phrase is read under the flags that hold where it stands.

**Sets** in brackets are closed under the case rule before they are complemented, and the operands
of a set operation before it is applied.
-/

namespace FieldCopy

namespace Regex

/-- What the flags of an expression say. -/
structure Flags where
  ignoreCase : Bool
  multiLine : Bool
  dotTakesAll : Bool
  unicode : Bool
  crlf : Bool
  /-- Whether blanks and comments in the notation mean nothing. -/
  spaced : Bool

/-- The flags at the beginning of an expression. -/
def Flags.initial (ignoreCase : Bool) : Flags :=
  { ignoreCase, multiLine := false, dotTakesAll := false, unicode := true, crlf := false,
    spaced := false }

/-- What is left of the notation, the flags that hold, and the names of the groups so far. -/
structure Reading where
  rest : List Char
  flags : Flags
  names : List (List Char)

/-- A reader of a part of the notation. -/
abbrev Reader := StateT Reading Option

/-- A part of an expression. -/
structure Part where
  regex : Regex
  /-- How deeply its groups, sets and repetitions are nested. -/
  nesting : Nat
  /-- Whether it can be repeated; a setting of flags cannot. -/
  repeatable : Bool

namespace Part

/-- A part without parts of its own. -/
def leaf (r : Regex) : Part := ⟨r, 0, true⟩

/-- The deepest nesting among parts. -/
def deepest (ps : List Part) : Nat := ps.foldl (fun n p => max n p.nesting) 0

/-- Parts one after the other. -/
def sequence : List Part → Part
  | [] => ⟨.empty, 0, false⟩
  | [p] => p
  | ps => ⟨.sequence (ps.map regex), deepest ps + 1, true⟩

/-- One of several parts. -/
def anyOf : List Part → Part
  | [p] => p
  | ps => ⟨.anyOf (ps.map regex), deepest ps + 1, true⟩

end Part

namespace Reader

/-! ## Characters -/

/-- The next character, if one is left. -/
def peek? : Reader (Option Char) := do pure (← get).rest.head?

/-- The character behind the next one. -/
def peekSecond? : Reader (Option Char) := do pure (← get).rest.tail.head?

/-- Drops the next character. -/
def bump : Reader Unit := modify fun s => { s with rest := s.rest.tail }

/-- The rest of a notation behind blanks and comments, `fuel` bounding the characters. -/
def afterSpaceFuel : Nat → List Char → List Char
  | 0, s => s
  | n + 1, s =>
      match s with
      | c :: rest =>
          if isBlank c then afterSpaceFuel n rest
          else if c = '#' then afterSpaceFuel n (rest.dropWhile (· != '\n'))
          else s
      | [] => []

/-- The rest of a notation behind blanks and comments. -/
def afterSpace (s : List Char) : List Char := afterSpaceFuel (s.length + 1) s

/-- Drops blanks and comments where they mean nothing. -/
def bumpSpace : Reader Unit := modify fun s =>
  if s.flags.spaced then { s with rest := afterSpace s.rest } else s

/-- Drops the next character and what means nothing behind it. -/
def bumpOn : Reader Unit := do
  bump
  bumpSpace

/-- The next character; fails at the end. -/
def peek : Reader Char := do
  match ← peek? with
  | some c => pure c
  | none => failure

/-- Drops this text if it stands next, and tells whether it did. -/
def bumpIf (text : String) : Reader Bool := do
  let s ← get
  if text.toList.isPrefixOf s.rest then
    set { s with rest := s.rest.drop text.length }
    pure true
  else pure false

/-! ## Sets of characters -/

/-- A set under the case rule that holds. -/
def folded (s : CharSet) : Reader CharSet := do
  let f := (← get).flags
  pure (if !f.ignoreCase then s else if f.unicode then s.ignoringCase else s.ignoringAsciiCase)

/-- A set or its complement.  Without Unicode a set cannot have members beyond ASCII. -/
def signed (negated : Bool) (s : CharSet) : Reader CharSet := do
  let result := if negated then s.complement else s
  if !(← get).flags.unicode && result.ranges.any (fun r => r.1 ≤ r.2 && r.2 ≥ 128) then failure
  else pure result

/-- The expression of a single character. -/
def literal (c : Char) : Reader Regex := do
  let s ← get
  if !s.flags.unicode && c.toNat ≥ 128 then failure
  else pure (.one (← folded (.single c)))

/-- The blanks of ASCII. -/
def asciiBlank : CharSet := .ofText "9-d 20"

/-- The sets for digits, blanks and the characters of words, by their letter. -/
def letterClass (unicode : Bool) (c : Char) : CharSet :=
  match c.toLower, unicode with
  | 'd', true => Property.digit
  | 'd', false => .ofText "30-39"
  | 's', true => Property.blank
  | 's', false => asciiBlank
  | _, true => Property.wordPart
  | _, false => Property.asciiWordPart

/-- The sets that are named between brackets and colons. -/
def namedClasses : List (String × CharSet) :=
  [("alnum", .ofText "30-39 41-5a 61-7a"), ("alpha", .ofText "41-5a 61-7a"),
    ("ascii", .ofText "0-7f"), ("blank", .ofText "9 20"), ("cntrl", .ofText "0-1f 7f"),
    ("digit", .ofText "30-39"), ("graph", .ofText "21-7e"), ("lower", .ofText "61-7a"),
    ("print", .ofText "20-7e"), ("punct", .ofText "21-2f 3a-40 5b-60 7b-7e"),
    ("space", .ofText "9-d 20"), ("upper", .ofText "41-5a"),
    ("word", .ofText "30-39 41-5a 5f 61-7a"), ("xdigit", .ofText "30-39 41-46 61-66")]

/-- The text up to this character, and the rest behind the character if it is there. -/
def upTo (c : Char) (s : List Char) : Option (List Char × List Char) :=
  match s.dropWhile (· != c) with
  | _ :: rest => some (s.takeWhile (· != c), rest)
  | [] => none

/-- The set named between brackets and colons at the front of a notation, and the rest behind. -/
def namedClass? (s : List Char) : Option (Bool × CharSet × List Char) := do
  let inner ← match s with
    | '[' :: ':' :: rest => some rest
    | _ => none
  let (negated, inner) := match inner with
    | '^' :: rest => (true, rest)
    | _ => (false, inner)
  let (name, rest) ← upTo ':' inner
  match rest with
  | ']' :: after => do
      let found ← namedClasses.lookup (String.ofList name)
      some (negated, found, after)
  | _ => none

/-- The set that a property in braces names, and whether its complement is meant. -/
def property? (name : List Char) : Option (Bool × CharSet) :=
  let value (front back : List Char) := Property.valued? (String.ofList front) (String.ofList back)
  match Text.cutAt ['!', '='] name with
  | some (front, back) => (value front back).map (true, ·)
  | none =>
      match Text.cutAt [':'] name <|> Text.cutAt ['='] name with
      | some (front, back) => (value front back).map (false, ·)
      | none => (Property.named? (String.ofList name)).map (false, ·)

/-- Takes the characters up to a closing brace and the brace, leaving out what means nothing. -/
def bracedFuel : Nat → Reader (List Char)
  | 0 => failure
  | n + 1 => do
      bumpOn
      let c ← peek
      if c = '\x7d' then
        bumpOn
        pure []
      else pure (c :: (← bracedFuel n))

/-- Takes the characters between braces. -/
def braced : Reader (List Char) := do bracedFuel ((← get).rest.length + 1)

/-- Takes a property behind its letter. -/
def propertyClass (negated : Bool) : Reader CharSet := do
  if !(← get).flags.unicode then failure
  let c ← peek
  let name ←
    if c = '\x7b' then braced
    else if c = '\\' then failure
    else do
      bumpOn
      pure [c]
  match property? name with
  | some (inverse, s) => signed (negated != inverse) (← folded s)
  | none => failure

/-! ## Escapes -/

/-- What an escape stands for. -/
inductive Escape where
  | char (c : Char)
  | set (s : CharSet)
  | look (l : Look)

/-- The value of a hexadecimal digit. -/
def hexDigit (c : Char) : Reader Nat :=
  if c.isDigit || ('a' ≤ c && c ≤ 'f') || ('A' ≤ c && c ≤ 'F') then pure (CharSet.hexValue c)
  else failure

/-- The character with this code. -/
def ofCode (n : Nat) : Reader Char :=
  if n < 0xD800 || (0xDFFF < n && n < 0x110000) then pure (Char.ofNat n) else failure

/-- Takes this many hexadecimal digits. -/
def hexDigits (value : Nat) : Nat → Reader Nat
  | 0 => pure value
  | n + 1 => do
      let d ← hexDigit (← peek)
      bumpOn
      hexDigits (16 * value + d) n

/-- Takes the code of a character behind the letter of its escape, which says how many digits the
code has without braces. -/
def hexEscape (digits : Nat) : Reader Char := do
  if (← peek) = '\x7b' then
    let text ← braced
    if text.isEmpty then failure
    else
      let values ← text.mapM hexDigit
      ofCode (values.foldl (fun n d => 16 * n + d) 0)
  else ofCode (← hexDigits 0 digits)

/-- The characters with a meaning of their own, which a backslash takes away. -/
def metaCharacters : List Char := "\\.+*?()|[]\x7b\x7d^$#&-~".toList

/-- The boundaries of words that are named in braces. -/
def namedBoundary (unicode : Bool) (name : List Char) : Option Look :=
  match String.ofList name with
  | "start" => some (.wordStart unicode)
  | "end" => some (.wordEnd unicode)
  | "start-half" => some (.wordStartHalf unicode)
  | "end-half" => some (.wordEndHalf unicode)
  | _ => none

/-- Takes the rest of a boundary behind its letter.  Braces belong to it if a letter or hyphen is
the first thing in them. -/
def wordBoundary : Reader Look := do
  let s ← get
  let u := s.flags.unicode
  let inner := if s.flags.spaced then afterSpace s.rest.tail else s.rest.tail
  match s.rest with
  | '\x7b' :: _ =>
      match inner with
      | [] => failure
      | c :: _ =>
          if c.isAlpha || c = '-' then
            match namedBoundary u (← braced) with
            | some l => pure l
            | none => failure
          else pure (.boundary u)
  | _ => pure (.boundary u)

/-- The characters that letters stand for behind a backslash. -/
def controlLetters : List (Char × Char) :=
  [('a', '\x07'), ('f', '\x0c'), ('t', '\t'), ('n', '\n'), ('r', '\r'), ('v', '\x0b')]

/-- Takes an escape. -/
def escape : Reader Escape := do
  bump
  let c ← peek
  let flags := (← get).flags
  if c.isDigit then failure
  else if c = 'x' || c = 'u' || c = 'U' then
    bumpOn
    pure (.char (← hexEscape (if c = 'x' then 2 else if c = 'u' then 4 else 8)))
  else if c = 'p' || c = 'P' then
    bumpOn
    pure (.set (← propertyClass (c = 'P')))
  else if "dswDSW".toList.contains c then
    bump
    pure (.set (← signed c.isUpper (letterClass flags.unicode c)))
  else
    bump
    if metaCharacters.contains c then pure (.char c)
    else match controlLetters.lookup c with
    | some d => pure (.char d)
    | none =>
        match c with
        | 'A' => pure (.look .textStart)
        | 'z' => pure (.look .textEnd)
        | 'b' => pure (.look (← wordBoundary))
        | 'B' => pure (.look (.noBoundary flags.unicode))
        | '<' => pure (.look (.wordStart flags.unicode))
        | '>' => pure (.look (.wordEnd flags.unicode))
        | _ => if c.toNat < 128 && !c.isAlpha then pure (.char c) else failure

/-! ## Sets in brackets -/

/-- A set with the nesting of its brackets. -/
structure SetPart where
  set : CharSet
  nesting : Nat

/-- Takes one item of a set: a character or a set that an escape names. -/
def setItem : Reader Escape := do
  let c ← peek
  if c = '\\' then escape
  else
    bump
    pure (.char c)

/-- Takes an item of a set or the range that it begins. -/
def setRange : Reader CharSet := do
  let first ← setItem
  bumpSpace
  let isRange ←
    if (← peek) = '-' then do
      let s ← get
      let behind := if s.flags.spaced then afterSpace s.rest.tail else s.rest.tail
      pure !(behind.head? == some ']' || behind.head? == some '-')
    else pure false
  if isRange then
    bumpOn
    match first, ← setItem with
    | .char a, .char b => if a ≤ b then pure (.range a.toNat b.toNat) else failure
    | _, _ => failure
  else
    match first with
    | .char c => pure (.single c)
    | .set s => pure s
    | .look _ => failure

/-- The ways to combine two sets. -/
inductive SetOperation where
  | inter
  | diff
  | symmDiff

/-- Combines two sets, each closed under the case rule that holds. -/
def combine (operation : Option SetOperation) (left right : CharSet) : Reader CharSet := do
  match operation with
  | none => pure right
  | some o =>
      let l ← folded left
      let r ← folded right
      pure (match o with
        | .inter => l.inter r
        | .diff => l.diff r
        | .symmDiff => l.symmDiff r)

/-- Takes the hyphens at the beginning of a set. -/
def leadingHyphens : Nat → Reader CharSet
  | 0 => pure .empty
  | n + 1 => do
      if (← peek) = '-' then
        bumpOn
        let _ ← peek
        pure ((CharSet.single '-').union (← leadingHyphens n))
      else pure .empty

/-- Takes what may stand at the beginning of a set and nowhere else: the mark of a complement,
hyphens and a closing bracket. -/
def setOpening : Reader (Bool × CharSet) := do
  bumpOn
  let negated := (← peek) = '^'
  if negated then bumpOn
  let hyphens ← leadingHyphens (← get).rest.length
  if hyphens.ranges.isEmpty && (← peek) = ']' then
    bumpOn
    let _ ← peek
    pure (negated, .single ']')
  else pure (negated, hyphens)

/-- Takes the items of a set up to its closing bracket.  `before` is what stands in front of the
last operation, `items` the items since then.  `fuel` bounds the steps. -/
def setItemsFuel (before : Option SetOperation × CharSet) (items : CharSet) (nesting : Nat) :
    Nat → Reader SetPart
  | 0 => failure
  | n + 1 => do
      bumpSpace
      let c ← peek
      let next ← peekSecond?
      let operation (o : SetOperation) : Reader SetPart := do
        bump
        bump
        let left ← combine before.1 before.2 items
        setItemsFuel (some o, left) .empty nesting n
      if c = '[' then
        match namedClass? (← get).rest with
        | some (negated, s, rest) =>
            modify fun r => { r with rest := rest }
            let found ← signed negated (← folded s)
            setItemsFuel before (items.union found) nesting n
        | none =>
            let (negated, opening) ← setOpening
            let inner ← setItemsFuel (none, .empty) opening 0 n
            let found ← signed negated (← folded inner.set)
            setItemsFuel before (items.union found) (max nesting (inner.nesting + 1)) n
      else if c = ']' then
        bump
        pure ⟨← combine before.1 before.2 items, nesting⟩
      else if c = '&' && next == some '&' then operation .inter
      else if c = '-' && next == some '-' then operation .diff
      else if c = '~' && next == some '~' then operation .symmDiff
      else
        let found ← setRange
        setItemsFuel before (items.union found) nesting n

/-- Takes a set in brackets. -/
def bracketed : Reader Part := do
  let (negated, opening) ← setOpening
  let inner ← setItemsFuel (none, .empty) opening 0 (2 * (← get).rest.length + 2)
  pure ⟨.one (← signed negated (← folded inner.set)), inner.nesting + 2, true⟩

/-! ## Repetitions -/

/-- Takes a count: digits, with blanks allowed around them. -/
def count : Reader Nat := do
  modify fun s => { s with rest := s.rest.dropWhile isBlank }
  let digits := (← get).rest.takeWhile Char.isDigit
  modify fun s => { s with rest := (s.rest.drop digits.length).dropWhile isBlank }
  let n := digits.foldl (fun n c => 10 * n + CharSet.hexValue c) 0
  if digits.isEmpty || n ≥ 0x100000000 then failure else pure n

/-- Takes the question mark that makes a repetition prefer less; what is taken stays the same. -/
def laziness : Reader Unit := do
  let _ ← bumpIf "?"

/-- Takes the counts between braces. -/
def counts : Reader (Nat × Option Nat) := do
  bumpOn
  let least ← count
  let most ←
    if (← peek) = ',' then
      bumpOn
      if (← peek) = '\x7d' then pure none else some <$> count
    else pure (some least)
  if (← peek) = '\x7d' then
    bumpOn
    laziness
    if most.any (· < least) then failure else pure (least, most)
  else failure

/-- The part repeated. -/
def repeatPart (p : Part) (least : Nat) (most : Option Nat) : Reader Part :=
  if p.repeatable then pure ⟨p.regex.times least most, p.nesting + 1, true⟩ else failure

/-- The last of the parts, which are in reverse order, repeated. -/
def repeatLast (parts : List Part) (least : Nat) (most : Option Nat) : Reader (List Part) := do
  match parts with
  | p :: rest => pure ((← repeatPart p least most) :: rest)
  | [] => failure

/-! ## Groups -/

/-- Whether a name may go on with this character. -/
def inGroupName (isFirst : Bool) (c : Char) : Bool :=
  if isFirst then c = '_' || (isAlphanumeric c && Property.alphabetic.contains c)
  else c = '_' || c = '.' || c = '[' || c = ']' || isAlphanumeric c

/-- Takes the name of a group and the angle bracket behind it. -/
def groupName : Reader Unit := do
  let s ← get
  match upTo '>' s.rest with
  | some (name, rest) =>
      let isName := match name with
        | c :: tail => inGroupName true c && tail.all (inGroupName false)
        | [] => false
      if isName && !s.names.contains name then
        set { s with rest := rest, names := name :: s.names }
      else failure
  | none => failure

/-- Sets the flag of this letter. -/
def setFlag (letter : Char) (on : Bool) (f : Flags) : Reader Flags :=
  match letter with
  | 'i' => pure { f with ignoreCase := on }
  | 'm' => pure { f with multiLine := on }
  | 's' => pure { f with dotTakesAll := on }
  | 'U' => pure f
  | 'u' => pure { f with unicode := on }
  | 'R' => pure { f with crlf := on }
  | 'x' => pure { f with spaced := on }
  | _ => failure

/-- Takes flags up to the colon or the parenthesis behind them.  No flag and no hyphen may come
twice, and a flag must follow a hyphen. -/
def flagsFuel (seen : List Char) (on : Bool) (f : Flags) : Nat → Reader (Flags × List Char)
  | 0 => failure
  | n + 1 => do
      let c ← peek
      if c = ':' || c = ')' then
        if seen.head? == some '-' then failure else pure (f, seen)
      else if seen.contains c then failure
      else if c = '-' then
        bump
        flagsFuel (c :: seen) false f n
      else
        let f ← setFlag c on f
        bump
        flagsFuel (c :: seen) on f n

/-- What stands between an opening parenthesis and the content of its group. -/
inductive GroupOpening where
  | group
  | flags (flags : Flags)

/-- Takes an opening parenthesis and what stands between it and the content of the group. -/
def groupOpening : Reader GroupOpening := do
  bumpOn
  let s ← get
  if ["?=", "?!", "?<=", "?<!"].any (fun l => l.toList.isPrefixOf s.rest) then failure
  else if (← bumpIf "?P<") || (← bumpIf "?<") then
    groupName
    pure .group
  else if ← bumpIf "?" then
    let (f, seen) ← flagsFuel [] true s.flags (s.rest.length + 1)
    let isGroup := (← peek) = ':'
    bump
    if isGroup then
      modify fun s => { s with flags := f }
      pure .group
    else if seen.isEmpty then failure
    else pure (.flags f)
  else pure .group

/-! ## Expressions -/

/-- Takes a dot. -/
def dot : Reader Regex := do
  bump
  let f := (← get).flags
  if !f.unicode then failure
  else if f.dotTakesAll then pure (.one .full)
  else if f.crlf then pure (.one (CharSet.ofText "a d").complement)
  else pure (.one (CharSet.single '\n').complement)

/-- Takes the mark of the beginning or the end of a line or text. -/
def anchor (c : Char) : Reader Regex := do
  bump
  let f := (← get).flags
  pure (.look
    (if c = '^' then if f.multiLine then .lineStart f.crlf else .textStart
    else if f.multiLine then .lineEnd f.crlf else .textEnd))

/-- Takes an escape as an expression. -/
def escaped : Reader Regex := do
  match ← escape with
  | .char c => literal c
  | .set s => pure (.one s)
  | .look l => pure (.look l)

/-- Takes an expression up to the end or a closing parenthesis.  `parts` holds the parts of the
current branch in reverse order and `branches` the branches in front of it, also in reverse
order.  `fuel` bounds the steps. -/
def expressionFuel (branches : List Part) (parts : List Part) : Nat → Reader Part
  | 0 => failure
  | n + 1 => do
      bumpSpace
      let branch := Part.sequence parts.reverse
      let whole := Part.anyOf (branch :: branches).reverse
      match ← peek? with
      | none => pure whole
      | some ')' => pure whole
      | some '|' =>
          bump
          expressionFuel (branch :: branches) [] n
      | some '(' =>
          let outer := (← get).flags
          match ← groupOpening with
          | .flags f =>
              modify fun s => { s with flags := f }
              expressionFuel branches (⟨.empty, 0, false⟩ :: parts) n
          | .group =>
              let inner ← expressionFuel [] [] n
              if (← peek) = ')' then
                bump
                modify fun s => { s with flags := outer }
                expressionFuel branches (⟨inner.regex, inner.nesting + 1, true⟩ :: parts) n
              else failure
      | some '[' => expressionFuel branches ((← bracketed) :: parts) n
      | some '?' =>
          bump
          laziness
          expressionFuel branches (← repeatLast parts 0 (some 1)) n
      | some '*' =>
          bump
          laziness
          expressionFuel branches (← repeatLast parts 0 none) n
      | some '+' =>
          bump
          laziness
          expressionFuel branches (← repeatLast parts 1 none) n
      | some '\x7b' =>
          if parts.isEmpty then failure
          let (least, most) ← counts
          expressionFuel branches (← repeatLast parts least most) n
      | some '\\' => expressionFuel branches (.leaf (← escaped) :: parts) n
      | some '.' => expressionFuel branches (.leaf (← dot) :: parts) n
      | some c =>
          let r ← if c = '^' || c = '$' then anchor c else do
            bump
            literal c
          expressionFuel branches (.leaf r :: parts) n

end Reader

/-- How deeply the parts of an expression may be nested. -/
def nestingLimit : Nat := 250

/-- The expression that a text denotes, ignoring case from the beginning where that is asked
for. -/
def parse? (ignoreCase : Bool) (text : List Char) : Option Regex := do
  let (part, left) ← Reader.expressionFuel [] [] (2 * text.length + 2)
    ⟨text, Flags.initial ignoreCase, []⟩
  if left.rest.isEmpty && part.nesting ≤ nestingLimit && part.regex.isSmall then some part.regex
  else none

end Regex

end FieldCopy
