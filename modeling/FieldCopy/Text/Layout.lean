/-!
# Breaking lines

A *layout* is a text with gaps that may become line breaks.  `Layout.write` chooses which do.

**Groups.**  A group that fits into the rest of the line stands on it as a whole.  In a group that
does not fit, either all gaps break or, in a group that *fills* its lines, those behind which the
text up to the next gap would not fit.

**What must fit** behind a gap or the front of a group is more than what stands inside: the text
that follows up to the next gap of the same or an outer group belongs to it.  `Layout.reach`
measures it.

Widths are counted in bytes.
-/

namespace FieldCopy

/-- A text with gaps that may become line breaks. -/
inductive Layout where
  | text (s : List Char)
  /-- A gap of so many spaces.  If it breaks, the line ends with `mark` and the next one is
  indented by `shift` against its group. -/
  | gap (spaces : Nat) (shift : Int) (mark : List Char)
  /-- A group whose lines are indented further by `indent`. -/
  | group (indent : Nat) (fills : Bool) (parts : List Layout)

namespace Layout

/-- A gap without width. -/
def cut : Layout := gap 0 0 []

/-- A gap that is a space on an unbroken line. -/
def space : Layout := gap 1 0 []

/-- A gap that fits nowhere. -/
def lineBreak : Layout := gap 0xffff 0 []

/-- A word. -/
def word (s : String) : Layout := text s.toList

/-! ## Measures -/

/-- The number of bytes of a text. -/
def bytes (s : List Char) : Nat := s.foldl (fun n c => n + c.utf8Size) 0

mutual

/-- The width of a layout on an unbroken line. -/
def width : Layout → Nat
  | text s => bytes s
  | gap n _ _ => n
  | group _ _ parts => widthAll parts

/-- The width of a sequence of layouts on an unbroken line. -/
def widthAll : List Layout → Nat
  | [] => 0
  | l :: rest => l.width + widthAll rest

end

/-- The width up to the next gap of a sequence behind which text of width `after` follows. -/
def reach (after : Nat) : List Layout → Nat
  | [] => after
  | gap _ _ _ :: _ => 0
  | l :: rest => l.width + reach after rest

/-! ## Writing -/

/-- The width of a line. -/
def margin : Int := 89

/-- A line has room for this much at least, however far it is indented. -/
def leastRoom : Int := 60

/-- How the gaps of a group are treated. -/
inductive Breaking where
  | none
  | all
  | whereNeeded
  deriving DecidableEq

/-- A text that is being written. -/
structure Page where
  /-- What is written, the last character first. -/
  reversed : List Char
  /-- The spaces to be written in front of the next word. -/
  pending : Nat
  /-- What is left of the line. -/
  room : Int

namespace Page

/-- The page on which nothing is written. -/
def blank : Page := ⟨[], 0, margin⟩

/-- Writes what stands on a line, the pending spaces first. -/
def put (p : Page) (s : List Char) : Page :=
  { p with
    reversed := s.reverse ++ (List.replicate p.pending ' ' ++ p.reversed)
    pending := 0
    room := p.room - bytes s }

/-- Leaves space on a line. -/
def skip (p : Page) (n : Nat) : Page := { p with pending := p.pending + n, room := p.room - n }

/-- Ends a line with a mark and indents the next one. -/
def newLine (p : Page) (mark : List Char) (indent : Int) : Page :=
  let marked := if mark.isEmpty then p.reversed else (p.put mark).reversed
  ⟨'\n' :: marked, indent.toNat, max (margin - indent) leastRoom⟩

/-- What is written. -/
def content (p : Page) : List Char := p.reversed.reverse

end Page

mutual

/-- Writes a layout of a group whose gaps are treated in this way and whose lines have this
indentation.  `after` is the width up to the next gap behind the layout. -/
def put (breaking : Breaking) (indent : Int) (after : Nat) (p : Page) : Layout → Page
  | text s => p.put s
  | gap n shift mark =>
      let fits := match breaking with
        | .none => true
        | .all => false
        | .whereNeeded => (n + after : Int) ≤ p.room
      if fits then p.skip n else p.newLine mark (indent + shift)
  | group further fills parts =>
      if p.room < (widthAll parts + after : Int) then
        putAll (if fills then .whereNeeded else .all) (indent + further) after p parts
      else putAll .none indent after p parts

/-- Writes a sequence of layouts of a group. -/
def putAll (breaking : Breaking) (indent : Int) (after : Nat) (p : Page) : List Layout → Page
  | [] => p
  | l :: rest =>
      putAll breaking indent after (put breaking indent (reach after rest) p l) rest

end

/-- The text of a sequence of layouts whose own gaps all break. -/
def write (parts : List Layout) : List Char := (putAll .all 0 0 .blank parts).content

end Layout

end FieldCopy
