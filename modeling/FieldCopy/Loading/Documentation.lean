import FieldCopy.Directive.Line
import FieldCopy.Source.Import

/-!
# Documentation

The documentation of a trait or a method is made of lines.  A line whose first visible character
is a colon is a directive; all other lines are plain documentation.  Lines of either kind keep
their order, and a directive keeps its place in the file.
-/

namespace FieldCopy

/-- The documentation of a trait or a method. -/
structure Documentation where
  /-- The lines that are no directives. -/
  docs : List String
  /-- The directives. -/
  lines : List Annotation

namespace Documentation

/-- No documentation. -/
def empty : Documentation := ⟨[], []⟩

instance : Append Documentation := ⟨fun a b => ⟨a.docs ++ b.docs, a.lines ++ b.lines⟩⟩

/-- Whether a line is a directive. -/
def isDirective (line : List Char) : Bool := (Text.trimStart line).head? == some ':'

/-- The documentation of one line. -/
def ofLine (position : Position) (line : List Char) : Documentation :=
  if isDirective line then ⟨[], [⟨String.ofList line, position⟩]⟩
  else ⟨[String.ofList line], []⟩

/-- The documentation of the lines of a text whose first line is at a position. -/
def ofLines (position : Position) : List (List Char) → Documentation
  | [] => empty
  | line :: rest =>
      ofLine position line ++ ofLines { position with line := position.line + 1 } rest

/-- The documentation of an attribute in a file. -/
def ofAttribute (file : String) (a : Source.Attribute) : Documentation :=
  match a.stringOf? "doc" with
  | some text => ofLines ⟨file, a.place.line, a.place.column⟩ (Text.lines text.toList)
  | none => empty

/-- The documentation that attributes in a file are. -/
def ofAttributes (file : String) (attributes : List Source.Attribute) : Documentation :=
  (attributes.map (ofAttribute file)).foldr (· ++ ·) empty

/-- A line without what can stand in front of a directive: blanks, slashes and blanks again. -/
def bare (line : List Char) : List Char :=
  Text.trimStart (Text.dropRepeated "/".toList (Text.trimStart line))

/-- Whether a directive marks a trait as one whose methods stand for conversions. -/
def marks (line : Annotation) : Bool :=
  match ":structcopygen".toList.isPrefixOf? (bare line.text.toList) with
  | some rest => rest.head?.all isBlank
  | none => false

/-- Whether the documentation marks a trait as one whose methods stand for conversions. -/
def isMarked (d : Documentation) : Bool := d.lines.any marks

end Documentation

end FieldCopy
