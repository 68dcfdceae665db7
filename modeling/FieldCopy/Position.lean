/-!
# Positions in source files

A position is a file, a line and a column, both counted from one.  Positions are ordered by file,
then by line, then by column.
-/

namespace FieldCopy

/-- A place in a named file. -/
structure Position where
  file : String
  line : Nat
  column : Nat
  deriving DecidableEq, Inhabited

namespace Position

/-- The display form: file, line and column with colons between them. -/
def text (p : Position) : String := s!"{p.file}:{p.line}:{p.column}"

/-- Whether `p` does not come after `q`. -/
def le (p q : Position) : Bool :=
  if p.file = q.file then
    if p.line = q.line then p.column ≤ q.column else p.line < q.line
  else p.file < q.file

theorem le_refl (p : Position) : p.le p = true := by simp [le]

end Position

end FieldCopy
