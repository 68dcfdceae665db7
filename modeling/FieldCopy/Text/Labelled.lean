import FieldCopy.Text.Quoted

/-!
# Labelled values

The one-line form of a value in a log record: a label, and behind it the parts of the value, either
in parentheses or in braces with a name for each part.
-/

namespace FieldCopy.Labelled

/-- A label with its parts in parentheses. -/
def call (label : String) (parts : List String) : String :=
  label ++ "(" ++ ", ".intercalate parts ++ ")"

/-- A label with its named parts in braces. -/
def record (label : String) (parts : List (String × String)) : String :=
  label ++ " \x7b " ++ ", ".intercalate (parts.map fun p => p.1 ++ ": " ++ p.2) ++ " \x7d"

/-- The word for a truth value. -/
def bool (b : Bool) : String := if b then "true" else "false"

/-- A value that may lack. -/
def option : Option String → String
  | some s => call "Some" [s]
  | none => "None"

/-- A text in quotes. -/
def text (s : String) : String := Quoted.quote s

end FieldCopy.Labelled
