import FieldCopy.Regex.Machine
import FieldCopy.Regex.Parser
import FieldCopy.Text.AsciiCase

/-!
# Patterns of fields to be skipped

A pattern between slashes is a regular expression, and a name matches if the expression takes some
part of it.  Any other text is compared to the whole name.
-/

namespace FieldCopy

/-- A pattern of field names. -/
inductive SkipPattern where
  | literal (text : String)
  /-- An expression as it stands between the slashes, read with and without regard to case. -/
  | regex (source : String) (exact anyCase : Regex)

namespace SkipPattern

/-- What stands between the slashes of a text, if it begins and ends with one and is not empty in
between. -/
def source? (text : String) : Option (List Char) :=
  match text.toList with
  | '/' :: rest =>
      if rest.getLast? == some '/' && rest.length > 1 then some rest.dropLast else none
  | _ => none

/-- The pattern that a text denotes, unless it holds an expression that is malformed. -/
def parse? (text : String) : Option SkipPattern :=
  match source? text with
  | some source => do
      let exact ← Regex.parse? false source
      let anyCase ← Regex.parse? true source
      some (.regex (String.ofList source) exact anyCase)
  | none => some (.literal text)

/-- Whether a name matches. -/
def accepts (name : String) (caseSensitive : Bool) : SkipPattern → Bool
  | literal text => if caseSensitive then text == name else sameIgnoringCase text name
  | regex _ exact anyCase => (if caseSensitive then exact else anyCase).search name.toList

/-- The pattern as it is written. -/
def written : SkipPattern → String
  | literal text => text
  | regex source _ _ => s!"/{source}/"

/-- Whether the pattern is a regular expression. -/
def isRegex : SkipPattern → Bool
  | literal _ => false
  | regex _ _ _ => true

/-- Patterns are the same if they are written the same. -/
instance : BEq SkipPattern := ⟨fun p q => p.written == q.written⟩

end SkipPattern

end FieldCopy
