import FieldCopy.Catalog.Basic
import FieldCopy.Journal
import FieldCopy.Text.Quoted

/-!
# Faults

What can make the processing of a method fail.  A fault is its cause; the wording is in
`Misconfiguration.message` and `Fault.message` alone.
-/

namespace FieldCopy

/-- What is wrong with well-formed directives, or with the method they stand at. -/
inductive Misconfiguration where
  | takesNoArgument (directive : String)
  | needsArguments (directive usage : String)
  | unknownMatchRule (word : String)
  | unknownStyle (word : String)
  /-- A pattern that is no regular expression.  Which part of it is at fault, and why, is left out:
  all such patterns have the same words. -/
  | malformedPattern
  | reversedResult
  | noSource (method : String)
  | noResult (method : String)
  | tooFewParameters (method : String)
  | unwantedResult (method : String)
  | noSuchParameter (parameter method : String)
  | noDelegate
  | unusableHook (function kind : String)
  deriving DecidableEq

namespace Misconfiguration

/-- The words for what is wrong. -/
def message : Misconfiguration → String
  | takesNoArgument d => s!":{d} takes no argument"
  | needsArguments d usage => s!":{d} needs {usage} arg(s)"
  | unknownMatchRule w => "invalid <algorithm> arg " ++ Quoted.quote w
  | unknownStyle w => "invalid <style> arg " ++ Quoted.quote w
  | malformedPattern => "invalid regexp"
  | reversedResult => "to use \":reverse\", style must be \":style arg\""
  | noSource m => s!"{m} needs a source parameter"
  | noResult m => m ++ " needs a result, or \":style arg\""
  | tooFewParameters m => m ++ " needs destination and source parameters with \":style arg\""
  | unwantedResult m => m ++ " must not return a value with \":style arg\""
  | noSuchParameter p m => s!"recv {p}: {m} has no such parameter"
  | noDelegate => "struct_conv func is required"
  | unusableHook f kind => s!"function {f} cannot use for {kind} func"

end Misconfiguration

/-- What makes the processing of a method fail. -/
inductive Fault where
  /-- A line that does not have the form of a directive. -/
  | malformed (position : Position) (line : String)
  | misconfigured (position : Position) (cause : Misconfiguration)
  /-- A number that the catalog does not know. -/
  | dangling (number : Dangling)
  deriving DecidableEq

namespace Fault

/-- Where the fault is, if it is somewhere. -/
def position? : Fault → Option Position
  | malformed p _ | misconfigured p _ => some p
  | dangling _ => none

/-- The words for a fault, without its position. -/
def detail : Fault → String
  | malformed _ line => "invalid notation format " ++ Quoted.quote line
  | misconfigured _ cause => cause.message
  | dangling (.type id) => s!"type #{id.index} not found"
  | dangling (.struct id) => s!"struct #{id.index} not found"

/-- The display form of a fault. -/
def message (f : Fault) : String :=
  match f.position? with
  | some p => p.text ++ ": " ++ f.detail
  | none => f.detail

end Fault

/-- A computation that records events and may fail; what it recorded before it failed stays. -/
abbrev Attempt := ExceptT Fault Journaled

namespace Attempt

variable {α : Type}

/-- Writes a line to the log. -/
def log (level : Level) (message : String) : Attempt Unit :=
  ExceptT.lift (Journaled.log level message)

/-- Records a warning at a position. -/
def warnAt (position : Position) (message : String) : Attempt Unit :=
  ExceptT.lift (Journaled.warnAt position message)

/-- A look-up that fails for an unknown number. -/
def known (x : Except Dangling α) : Attempt α :=
  match x with
  | .ok a => pure a
  | .error d => throw (.dangling d)

/-- The outcome with the events. -/
def outcome (x : Attempt α) : Journaled (Except Fault α) := x.run

end Attempt

end FieldCopy
