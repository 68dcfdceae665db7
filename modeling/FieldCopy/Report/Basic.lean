import FieldCopy.Diagnostic
import FieldCopy.Instructions
import FieldCopy.Plan.Basic
import FieldCopy.Report.Json

/-!
# What a report shows

The JSON forms of instructions, plans and diagnostics.
-/

namespace FieldCopy.Report

open Json

/-- The form of a position. -/
def position (p : Position) : Json :=
  object [("file", text p.file), ("line", number p.line), ("column", number p.column)]

/-- The name of a severity. -/
def severityKey : Severity → String
  | .warning => "Warning"
  | .error => "Error"

/-- The form of a diagnostic. -/
def diagnostic (d : Diagnostic) : Json :=
  object
    [("severity", text (severityKey d.severity)), ("position", position d.position),
      ("message", text d.message)]

/-! ## Instructions -/

/-- The name of a style. -/
def styleKey : Style → String
  | .result => "return_value"
  | .argument => "argument_out"

/-- The form of a function that a directive names. -/
def functionRef (f : FunctionRef) : Json :=
  object [("name", text f.name), ("position", position f.position)]

/-- The form of a converter. -/
def converter (c : Converter) : Json :=
  object [("converter", text c.function), ("src", option text c.source)]

/-- The form of a table of overrides. -/
def table {α : Type} (f : α → Json) (t : Keyed α) : Json :=
  object (t.entries.map fun e => (e.1, f e.2))

/-- The form of instructions; `fallible` tells whether their plan can fail. -/
def instructions (i : Instructions) (fallible : Bool) : Json :=
  object
    [("match_rule", text i.matching.text), ("case_sensitive", bool i.caseSensitive),
      ("use_getter", bool i.getters), ("use_stringer", bool i.stringers),
      ("allow_typecast", bool i.casts), ("style", text (styleKey i.style)),
      ("reverse", bool i.reversed), ("receiver", option text i.receiver),
      ("skip_patterns", list (fun p => text p.written) i.skips),
      ("field_overrides", table text i.fieldOverrides),
      ("method_overrides", table text i.methodOverrides),
      ("converter_overrides", table converter i.converters),
      ("literal_overrides", table text i.literals),
      ("delegate", option functionRef i.delegate),
      ("pre_process", option functionRef i.before),
      ("post_process", option functionRef i.after), ("produces_error", bool fallible)]

/-! ## Plans -/

/-- The form of a part of an assignment. -/
def part : Assignment.Part → Json
  | .text s => text s
  | .flag b => bool b
  | .reason r => text r.key

/-- The form of an assignment. -/
def assignment (a : Assignment) : Json :=
  let (_, kind, fields) := a.parts
  object (("kind", text kind) :: fields.map fun f => (f.1, part f.2))

/-- The form of a hook. -/
def hook (h : Hook) : Json :=
  object [("name", text h.function), ("may_error", bool h.fallible)]

/-- The form of a plan. -/
def plan (p : Plan) : Json :=
  object
    [("assignments", list assignment p.assignments), ("pre_process", option hook p.before),
      ("post_process", option hook p.after)]

end FieldCopy.Report
