import FieldCopy.Generation
import FieldCopy.Report.Basic

/-!
# Reports on generated files

The JSON form of what was decided for the methods of a file.
-/

namespace FieldCopy.Report

open Json

/-- The instructions of a method.  They tell whether its plan can fail. -/
def reportedInstructions (r : MethodReport) : Json :=
  option (fun i => instructions i (r.plan.any Plan.fallible)) r.instructions

/-- The form of a report on a method. -/
def method (r : MethodReport) : Json :=
  object
    [("interface", text r.interface), ("method", text r.method), ("position", position r.position),
      ("spec", reportedInstructions r), ("plan", option plan r.plan)]

/-- The form of a generated file, its code left out. -/
def generated (g : GeneratedFile) : Json :=
  object
    [("file", text g.file), ("methods", list method g.methods),
      ("diagnostics", list diagnostic g.diagnostics)]

end FieldCopy.Report
