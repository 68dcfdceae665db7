import FieldCopy.Text.Labelled

/-!
# Plans

A plan lists how each field of a destination is produced, or says that the elements of a slice are
converted one by one, and names the functions that are called before and after.

Source paths are relative to the source value: `name`, `category.id`, `nick()`.
-/

namespace FieldCopy

/-- Why a field is left alone. -/
inductive SkipReason where
  | directive
  | noMatch
  | matchDisabled
  | typeMismatch
  | converterSignature
  deriving DecidableEq

namespace SkipReason

/-- The words for a reason. -/
def text : SkipReason → String
  | directive => "skipped by directive"
  | noMatch => "no match"
  | matchDisabled => "automatic matching disabled"
  | typeMismatch => "type mismatch"
  | converterSignature => "converter signature mismatch"

/-- The name of a reason in a report. -/
def key : SkipReason → String
  | directive => "directive"
  | noMatch => "no_match"
  | matchDisabled => "match_disabled"
  | typeMismatch => "type_mismatch"
  | converterSignature => "converter_signature"

/-- The label of a reason in the log. -/
def label : SkipReason → String
  | directive => "Directive"
  | noMatch => "NoMatch"
  | matchDisabled => "MatchDisabled"
  | typeMismatch => "TypeMismatch"
  | converterSignature => "ConverterSignature"

end SkipReason

/-- How a field of the destination is produced, or the whole destination by `delegateLoop`. -/
inductive Assignment where
  /-- A copy of a source member of the same type. -/
  | copy (field source : String)
  /-- A source member converted to a basic type. -/
  | cast (field source target : String)
  /-- The result of a getter. -/
  | getter (field method : String)
  /-- A source member turned into text. -/
  | stringer (field source : String)
  | converter (field source function : String) (byReference fallible : Bool)
  | method (field method : String) (fallible : Bool)
  | literal (field text : String)
  | skip (field : String) (reason : SkipReason)
  /-- The elements of the source converted one by one. -/
  | delegateLoop (target source element delegate : String) (fallible : Bool)
  deriving DecidableEq

namespace Assignment

/-- The field that is produced; for a loop, the type of the destination. -/
def target : Assignment → String
  | copy f _ | cast f _ _ | getter f _ | stringer f _ | converter f _ _ _ _ | method f _ _
  | literal f _ | skip f _ => f
  | delegateLoop t _ _ _ _ => t

/-- Whether the assignment can fail. -/
def fallible : Assignment → Bool
  | converter _ _ _ _ e | method _ _ e | delegateLoop _ _ _ _ e => e
  | _ => false

def isSkip : Assignment → Bool
  | skip _ _ => true
  | _ => false

def isLoop : Assignment → Bool
  | delegateLoop _ _ _ _ _ => true
  | _ => false

/-- A part of an assignment in the log or in a report. -/
inductive Part where
  | text (s : String)
  | flag (b : Bool)
  | reason (r : SkipReason)

/-- The name of an assignment's kind in the log, its name in a report, and its named parts. -/
def parts : Assignment → String × String × List (String × Part)
  | copy f s => ("SimpleCopy", "simple_copy", [("dst", .text f), ("src", .text s)])
  | cast f s t =>
      ("CastCopy", "cast_copy", [("dst", .text f), ("src", .text s), ("target_type", .text t)])
  | getter f m => ("GetterCopy", "getter_copy", [("dst", .text f), ("getter", .text m)])
  | stringer f s => ("StringerCopy", "stringer_copy", [("dst", .text f), ("src", .text s)])
  | converter f s c r e =>
      ("ConverterCall", "converter_call",
        [("dst", .text f), ("src", .text s), ("converter", .text c), ("by_ref", .flag r),
          ("may_error", .flag e)])
  | method f m e =>
      ("MethodMatchCall", "method_match_call",
        [("dst", .text f), ("method", .text m), ("may_error", .flag e)])
  | literal f l => ("LiteralAssign", "literal_assign", [("dst", .text f), ("literal", .text l)])
  | skip f r => ("Skip", "skip", [("dst", .text f), ("reason", .reason r)])
  | delegateLoop t s e d m =>
      ("DelegateLoop", "delegate_loop",
        [("dst_slice", .text t), ("src_slice", .text s), ("element_type", .text e),
          ("delegate", .text d), ("may_error", .flag m)])

/-- The form of a part in the log. -/
def Part.label : Part → String
  | text s => Labelled.text s
  | flag b => Labelled.bool b
  | reason r => r.label

/-- The form of an assignment in the log. -/
def label (a : Assignment) : String :=
  let (name, _, fields) := a.parts
  Labelled.record name (fields.map fun f => (f.1, f.2.label))

end Assignment

/-- A call before or after the assignments. -/
structure Hook where
  function : String
  fallible : Bool
  deriving DecidableEq

/-- How a destination is produced. -/
structure Plan where
  assignments : List Assignment
  before : Option Hook
  after : Option Hook
  deriving DecidableEq

namespace Plan

/-- Whether anything in the plan can fail. -/
def fallible (p : Plan) : Bool :=
  p.assignments.any Assignment.fallible || p.before.any Hook.fallible || p.after.any Hook.fallible

/-- Whether the plan converts the elements of a slice. -/
def hasLoop (p : Plan) : Bool := p.assignments.any Assignment.isLoop

end Plan

end FieldCopy
