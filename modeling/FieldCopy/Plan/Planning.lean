import FieldCopy.Plan.Matching

/-!
# Planning a conversion

A conversion between slices of structures converts element by element through a delegate; one
between structures produces every field of the destination, in the order of declaration; any other
conversion has an empty plan, and the value is converted as a whole.

**Siblings.**  A delegate may be a conversion that is planned already; then it fails if the sibling
does.  Otherwise it is a function of the catalog.
-/

namespace FieldCopy

/-- What a plan is made from. -/
structure Planner where
  catalog : Catalog
  /-- The conversions that are planned already, and whether they can fail. -/
  siblings : Keyed Bool

namespace Planner

/-- The call of a hook.  A hook takes the destination and the source and gives nothing but perhaps
a failure. -/
def hook (k : Planner) (kind : String) : Option FunctionRef → Attempt (Option Hook)
  | none => pure none
  | some f => do
      match k.catalog.function? f.name with
      | none =>
          Attempt.warnAt f.position s!"{kind} func {f.name} not found"
          pure (some ⟨f.name, false⟩)
      | some info =>
          let returnsNothing ← match info.result with
            | none => pure true
            | some r => do pure ((← Attempt.known (k.catalog.typeAt r)).name == "()")
          if info.parameters.length < 2 || !returnsNothing then
            throw (.misconfigured f.position (.unusableHook f.name kind))
          else pure (some ⟨f.name, info.fallible⟩)

/-- Whether a delegate can fail. -/
def delegateFails (k : Planner) (f : FunctionRef) : Attempt Bool := do
  match k.siblings.find? f.name with
  | some fallible => pure fallible
  | none =>
      match k.catalog.function? f.name with
      | some info => pure info.fallible
      | none =>
          Attempt.warnAt f.position s!"struct_conv func {f.name} not found"
          pure false

/-- The loop that converts the elements of a slice. -/
def loop (k : Planner) (method : String) (i : Instructions) (source target : TypeId)
    (element : StructInfo) (anchor : Position) : Attempt Assignment := do
  match i.delegate with
  | none => throw (.misconfigured anchor .noDelegate)
  | some f =>
      let fallible ← k.delegateFails f
      Attempt.log .debug s!"{method}: delegating elements to {f.name}"
      let targetType ← Attempt.known (k.catalog.typeAt target)
      let sourceType ← Attempt.known (k.catalog.typeAt source)
      pure (.delegateLoop targetType.name sourceType.name element.path f.name fallible)

/-- The assignments of the fields of a structure. -/
def fields (k : Planner) (method : String) (i : Instructions) (source target : StructInfo)
    (anchor : Position) : Attempt (List Assignment) := do
  let m : Matching := ⟨k.catalog, i, source, method, anchor⟩
  let assignments ← target.fields.mapM m.resolve
  let skipped := (assignments.filter Assignment.isSkip).length
  Attempt.log .debug s!"{method}: {assignments.length} assignment(s), {skipped} skipped"
  pure assignments

/-- Notes that a conversion is not taken apart. -/
def noteWhole (k : Planner) (method : String) (source target : TypeId) : Attempt Unit := do
  let sourceType ← Attempt.known (k.catalog.typeAt source)
  let targetType ← Attempt.known (k.catalog.typeAt target)
  Attempt.log .debug
    s!"{method}: {sourceType.name} to {targetType.name} is not a struct copy, empty plan"

/-- The assignments that produce a value of one type from a value of another. -/
def assignments (k : Planner) (method : String) (i : Instructions) (source target : TypeId)
    (anchor : Position) : Attempt (List Assignment) := do
  let c := k.catalog
  match ← Attempt.known (c.elementStructOf source), ← Attempt.known (c.elementStructOf target) with
  | some _, some element => pure [← k.loop method i source target element anchor]
  | _, _ =>
      match ← Attempt.known (c.structOf source), ← Attempt.known (c.structOf target) with
      | some s, some t => k.fields method i s t anchor
      | _, _ =>
          k.noteWhole method source target
          pure []

/-- The plan of a conversion. -/
def plan (k : Planner) (method : String) (i : Instructions) (source target : TypeId)
    (anchor : Position) : Attempt Plan := do
  let before ← k.hook "preprocess" i.before
  let after ← k.hook "postprocess" i.after
  pure ⟨← k.assignments method i source target anchor, before, after⟩

end Planner

end FieldCopy
