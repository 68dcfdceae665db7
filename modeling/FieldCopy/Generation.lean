import FieldCopy.Code.Conversion
import FieldCopy.Loading
import FieldCopy.Plan.Planning

/-!
# Generation

`SourceUnit.generate` makes a file with a function for every method of a source unit.

**Faults** of a method leave the method out and become error diagnostics; the other methods do not
notice.  A fault in the lines of a trait leaves out its methods.

**Three steps.**  All methods are prepared: their lines are read and their ends chosen.  Then they
are planned, those that convert slices element by element after all others, so that their delegates
are planned already (`planPass`).  At last functions are written in the order of declaration.

**The order of diagnostics** before sorting is: for each trait its own and those of its methods
that could not be prepared, then for each other method those of its preparation and its planning.
-/

namespace FieldCopy

/-- What a generation can be told. -/
structure GenerationOptions where
  /-- Whether the file starts with a header. -/
  header : Bool
  interfaceName : String

/-- What holds unless it is told otherwise. -/
def GenerationOptions.default : GenerationOptions := ⟨true, SourceUnit.defaultInterfaceName⟩

/-- What was decided for a method. -/
structure MethodReport where
  interface : String
  method : String
  position : Position
  instructions : Option Instructions
  plan : Option Plan

/-- A generated file, with what is known of its methods. -/
structure GeneratedFile where
  file : String
  code : String
  methods : List MethodReport
  /-- The diagnostics ordered by position. -/
  diagnostics : List Diagnostic

namespace GeneratedFile

def hasErrors (g : GeneratedFile) : Bool := g.diagnostics.any Diagnostic.isError

/-- The first method with a name. -/
def method? (g : GeneratedFile) (name : String) : Option MethodReport :=
  g.methods.find? fun r => r.method == name

end GeneratedFile

namespace Endpoints

/-- Whether a type is a slice of structures. -/
def hasElements (c : Catalog) (p : Parameter) : Bool :=
  match c.elementStructOf p.type with
  | .ok (some _) => true
  | _ => false

/-- Whether both ends are slices of structures, so that the elements are converted one by one. -/
def areElementwise (c : Catalog) (e : Endpoints) : Bool :=
  hasElements c e.source && hasElements c e.target

end Endpoints

namespace Generation

/-! ## Faults -/

/-- Records that something is left out because of a fault.  A fault without a position is at the
anchor. -/
def recordFault (name : String) (anchor : Position) (f : Fault) : Journaled Unit := do
  let p := f.position?.getD anchor
  Journaled.log .warn s!"{p.text}: {name} omitted: {f.detail}"
  Journaled.errorAt p s!"{name}: {f.detail}"

/-- The value of an attempt; a fault is recorded under a name. -/
def orOmit {α : Type} (name : String) (anchor : Position) (x : Attempt α) :
    Journaled (Option α) := do
  match ← x.outcome with
  | .ok a => pure (some a)
  | .error f =>
      recordFault name anchor f
      pure none

/-! ## Preparing -/

/-- What a method's lines say, and its ends. -/
structure Prepared where
  instructions : Instructions
  endpoints : Endpoints

/-- Prepares a method. -/
def prepare (m : Declaration) : Attempt Prepared := do
  let i ← Instructions.ofLines DirectiveForm.methodNames m.lines
  let e ← ExceptT.mk (pure (Endpoints.select m i))
  pure ⟨i, e⟩

/-- A method on its way. -/
structure Entry where
  interface : String
  declaration : Declaration
  prepared : Journaled (Option Prepared)
  /-- The plan of a prepared method, once it was looked for. -/
  planned : Option (Journaled (Option Plan))

/-- A trait with its methods on their way. -/
structure Examined where
  /-- Whether the lines of the trait are without fault. -/
  own : Journaled Bool
  entries : List Entry

/-- A method of a trait, prepared. -/
def Entry.of (interface : String) (m : Declaration) : Entry :=
  ⟨interface, m, orOmit m.name m.position (prepare m), none⟩

/-- Reads the lines of a trait and prepares its methods. -/
def examine (i : Interface) : Examined :=
  let own := Option.isSome <$> orOmit i.name i.position
    (Instructions.ofLines DirectiveForm.interfaceNames i.lines)
  ⟨own, if own.value then i.methods.map (Entry.of i.name) else []⟩

/-! ## Planning -/

section

variable (c : Catalog)

/-- Whether a prepared method converts the elements of a slice. -/
def isElementwise (e : Entry) : Bool :=
  e.prepared.value.any fun p => p.endpoints.areElementwise c

/-- The plan of a prepared method, given the conversions that are planned already. -/
def planning (siblings : Keyed Bool) (m : Declaration) (p : Prepared) : Attempt Plan :=
  let k : Planner := ⟨c, siblings⟩
  k.plan m.name p.instructions p.endpoints.source.type p.endpoints.target.type m.position

/-- Plans a prepared method.  One that was planned becomes a sibling of those that follow. -/
def planEntry (siblings : Keyed Bool) (e : Entry) : Entry × Keyed Bool :=
  match e.prepared.value with
  | none => (e, siblings)
  | some p =>
      let m := e.declaration
      let planned := orOmit m.name m.position (planning c siblings m p)
      let siblings := match planned.value with
        | some plan => siblings.insert m.name (plan.fallible || m.fallible)
        | none => siblings
      ({ e with planned := some planned }, siblings)

/-- Plans the methods that convert elements, or those that do not. -/
def planPass (elementwise : Bool) (siblings : Keyed Bool) :
    List Entry → List Entry × Keyed Bool
  | [] => ([], siblings)
  | e :: rest =>
      let (e, siblings) :=
        if isElementwise c e = elementwise then planEntry c siblings e else (e, siblings)
      let (rest, siblings) := planPass elementwise siblings rest
      (e :: rest, siblings)

/-- Methods in the order in which they are planned. -/
def planOrder (entries : List Entry) : List Entry :=
  (entries.filter fun e => !isElementwise c e) ++ entries.filter (isElementwise c)

/-- Plans all methods. -/
def planAll (entries : List Entry) : List Entry :=
  let (entries, siblings) := planPass c false .empty entries
  (planPass c true siblings entries).1

end

namespace Entry

/-- What was recorded while a method was planned. -/
def planningEvents (e : Entry) : List Event := e.planned.toList.flatMap Journaled.events

/-- The diagnostics on a method. -/
def diagnostics (e : Entry) : List Diagnostic :=
  e.prepared.diagnostics ++ Event.diagnostics e.planningEvents

/-- The plan of a method. -/
def plan? (e : Entry) : Option Plan := e.planned.bind Journaled.value

/-- The planned conversion that a method stands for. -/
def conversion? (e : Entry) : Option Conversion := do
  let p ← e.prepared.value
  pure ⟨e.declaration, p.instructions, p.endpoints, ← e.plan?⟩

/-- The report on a method. -/
def report (e : Entry) : MethodReport :=
  ⟨e.interface, e.declaration.name, e.declaration.position,
    e.prepared.value.map Prepared.instructions, e.plan?⟩

/-- How a conversion is called, by its name. -/
def sibling? (e : Entry) : Option (String × CallShape) :=
  e.prepared.value.map fun p => (e.declaration.name, CallShape.of p.instructions p.endpoints)

end Entry

/-! ## Events -/

/-- What was recorded while traits were examined. -/
def examinationEvents (traits : List Examined) : List Event :=
  traits.flatMap fun t => t.own.events ++ t.entries.flatMap fun e => e.prepared.events

/-- What was recorded while methods were planned. -/
def planningEvents (c : Catalog) (entries : List Entry) : List Event :=
  (planOrder c entries).flatMap Entry.planningEvents

/-- The diagnostics on traits and on methods that could not be prepared. -/
def earlyDiagnostics (traits : List Examined) : List Diagnostic :=
  traits.flatMap fun t =>
    t.own.diagnostics
      ++ (t.entries.filter fun e => e.prepared.value.isNone).flatMap fun e =>
        e.prepared.diagnostics

/-- The diagnostics on methods that could be prepared. -/
def lateDiagnostics (entries : List Entry) : List Diagnostic :=
  (entries.filter fun e => e.prepared.value.isSome).flatMap Entry.diagnostics

/-! ## The file -/

/-- The first line of a generated file. -/
def headerText : String := "// Code generated by structcopy-gen. DO NOT EDIT."

/-- What stands in front of the functions of a generated file. -/
def front (unit : SourceUnit) (options : GenerationOptions) : List CodeItem :=
  (if options.header then [.text headerText] else [])
    ++ if unit.uses.isEmpty then [] else [.text ("\n".intercalate unit.uses)]

/-- How the conversions of a file are called, by their names. -/
def callShapes (entries : List Entry) : Keyed CallShape :=
  Keyed.ofList (entries.filterMap Entry.sibling?)

/-- The functions that methods get: one for each that was planned. -/
def functions (c : Catalog) (entries : List Entry) : List FunctionCode :=
  (entries.filterMap Entry.conversion?).map (Conversion.code c (callShapes entries))

/-- The parts of a generated file. -/
def codeItems (unit : SourceUnit) (options : GenerationOptions) (entries : List Entry) :
    List CodeItem :=
  front unit options ++ (functions unit.catalog entries).map .function

/-- The log record for a generated file. -/
def record (unit : SourceUnit) (entries : List Entry) (diagnostics : List Diagnostic) :
    LogRecord :=
  let count := (entries.filter fun e => e.plan?.isSome).length
  ⟨.info,
    s!"{unit.file}: {count} method(s) generated, {diagnostics.length} diagnostic(s)"⟩

end Generation

namespace SourceUnit

open Generation

/-- The methods of a unit on their way, prepared and planned. -/
def entries (unit : SourceUnit) : List Entry :=
  planAll unit.catalog ((unit.interfaces.map examine).flatMap Examined.entries)

/-- The conversions that a unit stands for. -/
def conversions (unit : SourceUnit) : List Conversion := unit.entries.filterMap Entry.conversion?

/-- The functions that are written for a unit. -/
def functions (unit : SourceUnit) : List FunctionCode :=
  Generation.functions unit.catalog unit.entries

/-- The file with a function for every method of a source unit. -/
def generate (unit : SourceUnit) (options : GenerationOptions) : Journaled GeneratedFile :=
  let traits := unit.interfaces.map examine
  let entries := unit.entries
  let diagnostics := earlyDiagnostics traits ++ lateDiagnostics entries
  { value :=
      { file := unit.file
        code := codeText (codeItems unit options entries)
        methods := entries.map Entry.report
        diagnostics := Diagnostic.sorted diagnostics }
    events :=
      examinationEvents traits ++ planningEvents unit.catalog entries
        ++ [.log (record unit entries diagnostics)] }

end SourceUnit

/-- Loads source files and generates a file from them. -/
def GeneratedFile.ofSources (input : Option SourceFile) (includes : List SourceFile)
    (options : GenerationOptions) : Except LoadError (Journaled GeneratedFile) := do
  let unit ← SourceUnit.load input includes options.interfaceName
  pure do
    Journaled.tell [.log (unit.loadRecord includes.length)]
    unit.generate options

end FieldCopy
