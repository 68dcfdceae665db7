import FieldCopy.Declaration
import FieldCopy.Journal
import FieldCopy.Loading.Collecting
import FieldCopy.Loading.Documentation

/-!
# Loading source files

`SourceUnit.load` makes a source unit of an input file and of files that are included.  The catalog
covers all of them; traits and imports are those of the input file.
-/

namespace FieldCopy

/-- A source file. -/
structure SourceFile where
  name : String
  /-- The path of the module that the file holds. -/
  package : String
  text : String

/-- Why there is no source unit. -/
inductive LoadError where
  | noInput
  /-- The text of this file is not a source text. -/
  | unparsable (file : String)
  deriving DecidableEq

/-- The items of a source file. -/
structure ParsedFile where
  package : String
  items : List Source.Item

namespace SourceFile

/-- The items of a file. -/
def parse (f : SourceFile) : Except LoadError ParsedFile :=
  match Source.parseItems? f.text with
  | some items => .ok ⟨f.package, items⟩
  | none => .error (.unparsable f.name)

end SourceFile

/-- What is known once all files have declared their structures and enumerations. -/
def Declared.ofFiles (files : List ParsedFile) : Declared :=
  files.foldl (fun d f => d.addItems f.package f.items) .empty

/-! ## Traits -/

namespace Interface

/-- A parameter of a method.  One without a name is named after its index. -/
def parameter (scope : Scope) (p : Source.Parameter) (index : Nat) : Lowering Parameter := do
  pure ⟨p.name.getD s!"arg{index}", ← Lowering.type scope p.type, p.type.displayName⟩

/-- The result of a method, under the name of a destination. -/
def result (scope : Scope) (t : Source.Ty) : Lowering Parameter := do
  pure ⟨"dst", ← Lowering.type scope t, t.displayName⟩

/-- A function of a trait as a method that stands for a conversion. -/
def method (scope : Scope) (file : String) (f : Source.TraitFunction) : Lowering Declaration := do
  let s := f.signature
  let documentation := Documentation.ofAttributes file f.attributes
  let parameters ← s.parameters.zipIdx.mapM fun (p, index) => parameter scope p index
  let declaration : Declaration :=
    { name := s.name, position := ⟨file, s.place.line, s.place.column⟩
      docs := documentation.docs, lines := documentation.lines, parameters
      result := none, fallible := false, errorType := none }
  match s.result with
  | none => pure declaration
  | some t =>
      match t.outcome? with
      | some (value, failure) =>
          pure { declaration with
            result := some (← result scope value), fallible := true,
            errorType := failure.map Source.Ty.displayName }
      | none => pure { declaration with result := some (← result scope t) }

/-- A trait of a file with its conversions, if it has this name or is marked as one that has. -/
def ofTrait? (scope : Scope) (file name : String) (t : Source.Trait) :
    Lowering (Option Interface) := do
  let documentation := Documentation.ofAttributes file t.attributes
  if t.name == name || documentation.isMarked then
    let methods ← t.functions.mapM (method scope file)
    pure (some ⟨t.name, ⟨file, t.place.line, t.place.column⟩, documentation.lines, methods⟩)
  else pure none

/-- The traits with conversions among the items of a file. -/
def ofItems (scope : Scope) (file name : String) : List Source.Item → Lowering (List Interface)
  | [] => pure []
  | .trait t :: rest => do
      let first ← ofTrait? scope file name t
      pure (first.toList ++ (← ofItems scope file name rest))
  | _ :: rest => ofItems scope file name rest

end Interface

/-! ## Source units -/

namespace SourceUnit

/-- The name of the trait whose methods are conversions even if it is not marked. -/
def defaultInterfaceName : String := "StructCopyGen"

/-- The import that an item is, as text. -/
def useText? : Source.Item → Option String
  | .use u => some u.text
  | _ => none

/-- Adds the items of all files to the catalog and gives the traits with conversions of the input
file. -/
def collect (file interfaceName : String) (input : ParsedFile) (includes : List ParsedFile) :
    Lowering (List Interface) := do
  let files := input :: includes
  let declared := Declared.ofFiles files
  let scope (package : String) : Scope := ⟨declared.enumerations, package⟩
  files.forM fun f => Lowering.items (scope f.package) f.items
  Interface.ofItems (scope "") file interfaceName input.items

/-- The source unit of an input file with these items and of the included files. -/
def ofParsed (file interfaceName : String) (input : ParsedFile) (includes : List ParsedFile) :
    SourceUnit :=
  let (interfaces, catalog) :=
    collect file interfaceName input includes (Declared.ofFiles (input :: includes)).catalog
  ⟨file, catalog.finished, interfaces, input.items.filterMap useText?⟩

/-- The source unit of an input file and of included files.  The first file that cannot be parsed
makes it impossible. -/
def load (input : Option SourceFile) (includes : List SourceFile) (interfaceName : String) :
    Except LoadError SourceUnit := do
  match input with
  | none => .error .noInput
  | some f =>
      let first ← f.parse
      let rest ← includes.mapM SourceFile.parse
      pure (ofParsed f.name interfaceName first rest)

/-- The log record for a source unit that was loaded. -/
def loadRecord (u : SourceUnit) (includeCount : Nat) : LogRecord :=
  ⟨.debug, s!"loaded {u.file} with {includeCount} include(s): {u.interfaces.length} interface(s)"⟩

end SourceUnit

end FieldCopy
