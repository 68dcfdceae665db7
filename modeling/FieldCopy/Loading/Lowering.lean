import FieldCopy.Catalog.Building
import FieldCopy.Source.TypeName

/-!
# Types of a source file as types of the catalog

`Lowering.type` finds the type of the catalog for a type as written, and adds it and the types
inside it if they are new.

**Names.**  A type is known by its name, so the name is built from the names of the types inside,
not from the text: what is written differently but means the same gets one name.  Paths of
structures and enumerations are replaced by their qualified paths.

**Wrappers.**  A few types are known by the last name of their path: boxes and options are
pointers, vectors are slices, and there are maps.
-/

namespace FieldCopy

open Source

/-- What the names in a module mean. -/
structure Scope where
  /-- The qualified path of an enumeration by every suffix of the path. -/
  enumerations : Keyed String
  /-- The path of the module. -/
  package : String

namespace Scope

/-- Looks up a path inside the module, if it is a single name, and then anywhere. -/
def resolve {α : Type} (s : Scope) (find : String → Option α) (path : String) : Option α :=
  let inner :=
    if !s.package.isEmpty && ModulePath.isSimple path then
      find (ModulePath.inside s.package path)
    else none
  inner <|> find path

/-- The structure that a path leads to. -/
def struct? (s : Scope) (c : Catalog) (path : String) : Option StructId :=
  s.resolve c.structIdAtPath? path

/-- The qualified path of the enumeration that a path leads to. -/
def enumeration? (s : Scope) (path : String) : Option String :=
  s.resolve s.enumerations.find? (ModulePath.withoutRoot path)

end Scope

/-- A computation that may add types to a catalog. -/
abbrev Lowering := StateM Catalog

namespace Lowering

/-- A generic argument: a type still to be found, or the text of anything else. -/
inductive Argument where
  | type (find : Lowering TypeId)
  | text (text : String)

namespace Argument

/-- The type that an argument is. -/
def type? : Argument → Option (Lowering TypeId)
  | type find => some find
  | text _ => none

/-- The name of an argument. -/
def name : Argument → Lowering String
  | type find => do
      let id ← find
      pure ((← get).nameOf id)
  | text t => pure t

end Argument

/-- Finds a type by name, or adds it. -/
def intern (name : String) (shape : Shape) : Lowering TypeId := fun c => c.intern name shape

/-- Finds a type around another, named after it. -/
def around (find : Lowering TypeId) (shape : TypeId → Shape) (name : String → String) :
    Lowering TypeId := do
  let element ← find
  intern (name ((← get).nameOf element)) (shape element)

/-- The last names of the paths of pointers. -/
def pointerNames : List String := ["Box", "Rc", "Arc", "Option"]

/-- The last names of the paths of slices. -/
def sliceNames : List String := ["Vec", "VecDeque"]

/-- The last names of the paths of maps. -/
def mapNames : List String := ["HashMap", "BTreeMap", "IndexMap"]

/-- Finds the map between two types. -/
def mapBetween (written : String) (key value : Lowering TypeId) : Lowering TypeId := do
  let key ← key
  let value ← value
  let c ← get
  intern s!"{written}<{c.nameOf key}, {c.nameOf value}>" (.map key value)

/-- Finds the type of a path that leads to no wrapper. -/
def named (scope : Scope) (written : String) (arguments : List Argument) : Lowering TypeId := do
  let c ← get
  match (scope.struct? c written).bind fun id => (c.structType id).toOption with
  | some (id, c) =>
      set c
      pure id
  | none =>
      let base := (scope.enumeration? written).getD written
      if arguments.isEmpty then intern base .basic
      else
        let names ← arguments.mapM Argument.name
        let inner := ", ".intercalate names
        intern s!"{base}<{inner}>" .basic

/-- Finds the type of a path, given its name, its last name and the arguments of that. -/
def atPath (scope : Scope) (written last : String) (arguments : List Argument) :
    Lowering TypeId :=
  let types := arguments.filterMap Argument.type?
  match types with
  | [element] =>
      if pointerNames.contains last then around element .pointer fun n => s!"{written}<{n}>"
      else if sliceNames.contains last then around element .slice fun n => s!"{written}<{n}>"
      else named scope written arguments
  | key :: value :: _ =>
      if mapNames.contains last then mapBetween written key value
      else named scope written arguments
  | [] => named scope written arguments

/-- What stands in front of the type that a reference leads to. -/
def referenceSign (lifetime : Option String) (mutable : Bool) : String :=
  "&" ++ (match lifetime with | some l => s!"'{l} " | none => "")
    ++ (if mutable then "mut " else "")

/-- Whether a type is the type of texts behind references. -/
def isString : Ty → Bool
  | .path p => p.isName "str"
  | _ => false

mutual

/-- Finds the type of the catalog for a type as written in a module. -/
def type (scope : Scope) : Ty → Lowering TypeId
  | .parenthesized t => type scope t
  | .reference l m (.slice e) =>
      around (type scope e) .slice fun n => s!"{referenceSign l m}[{n}]"
  | .reference l m t =>
      if isString t then intern (Ty.reference l m t).displayName .basic
      else around (type scope t) .pointer fun n => referenceSign l m ++ n
  | .slice e => around (type scope e) .slice fun n => s!"[{n}]"
  | .array e n =>
      around (type scope e) .slice fun name =>
        s!"[{name}; {TypeName.ofLexemes (pieceLexemes n)}]"
  | .path p =>
      match p.last? with
      | some last => atPath scope p.displayName last.name (pathArguments scope p)
      | none => intern p.displayName .unknown
  | .tuple [] _ => intern "()" .basic
  | .tuple (t :: ts) trailing => intern (Ty.tuple (t :: ts) trailing).displayName .unknown
  | .traitObject ps => intern (Ty.traitObject ps).displayName .interface
  | .implTrait ps => intern (Ty.implTrait ps).displayName .interface
  | .qualified s d p => intern (Ty.qualified s d p).displayName .unknown
  | .other ps => intern (Ty.other ps).displayName .unknown

/-- The arguments of the last name of a path. -/
def pathArguments (scope : Scope) : Path → List Argument
  | .mk _ segments => lastArguments scope segments

/-- The arguments of the last of some names. -/
def lastArguments (scope : Scope) : List Segment → List Argument
  | [] => []
  | [s] => segmentArguments scope s
  | _ :: rest => lastArguments scope rest

/-- The arguments of a name. -/
def segmentArguments (scope : Scope) : Segment → List Argument
  | .mk _ (.angled _ items _) => listArguments scope items
  | .mk _ .none => []
  | .mk _ (.called _) => []

/-- Generic arguments, each ready to be found. -/
def listArguments (scope : Scope) : List Source.Argument → List Argument
  | [] => []
  | a :: rest => oneArgument scope a :: listArguments scope rest

/-- A generic argument, ready to be found. -/
def oneArgument (scope : Scope) : Source.Argument → Argument
  | .type t => .type (type scope t)
  | .lifetime n => .text (TypeName.ofLexemes (Source.Argument.lifetime n).lexemes)
  | .other ps => .text (TypeName.ofLexemes (pieceLexemes ps))

end

end Lowering

end FieldCopy
