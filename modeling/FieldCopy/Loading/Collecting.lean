import FieldCopy.Loading.Lowering
import FieldCopy.Loading.SerializedName

/-!
# What source files declare

The catalog of a set of files is collected in two passes over all of them.

**Declaring.**  The first pass makes the structures and enumerations of all files known by name.

**Defining.**  The second pass finds the types of fields, parameters and results, all names being
known now, and adds fields, methods and functions.

Both passes go into the modules whose items stand in a file.
-/

namespace FieldCopy

open Source

/-- The names that a set of files declares. -/
structure Declared where
  catalog : Catalog
  /-- The qualified path of an enumeration by every suffix of the path. -/
  enumerations : Keyed String

namespace Declared

/-- Nothing is declared. -/
def empty : Declared := ⟨.empty, .empty⟩

/-- Declares a structure of a module. -/
def addStruct (d : Declared) (package name : String) : Declared :=
  { d with catalog := (d.catalog.declareStruct name package).2 }

/-- Declares an enumeration of a module.  It claims the suffixes of its path that are free. -/
def addEnumeration (d : Declared) (package name : String) : Declared :=
  let path := ModulePath.inside package name
  { d with
    enumerations :=
      (ModulePath.suffixes path).foldl (fun t s => t.insertIfNew s path) d.enumerations }

mutual

/-- Declares what an item of a module declares. -/
def addItem (package : String) (d : Declared) : Item → Declared
  | .record name _ => d.addStruct package name
  | .enumeration name => d.addEnumeration package name
  | .module name items => addItems (ModulePath.inside package name) d items
  | .function _ | .implementation _ | .trait _ | .use _ | .other => d

/-- Declares what the items of a module declare. -/
def addItems (package : String) (d : Declared) : List Item → Declared
  | [] => d
  | i :: rest => addItems package (addItem package d i) rest

end

end Declared

/-- The type of a value and the type of a failure, if the type is a result of either. -/
def Source.Ty.outcome? : Ty → Option (Ty × Option Ty)
  | .path p =>
      p.last?.bind fun last =>
        if last.name == "Result" then
          match last.arguments.types with
          | value :: failure :: _ => some (value, some failure)
          | [value] => some (value, none)
          | [] => none
        else none
  | _ => none

/-- The types of a function's parameters and its result. -/
structure SignatureTypes where
  parameters : List TypeId
  /-- The result, without the failure of a fallible function. -/
  result : Option TypeId
  fallible : Bool

namespace Lowering

/-- Finds the types of a function's parameters and its result. -/
def signature (scope : Scope) (s : Signature) : Lowering SignatureTypes := do
  let parameters ← s.parameters.mapM fun p => type scope p.type
  match s.result with
  | none => pure ⟨parameters, none, false⟩
  | some t =>
      match t.outcome? with
      | some (value, _) => pure ⟨parameters, some (← type scope value), true⟩
      | none => pure ⟨parameters, some (← type scope t), false⟩

/-- Changes the catalog.  A change that a number without meaning makes impossible is not made. -/
def change (f : Catalog → Except Dangling Catalog) : Lowering Unit :=
  modify fun c => (f c).toOption.getD c

/-- Adds a field to a structure. -/
def field (scope : Scope) (id : StructId) (f : Field) : Lowering Unit := do
  let t ← type scope f.type
  let name := String.ofList (Text.dropRepeated "r#".toList f.name.toList)
  change fun c => c.addField id name t (SerializedName.ofAttributes? f.attributes)

/-- Adds a method to a structure.  A function without a receiver is none. -/
def method (scope : Scope) (id : StructId) (s : Signature) : Lowering Unit := do
  if s.hasReceiver then
    let types ← signature scope s
    change fun c =>
      c.addMethod id ⟨s.name, types.parameters.length, types.result, types.fallible⟩

/-- Adds a function of a module. -/
def function (scope : Scope) (s : Signature) : Lowering Unit := do
  let types ← signature scope s
  modify fun c => c.addFunction scope.package
    ⟨s.name, types.parameters, types.result, types.fallible⟩

/-- Adds what is implemented for a type: its own methods, or the fact that it can be turned into
text. -/
def implementation (scope : Scope) (i : Implementation) : Lowering Unit := do
  match i.traitPath with
  | some t =>
      if t.last?.any fun s => s.name == "Display" then
        let subject ← type scope i.subject
        modify fun c => c.markStringer subject
  | none =>
      match i.subject with
      | .path p | .qualified _ _ p =>
          match scope.struct? (← get) p.displayName with
          | some id => i.functions.forM (method scope id)
          | none => pure ()
      | _ => pure ()

mutual

/-- Adds what an item of a module defines. -/
def item (scope : Scope) : Item → Lowering Unit
  | .record name fields => do
      match scope.struct? (← get) name with
      | some id => fields.forM (field scope id)
      | none => pure ()
  | .implementation i => implementation scope i
  | .function s => function scope s
  | .module name inner => items { scope with package := ModulePath.inside scope.package name } inner
  | .enumeration _ | .trait _ | .use _ | .other => pure ()

/-- Adds what the items of a module define. -/
def items (scope : Scope) : List Item → Lowering Unit
  | [] => pure ()
  | i :: rest => do
      item scope i
      items scope rest

end

end Lowering

end FieldCopy
