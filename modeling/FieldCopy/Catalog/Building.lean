import FieldCopy.Catalog.Basic

/-!
# Building a catalog

Each function adds one thing to a catalog.  Numbers are given out in order and never taken back, so
what a number stands for does not change when more is added.

**Structures claim paths.**  A declared structure claims every suffix of its path that no earlier
structure has claimed.  A function takes its path, and its simple name if that is free.

**A finished catalog** has a table of names that is made from its types (`finished`).
-/

namespace FieldCopy.Catalog

/-- The number of the type with this name; a new type gets this shape. -/
def intern (c : Catalog) (name : String) (shape : Shape) : TypeId × Catalog :=
  match c.typeNamed? name with
  | some id => (id, c)
  | none =>
      let id := ⟨c.types.size⟩
      (id, { c with
        types := c.types.push ⟨id, name, shape⟩
        typeNames := c.typeNames.insert name id })

/-- The number of a type without parts. -/
def basic (c : Catalog) (name : String) : TypeId × Catalog := c.intern name .basic

/-- The name of a known type. -/
def nameAt (c : Catalog) (id : TypeId) : Except Dangling String := TypeInfo.name <$> c.typeAt id

/-- The number of a wrapper around a value of a type. -/
def pointerTo (c : Catalog) (wrapper : String) (element : TypeId) :
    Except Dangling (TypeId × Catalog) := do
  pure (c.intern s!"{wrapper}<{← c.nameAt element}>" (.pointer element))

/-- The number of a reference to a value of a type. -/
def referenceTo (c : Catalog) (element : TypeId) : Except Dangling (TypeId × Catalog) := do
  pure (c.intern s!"&{← c.nameAt element}" (.pointer element))

/-- The number of a growable list of values of a type. -/
def listOf (c : Catalog) (element : TypeId) : Except Dangling (TypeId × Catalog) := do
  pure (c.intern s!"Vec<{← c.nameAt element}>" (.slice element))

/-- The number of a map between two types. -/
def mapBetween (c : Catalog) (wrapper : String) (key value : TypeId) :
    Except Dangling (TypeId × Catalog) := do
  pure (c.intern s!"{wrapper}<{← c.nameAt key}, {← c.nameAt value}>" (.map key value))

/-- Declares a structure without fields and methods. -/
def declareStruct (c : Catalog) (name package : String) : StructId × Catalog :=
  let id := ⟨c.structs.size⟩
  let info : StructInfo := ⟨name, package, [], []⟩
  (id, { c with
    structs := c.structs.push info
    structPaths := (ModulePath.suffixes info.path).foldl (fun t p => t.insertIfNew p id)
      c.structPaths })

/-- The number of the type that a structure is. -/
def structType (c : Catalog) (id : StructId) : Except Dangling (TypeId × Catalog) := do
  pure (c.intern (← c.structAt id).path (.struct id))

/-- Whether a field of a type is a pointer, and whether it is a slice or a pointer to one. -/
def fieldShape (c : Catalog) (type : TypeId) : Except Dangling (Bool × Bool) := do
  match (← c.typeAt type).shape with
  | .pointer element =>
      match (← c.typeAt element).shape with
      | .slice _ => pure (true, true)
      | _ => pure (true, false)
  | .slice _ => pure (false, true)
  | _ => pure (false, false)

/-- Changes what is known of a structure. -/
def changeStruct (c : Catalog) (id : StructId) (f : StructInfo → StructInfo) :
    Except Dangling Catalog := do
  let s ← c.structAt id
  pure { c with structs := c.structs.setIfInBounds id.index (f s) }

/-- Adds a field to a structure. -/
def addField (c : Catalog) (id : StructId) (name : String) (type : TypeId) (tag : Option String) :
    Except Dangling Catalog := do
  let (isPointer, isSlice) ← c.fieldShape type
  c.changeStruct id fun s =>
    { s with fields := s.fields ++ [⟨name, type, tag, isPointer, isSlice⟩] }

/-- Adds a method to a structure. -/
def addMethod (c : Catalog) (id : StructId) (m : MethodInfo) : Except Dangling Catalog :=
  c.changeStruct id fun s => { s with methods := s.methods ++ [m] }

/-- Adds a function of a module. -/
def addFunction (c : Catalog) (package : String) (f : FunctionInfo) : Catalog :=
  let qualified :=
    if package.isEmpty then c.functions
    else c.functions.insert (ModulePath.inside package f.name) f
  { c with functions := qualified.insertIfNew f.name f }

/-- Marks a type as one that can be turned into text. -/
def markStringer (c : Catalog) (id : TypeId) : Catalog :=
  if c.stringers.contains id then c else { c with stringers := c.stringers ++ [id] }

/-- The numbers of types by name. -/
def namesOf (types : Array TypeInfo) : Keyed TypeId :=
  .ofList (types.toList.map fun t => (t.name, t.id))

/-- The catalog once nothing is added any more: the table of names is made anew from the types. -/
def finished (c : Catalog) : Catalog := { c with typeNames := namesOf c.types }

end FieldCopy.Catalog
