import FieldCopy.Catalog.ModulePath
import FieldCopy.Keyed
import FieldCopy.Text.AsciiCase

/-!
# The catalog of types

The catalog describes the types, structures and functions that conversions are made of.  Types and
structures are numbered in the order in which they become known, and refer to each other by number,
so structures may refer to each other in a circle.

**Types are known by name.**  Asking twice for a type of one name gives one number (`intern`), so
two types are equal exactly when their numbers are.

**Unknown numbers.**  A number that belongs to no type or structure is `Dangling`.  Operations that
look such a number up fail; those that only store a number do not look.
-/

namespace FieldCopy

/-- The number of a type. -/
structure TypeId where
  index : Nat
  deriving DecidableEq, Inhabited

/-- The number of a structure. -/
structure StructId where
  index : Nat
  deriving DecidableEq, Inhabited

/-- What a type is made of. -/
inductive Shape where
  | basic
  /-- A reference, or a wrapper around a single value. -/
  | pointer (element : TypeId)
  | slice (element : TypeId)
  | map (key value : TypeId)
  | struct (definition : StructId)
  /-- A type that is known by its traits only. -/
  | interface
  | unknown
  deriving DecidableEq

namespace Shape

/-- The word for the kind of a shape. -/
def kind : Shape → String
  | basic => "Basic"
  | pointer _ => "Pointer"
  | slice _ => "Slice"
  | map _ _ => "Map"
  | struct _ => "Struct"
  | interface => "Interface"
  | unknown => "Unknown"

/-- The type that a pointer points to or a slice consists of. -/
def element? : Shape → Option TypeId
  | pointer e | slice e => some e
  | _ => none

/-- The structure of a shape. -/
def struct? : Shape → Option StructId
  | struct d => some d
  | _ => none

end Shape

/-- A type of the catalog. -/
structure TypeInfo where
  /-- The number of the type. -/
  id : TypeId
  /-- The display name, which is also a text for the type. -/
  name : String
  shape : Shape
  deriving DecidableEq

namespace TypeInfo

/-- The names of the number types. -/
def numericNames : List String :=
  ["i8", "i16", "i32", "i64", "i128", "isize", "u8", "u16", "u32", "u64", "u128", "usize", "f32",
    "f64"]

/-- Whether the type is a number type. -/
def isNumeric (t : TypeInfo) : Bool := numericNames.contains t.name

/-- Whether values of the type are copied by assigning them. -/
def isScalar (t : TypeInfo) : Bool := t.isNumeric || t.name == "bool" || t.name == "char"

/-- The names of the types that hold a text. -/
def textNames : List String :=
  ["String", "str", "&str", "&'static str", "Cow<str>", "Cow<'static, str>"]

/-- Whether a text can be assigned to a value of the type. -/
def isText (t : TypeInfo) : Bool := textNames.contains t.name

/-- Whether the type has no parts. -/
def isBasic (t : TypeInfo) : Bool := t.shape = .basic

end TypeInfo

/-- A field of a structure. -/
structure FieldInfo where
  name : String
  type : TypeId
  /-- The name under which the field is serialized, if it has one of its own. -/
  tag : Option String
  isPointer : Bool
  isSlice : Bool
  deriving DecidableEq

namespace FieldInfo

/-- The name under which the field is serialized. -/
def key (f : FieldInfo) : String := f.tag.getD f.name

end FieldInfo

/-- A method of a structure. -/
structure MethodInfo where
  name : String
  /-- The number of parameters besides the receiver. -/
  parameterCount : Nat
  /-- The type of the result, without the failure of a fallible method. -/
  result : Option TypeId
  fallible : Bool
  deriving DecidableEq

/-- A method that takes nothing, gives a value and cannot fail. -/
def MethodInfo.isGetter (m : MethodInfo) : Bool :=
  m.parameterCount = 0 && m.result.isSome && !m.fallible

/-- A free function. -/
structure FunctionInfo where
  name : String
  parameters : List TypeId
  result : Option TypeId
  fallible : Bool
  deriving DecidableEq

/-- A structure. -/
structure StructInfo where
  name : String
  /-- The path of its module. -/
  package : String
  /-- The fields in the order of their declaration. -/
  fields : List FieldInfo
  methods : List MethodInfo
  deriving DecidableEq

/-- The first item with this name; ignoring case, the first with a name that differs in case only
if no name is the same. -/
def findNamed? {α : Type} (nameOf : α → String) (items : List α) (name : String)
    (caseSensitive : Bool) : Option α :=
  match items.find? fun i => nameOf i == name with
  | some i => some i
  | none =>
      if caseSensitive then none else items.find? fun i => sameIgnoringCase (nameOf i) name

namespace StructInfo

/-- The path of the structure. -/
def path (s : StructInfo) : String := ModulePath.inside s.package s.name

def field? (s : StructInfo) (name : String) (caseSensitive : Bool) : Option FieldInfo :=
  findNamed? FieldInfo.name s.fields name caseSensitive

def method? (s : StructInfo) (name : String) (caseSensitive : Bool) : Option MethodInfo :=
  findNamed? MethodInfo.name s.methods name caseSensitive

end StructInfo

/-- The types, structures and functions that are known. -/
structure Catalog where
  types : Array TypeInfo
  /-- The number of each type by its name. -/
  typeNames : Keyed TypeId
  structs : Array StructInfo
  /-- The number of a structure by every suffix of its path. -/
  structPaths : Keyed StructId
  /-- The types that can be turned into text. -/
  stringers : List TypeId
  /-- The functions by path, and by name. -/
  functions : Keyed FunctionInfo

/-- A number without a type or structure. -/
inductive Dangling where
  | type (id : TypeId)
  | struct (id : StructId)
  deriving DecidableEq

namespace Catalog

/-- The catalog that knows nothing. -/
def empty : Catalog := ⟨#[], .empty, #[], .empty, [], .empty⟩

instance : Inhabited Catalog := ⟨empty⟩

/-! ## Looking up -/

def type? (c : Catalog) (id : TypeId) : Option TypeInfo := c.types[id.index]?

def struct? (c : Catalog) (id : StructId) : Option StructInfo := c.structs[id.index]?

/-- The name of a type; an unknown number has an empty name. -/
def nameOf (c : Catalog) (id : TypeId) : String := ((c.type? id).map TypeInfo.name).getD ""

/-- The type with this number. -/
def typeAt (c : Catalog) (id : TypeId) : Except Dangling TypeInfo :=
  match c.type? id with
  | some t => .ok t
  | none => .error (.type id)

/-- The structure with this number. -/
def structAt (c : Catalog) (id : StructId) : Except Dangling StructInfo :=
  match c.struct? id with
  | some s => .ok s
  | none => .error (.struct id)

/-- The number of the type with this name. -/
def typeNamed? (c : Catalog) (name : String) : Option TypeId := c.typeNames.find? name

/-- What a table has for a written path: for the whole path, else for its last two names, else for
its last name. -/
def lookPath {α : Type} (table : Keyed α) (written : String) : Option α :=
  let path := ModulePath.withoutRoot written
  let names := ModulePath.segments path
  let lastTwo := ModulePath.join (names.drop (names.length - 2))
  table.find? path
    <|> (if names.length > 2 then table.find? lastTwo else none)
    <|> names.getLast?.bind table.find?

/-- The number of the structure that a written path leads to. -/
def structIdAtPath? (c : Catalog) (written : String) : Option StructId :=
  lookPath c.structPaths written

/-- The function that a written path leads to: the longest suffix of the path that is known
counts. -/
def function? (c : Catalog) (written : String) : Option FunctionInfo :=
  (ModulePath.suffixes written).findSome? c.functions.find?

/-! ## Looking through pointers -/

/-- The type behind at most `fuel` pointers. -/
def stripFuel (c : Catalog) : Nat → TypeId → Except Dangling TypeId
  | 0, id => .error (.type id)
  | n + 1, id =>
      match c.type? id with
      | none => .error (.type id)
      | some t =>
          match t.shape with
          | .pointer element => c.stripFuel n element
          | _ => .ok id

/-- The type behind all pointers.  A circle of pointers leads to no type. -/
def strip (c : Catalog) (id : TypeId) : Except Dangling TypeId := c.stripFuel (c.types.size + 1) id

/-- The type behind all pointers, with what is known of it. -/
def stripped (c : Catalog) (id : TypeId) : Except Dangling TypeInfo := do c.typeAt (← c.strip id)

/-- The number of the structure behind all pointers, if there is one. -/
def structIdOf (c : Catalog) (id : TypeId) : Except Dangling (Option StructId) := do
  let t ← c.stripped id
  pure (t.shape.struct?.filter fun d => (c.struct? d).isSome)

/-- The structure behind all pointers, if there is one. -/
def structOf (c : Catalog) (id : TypeId) : Except Dangling (Option StructInfo) := do
  pure ((← c.structIdOf id).bind c.struct?)

/-- The number of the structure that the elements of a slice are, pointers in front of the slice and
in front of the elements being looked through. -/
def elementStructIdOf (c : Catalog) (id : TypeId) : Except Dangling (Option StructId) := do
  match (← c.stripped id).shape with
  | .slice element => c.structIdOf element
  | _ => pure none

/-- The structure that the elements of a slice are. -/
def elementStructOf (c : Catalog) (id : TypeId) : Except Dangling (Option StructInfo) := do
  pure ((← c.elementStructIdOf id).bind c.struct?)

/-- Whether the type behind all pointers can be turned into text. -/
def isStringer (c : Catalog) (id : TypeId) : Except Dangling Bool := do
  pure (c.stringers.contains (← c.strip id))

end Catalog

end FieldCopy
