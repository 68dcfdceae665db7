import FieldCopy.Fault
import FieldCopy.Instructions
import FieldCopy.Plan.Basic

/-!
# Matching one field

Which member of the source produces a field of the destination, and how.

**Precedence.**  A literal wins over a skip pattern, a skip pattern over a method, a method over a
converter, a converter over automatic matching.  The source member of a converter or of a plain copy
is the one an override names, or else the one that matches (`Matching.accessor?`).

**Paths.**  An override may name a path of fields and getters.  A path that cannot be followed in
the catalog is trusted and used as it is written.
-/

namespace FieldCopy

/-- A member of the source, or of a structure inside it, with its type. -/
structure Accessor where
  /-- The path to the member, a getter with its parentheses. -/
  path : String
  type : TypeId
  isGetter : Bool
  deriving DecidableEq

/-- What there is to match a field against. -/
structure Matching where
  catalog : Catalog
  instructions : Instructions
  source : StructInfo
  /-- The name of the conversion. -/
  method : String
  /-- Where diagnostics are placed. -/
  anchor : Position

namespace Matching

/-! ## Members -/

/-- The field as a member. -/
def ofField (f : FieldInfo) : Accessor := ⟨f.name, f.type, false⟩

/-- The method as a member, if it is a getter. -/
def ofMethod? (m : MethodInfo) : Option Accessor :=
  if m.isGetter then m.result.map fun t => ⟨m.name ++ "()", t, true⟩ else none

/-- The source field that matches a field of the destination. -/
def matchingField? (k : Matching) (field : FieldInfo) : Option FieldInfo :=
  match k.instructions.matching with
  | .tag => k.source.fields.find? fun f => k.instructions.sameName f.key field.key
  | _ => k.source.field? field.name k.instructions.caseSensitive

/-- The getter of the source that matches a field of the destination, where getters may be
used. -/
def matchingGetter? (k : Matching) (field : FieldInfo) : Option Accessor :=
  if k.instructions.getters then
    (k.source.method? field.name k.instructions.caseSensitive).bind ofMethod?
  else none

/-- The member that matches a field of the destination: a field, or else a getter. -/
def accessor? (k : Matching) (field : FieldInfo) : Option Accessor :=
  (k.matchingField? field).map ofField <|> k.matchingGetter? field

/-! ## Paths -/

/-- The name of a method in front of the parentheses of its call. -/
def calledName? (segment : String) : Option String :=
  (['(', ')'].reverse.isPrefixOf? segment.toList.reverse).map fun s => String.ofList s.reverse

/-- The member of a structure that one segment of a path names. -/
def member? (s : StructInfo) (caseSensitive : Bool) (segment : String) : Option Accessor :=
  match calledName? segment with
  | some name => (s.method? name caseSensitive).bind ofMethod?
  | none => (s.field? segment caseSensitive).map ofField

/-- The member at the end of a path that starts at a structure, the segments in front of it being
`done`.  A path that cannot be followed has none. -/
def follow (c : Catalog) (caseSensitive : Bool) (s : StructInfo) (done : List String) :
    List String → Except Dangling (Option Accessor)
  | [] => pure none
  | segment :: rest =>
      match member? s caseSensitive segment with
      | none => pure none
      | some m =>
          let done := done ++ [m.path]
          if rest.isEmpty then pure (some ⟨".".intercalate done, m.type, m.isGetter⟩)
          else do
            match ← c.structOf m.type with
            | some inner => follow c caseSensitive inner done rest
            | none => pure none

/-- The segments of a path. -/
def segments (path : String) : List String := (path.toList.splitOn '.').map String.ofList

/-- The member at the end of a path. -/
def resolvePath (k : Matching) (path : String) : Except Dangling (Option Accessor) :=
  follow k.catalog k.instructions.caseSensitive k.source [] (segments path)

/-! ## Assignments -/

/-- Records a warning about a field. -/
def warn (k : Matching) (message : String) : Attempt Unit := Attempt.warnAt k.anchor message

/-- A field produced by a converter from the member at a path.  A converter that is unknown gets a
reference and is taken not to fail. -/
def converterCall (k : Matching) (field source function : String) : Attempt Assignment := do
  match k.catalog.function? function with
  | none => pure (.converter field source function true false)
  | some f =>
      match f.parameters, f.result with
      | [input], some _ =>
          let t ← Attempt.known (k.catalog.typeAt input)
          pure (.converter field source function (t.name.startsWith "&") f.fallible)
      | _, _ =>
          k.warn (k.method ++ ": field \"" ++ field ++ "\": converter " ++ function
            ++ " must take one argument and return a value")
          pure (.skip field .converterSignature)

/-- A field produced from a member of the source without a converter: copied if the types are the
same, turned into text or cast where that is allowed. -/
def assignMember (k : Matching) (field : FieldInfo) (m : Accessor) : Attempt Assignment := do
  let c := k.catalog
  let source ← Attempt.known (c.typeAt m.type)
  let target ← Attempt.known (c.typeAt field.type)
  if m.type = field.type then
    if m.isGetter then
      let called := Text.dropRepeatedEnd ['(', ')'] m.path.toList
      pure (.getter field.name (String.ofList called))
    else pure (.copy field.name m.path)
  else
    let stringer ←
      if k.instructions.stringers && target.isText then Attempt.known (c.isStringer m.type)
      else pure false
    if stringer then pure (.stringer field.name m.path)
    else if k.instructions.casts && source.isBasic && target.isBasic then
      pure (.cast field.name m.path target.name)
    else
      k.warn (k.method ++ ": field \"" ++ field.name ++ "\": type mismatch, " ++ source.name
        ++ " cannot be assigned to " ++ target.name)
      pure (.skip field.name .typeMismatch)

/-- Notes that a path is used as it is written. -/
def noteTrusted (k : Matching) (field path : String) : Attempt Unit :=
  Attempt.log .debug (k.method ++ ": source path " ++ Labelled.text path ++ " for \"" ++ field
    ++ "\" is not resolvable, used as written")

/-- A field produced from a path that is used as it is written. -/
def assignTrusted (k : Matching) (field path : String) (converter : Option Converter) :
    Attempt Assignment := do
  k.noteTrusted field path
  match converter with
  | some c => k.converterCall field path c.function
  | none => pure (.copy field path)

/-- A field produced from a member of the source. -/
def assignFound (k : Matching) (field : FieldInfo) (m : Accessor) (converter : Option Converter) :
    Attempt Assignment :=
  match converter with
  | some c => k.converterCall field.name m.path c.function
  | none => k.assignMember field m

/-- A field produced from the member that an override names, or else from the one that matches. -/
def assignMatched (k : Matching) (field : FieldInfo) : Attempt Assignment := do
  let i := k.instructions
  let converter := i.override? i.converters field.name
  match (converter.bind Converter.source) <|> i.override? i.fieldOverrides field.name with
  | some path =>
      match ← Attempt.known (k.resolvePath path) with
      | some m => k.assignFound field m converter
      | none => k.assignTrusted field.name path converter
  | none =>
      if i.matching = .none && converter.isNone then pure (.skip field.name .matchDisabled)
      else
        match k.accessor? field, converter with
        | some m, _ => k.assignFound field m converter
        | none, some _ => k.assignTrusted field.name field.name converter
        | none, none =>
            k.warn (k.method ++ ": no source member matches destination field \"" ++ field.name
              ++ "\"")
            pure (.skip field.name .noMatch)

/-- How a field of the destination is produced. -/
def decide (k : Matching) (field : FieldInfo) : Attempt Assignment := do
  let i := k.instructions
  match i.override? i.literals field.name with
  | some text => pure (.literal field.name text)
  | none =>
      if i.skipped field.name then pure (.skip field.name .directive)
      else
        match i.override? i.methodOverrides field.name with
        | some m =>
            let known := k.source.method? m i.caseSensitive
            pure (.method field.name m (known.any MethodInfo.fallible))
        | none => k.assignMatched field

/-- How a field of the destination is produced, noted in the log. -/
def resolve (k : Matching) (field : FieldInfo) : Attempt Assignment := do
  let a ← k.decide field
  Attempt.log .trace (k.method ++ ": " ++ field.name ++ " <- " ++ a.label)
  pure a

end Matching

end FieldCopy
