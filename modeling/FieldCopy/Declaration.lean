import FieldCopy.Catalog.Basic
import FieldCopy.Directive.Line

/-!
# Declarations of conversions

The methods of a trait stand for conversions that are to be generated.  A *source unit* is what a
generation starts from: the traits of one file with such methods, the imports of the file, and the
catalog of everything the methods may refer to.
-/

namespace FieldCopy

/-- A parameter of a method, or its result. -/
structure Parameter where
  name : String
  type : TypeId
  /-- The type as it is written, paths of the prelude shortened. -/
  written : String
  deriving DecidableEq

/-- A method that stands for a conversion. -/
structure Declaration where
  name : String
  position : Position
  /-- The lines of the documentation that hold no directive. -/
  docs : List String
  lines : List Annotation
  parameters : List Parameter
  /-- The result, without the failure of a fallible method. -/
  result : Option Parameter
  fallible : Bool
  /-- The type of the failure as it is written. -/
  errorType : Option String

/-- A trait with conversions. -/
structure Interface where
  name : String
  position : Position
  lines : List Annotation
  methods : List Declaration

/-- What a generation starts from. -/
structure SourceUnit where
  file : String
  catalog : Catalog
  interfaces : List Interface
  /-- The imports of the file. -/
  uses : List String

end FieldCopy
