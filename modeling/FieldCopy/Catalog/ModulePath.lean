import FieldCopy.Text.Blank

/-!
# Module paths

A module path is a text of names with two colons between them.  A name inside a module is found by
its *qualified* path; a written path may be shorter, so the suffixes of a path matter as well.
-/

namespace FieldCopy.ModulePath

/-- The names of a path. -/
def segments (path : String) : List String :=
  (Text.split [':', ':'] path.toList).map String.ofList

/-- The path made of these names. -/
def join (names : List String) : String := "::".intercalate names

/-- The path of a name inside a module.  The root module has an empty path. -/
def inside (package name : String) : String :=
  if package.isEmpty then name else package ++ "::" ++ name

/-- A written path without the words that lead to the root or the current module. -/
def withoutRoot (path : String) : String :=
  String.ofList
    (Text.dropRepeated "self::".toList (Text.dropRepeated "crate::".toList path.toList))

/-- The non-empty suffixes of a list, the longest first. -/
def tails {α : Type} : List α → List (List α)
  | [] => []
  | a :: rest => (a :: rest) :: tails rest

/-- The paths made of the last names of a path, the whole path first. -/
def suffixes (path : String) : List String := (tails (segments path)).map join

/-- Whether a path is a single name. -/
def isSimple (path : String) : Bool := (Text.cutAt [':', ':'] path.toList).isNone

end FieldCopy.ModulePath
