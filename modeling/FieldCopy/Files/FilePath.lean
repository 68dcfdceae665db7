import FieldCopy.Text.Blank

/-!
# File paths

A path is a text of pieces with slashes between them.

**Void pieces.**  An empty piece names nothing, and neither does a single dot, except at the front
of a path.  Such pieces at the end of a path, or at the end of what is left when its last piece is
taken away, do not belong to it.

**Names.**  The name of a file is the last piece, unless that leads up or stays; behind the last
dot of a name stands its extension, and the text in front of that dot is its stem.  A dot at the
front of a name separates nothing.
-/

namespace FieldCopy.FilePath

/-- The pieces of a path. -/
def pieces (path : String) : List String :=
  (Text.split ['/'] path.toList).map String.ofList

/-- Whether a piece with an index names nothing. -/
def isVoid (piece : String × Nat) : Bool :=
  piece.1.isEmpty || (piece.1 == "." && piece.2 != 0)

/-- Pieces without void ones at their end. -/
def trim (ps : List String) : List String :=
  ((ps.zipIdx.reverse.dropWhile isVoid).map (·.1)).reverse

/-- Whether a path starts at the root. -/
def isRooted (path : String) : Bool := path.toList.head? == some '/'

/-- The name of the file that a path leads to. -/
def name? (path : String) : Option String :=
  (trim (pieces path)).getLast?.filter fun p => p != "." && p != ".."

/-- The path of what a path lies in. -/
def parent (path : String) : String :=
  let ps := trim (trim (pieces path)).dropLast
  if ps.isEmpty then (if isRooted path then "/" else "") else "/".intercalate ps

/-- The path of a name inside a path. -/
def within (path name : String) : String :=
  if path.isEmpty || path.toList.getLast? == some '/' then path ++ name else path ++ "/" ++ name

/-- The path with another name in the place of its name. -/
def withName (path name : String) : String :=
  within (if (name? path).isSome then parent path else path) name

/-- The stem and the extension of a name. -/
def splitName (name : String) : String × Option String :=
  let reversed := name.toList.reverse
  let extension := reversed.takeWhile (· != '.')
  match reversed.dropWhile (· != '.') with
  | _ :: stem =>
      if stem.isEmpty then (name, none)
      else (String.ofList stem.reverse, some (String.ofList extension.reverse))
  | [] => (name, none)

/-- The stem of the name of a path. -/
def stem (path : String) : String := ((name? path).map fun n => (splitName n).1).getD ""

/-- The extension of the name of a path. -/
def extension? (path : String) : Option String := (name? path).bind fun n => (splitName n).2

/-- Whether names come before others, or are the same. -/
def namesLe : List String → List String → Bool
  | [], _ => true
  | _ :: _, [] => false
  | a :: as, b :: bs => if a = b then namesLe as bs else a < b

end FieldCopy.FilePath
