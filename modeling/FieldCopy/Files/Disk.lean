import FieldCopy.Files.Access
import FieldCopy.Files.FilePath
import FieldCopy.Keyed

/-!
# Disks

A disk is a table of files, and `Disk.access` is the access to them.  A directory exists if
a file lies below it; so does the directory in which a run takes place, and all that it lies in.

A file is known by the names that lead to it from the directory of the run.  Names that lead up
are kept at the front only, and an empty name stands for the root.
-/

namespace FieldCopy

/-- What a file holds. -/
inductive FileContent where
  | text (s : String)
  /-- Bytes that are no text. -/
  | bytes
  deriving DecidableEq

/-- A table of files. -/
structure Disk where
  files : Keyed FileContent
  deriving DecidableEq

namespace Disk

/-- The key of the file to which names lead. -/
def key (names : List String) : String := "/".intercalate names

/-- The file to which names lead. -/
def file? (d : Disk) (names : List String) : Option FileContent := d.files.find? (key names)

/-- Whether names lead to a directory. -/
def isDirectory (d : Disk) (names : List String) : Bool :=
  names.all (fun n => n.isEmpty || n == "..")
    || d.files.entries.any fun e => (key names ++ "/").toList.isPrefixOf e.1.toList

/-- The names that lead to what one lies in. -/
def up (names : List String) : List String :=
  match names.getLast? with
  | none => [".."]
  | some n => if n.isEmpty then names else if n == ".." then names ++ [".."] else names.dropLast

/-- The directory that a piece of a path leads to from another. -/
def enter (d : Disk) (names : List String) (piece : String) : Except FileError (List String) :=
  if piece.isEmpty || piece == "." then .ok names
  else if piece == ".." then .ok (up names)
  else
    let inner := names ++ [piece]
    if d.isDirectory inner then .ok inner
    else if (d.file? inner).isSome then .error .notDirectory
    else .error .missing

/-- Where a path starts. -/
def origin (path : String) : List String := if FilePath.isRooted path then [""] else []

/-- The names to which a path leads, and whether it can only lead to a directory. -/
def locate (d : Disk) (path : String) : Except FileError (List String × Bool) := do
  if path.isEmpty then throw .missing
  let ps := FilePath.pieces path
  let outer ← ps.dropLast.foldlM d.enter (origin path)
  match ps.getLast? with
  | some last =>
      if last.isEmpty || last == "." || last == ".." then pure (← d.enter outer last, true)
      else pure (outer ++ [last], false)
  | none => throw .missing

/-- The text of a file. -/
def read (d : Disk) (path : String) : Except FileError String := do
  let (names, _) ← d.locate path
  match d.file? names with
  | some (.text s) => pure s
  | some .bytes => throw .notText
  | none => if d.isDirectory names then throw .isDirectory else throw .missing

/-- A path without slashes at its end. -/
def withoutSlashes (path : String) : String :=
  String.ofList (Text.dropRepeatedEnd ['/'] path.toList)

/-- The disk on which a file has a text. -/
def write (d : Disk) (path text : String) : Except FileError Disk := do
  let (names, onlyDirectory) ← d.locate (if path.isEmpty then "" else
    if (withoutSlashes path).isEmpty then path else withoutSlashes path)
  if onlyDirectory || path.toList.getLast? == some '/' || d.isDirectory names then
    throw .isDirectory
  else pure ⟨d.files.insert (key names) (.text text)⟩

/-- Whether a path leads to a file that is no directory. -/
def isFile (d : Disk) (path : String) : Bool :=
  match d.locate path with
  | .ok (names, _) => (d.file? names).isSome
  | .error _ => false

/-- The non-empty beginnings of a list, the whole list included. -/
def beginnings {α : Type} : List α → List (List α)
  | [] => []
  | a :: rest => [a] :: (beginnings rest).map (a :: ·)

/-- A directory and all that lies below it. -/
def below (d : Disk) (path : String) : List (List String) :=
  match d.locate path with
  | .ok (names, _) =>
      if d.isDirectory names then
        let front := if names.isEmpty then "" else key names ++ "/"
        let found := d.files.entries.filterMap fun e =>
          (front.toList.isPrefixOf? e.1.toList).map fun rest =>
            FilePath.pieces (String.ofList rest)
        let inside := if names.isEmpty then found.filter (·.head? != some "..") else found
        [] :: (inside.flatMap beginnings).eraseDups
      else []
  | .error _ => []

/-- The access to the files of a disk. -/
def access : FileAccess (StateM Disk) where
  read path := do pure ((← get).read path)
  write path text := do
    match (← get).write path text with
    | .ok d =>
        set d
        pure (.ok ())
    | .error e => pure (.error e)
  isFile path := do pure ((← get).isFile path)
  below path := do pure ((← get).below path)

end Disk

end FieldCopy
