/-!
# Access to files

What a run needs of files, whatever keeps them.
-/

namespace FieldCopy

/-- Why a file cannot be read or written. -/
inductive FileError where
  | missing
  | isDirectory
  | notDirectory
  /-- The content of the file is no text. -/
  | notText
  | other (explanation : String)
  deriving DecidableEq

/-- The words for an error. -/
def FileError.text : FileError → String
  | missing => "No such file or directory (os error 2)"
  | isDirectory => "Is a directory (os error 21)"
  | notDirectory => "Not a directory (os error 20)"
  | notText => "stream did not contain valid UTF-8"
  | other e => e

/-- Access to files in a monad `m`. -/
structure FileAccess (m : Type → Type) where
  /-- The text of a file. -/
  read : String → m (Except FileError String)
  /-- Gives a file a text.  A new file needs a directory that exists. -/
  write : String → String → m (Except FileError Unit)
  /-- Whether a path leads to a file that is no directory. -/
  isFile : String → m Bool
  /-- The directory that a path leads to and all that lies below it, in any order, each by the names
  that lead to it.  Nothing, if the path leads to no directory. -/
  below : String → m (List (List String))

end FieldCopy
