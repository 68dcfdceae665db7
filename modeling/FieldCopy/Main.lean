import FieldCopy.Command.Execution

/-!
# The program

Answers the command line with the files of the computer.
-/

namespace FieldCopy

/-- What an error of the system is to a run. -/
def FileError.ofSystem : IO.Error → FileError
  | .noFileOrDirectory .. | .noSuchThing .. => .missing
  | .inappropriateType .. => .notDirectory
  | .permissionDenied .. => .other "Permission denied (os error 13)"
  | e => .other (toString e)

/-- The result of an action that may meet an error of the system. -/
def attemptIO {α : Type} (x : IO α) : IO (Except FileError α) := do
  try pure (.ok (← x)) catch e => pure (.error (.ofSystem e))

/-- Whether a path leads to a directory, or nothing if it leads nowhere. -/
def isDirectory? (path : String) : IO (Option Bool) := do
  let look : IO IO.FS.Metadata := do (← IO.FS.realPath path).metadata
  match ← attemptIO look with
  | .ok info => pure (some (match info.type with | .dir => true | _ => false))
  | .error _ => pure none

/-- Reads a file. -/
def readSystemFile (path : String) : IO (Except FileError String) := do
  if (← isDirectory? path) == some true then pure (.error .isDirectory)
  else
    match ← attemptIO (IO.FS.readBinFile path) with
    | .error e => pure (.error e)
    | .ok bytes =>
        match String.fromUTF8? bytes with
        | some t => pure (.ok t)
        | none => pure (.error .notText)

/-- The names that lead to what lies below a directory, and to itself. -/
partial def belowDirectory (path : String) (names : List String) : IO (List (List String)) := do
  match ← attemptIO do (← IO.FS.realPath path).readDir with
  | .error _ => pure [names]
  | .ok entries =>
      let mut found := [names]
      for e in entries do
        let inner := FilePath.within path e.fileName
        if (← isDirectory? inner) == some true then
          found := found ++ (← belowDirectory inner (names ++ [e.fileName]))
        else found := found ++ [names ++ [e.fileName]]
      pure found

/-- The access to the files of the computer. -/
def systemAccess : FileAccess IO where
  read := readSystemFile
  write path text := do
    if (← isDirectory? path) == some true then pure (.error .isDirectory)
    else attemptIO (IO.FS.writeFile path text)
  isFile path := do pure ((← isDirectory? path) == some false)
  below path := do
    if (← isDirectory? path) == some true then belowDirectory path [] else pure []

end FieldCopy

open FieldCopy in
/-- Answers the command line. -/
def main (arguments : List String) : IO UInt32 := do
  let level ← IO.getEnv Execution.levelVariable
  let e ← Execution.ofCommandLine systemAccess level arguments
  IO.print e.printed
  if e.logFile.isNone then
    for r in e.records do
      IO.eprintln r.text
  if let some line := e.outcome.message? then IO.eprintln line
  if e.outcome.exitCode = 2 then IO.eprint Execution.helpText
  pure (UInt32.ofNat e.outcome.exitCode)
