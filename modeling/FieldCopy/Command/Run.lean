import FieldCopy.Command.Arguments
import FieldCopy.Command.Settings
import FieldCopy.Files.Access
import FieldCopy.Files.FilePath
import FieldCopy.Report.Generated

/-!
# Runs

A run reads settings and source files, generates a file and writes it.  All of it is stated over a
`FileAccess`, so it is the same on the files of a computer and on a table of files.

**The order of effects.**  Everything is read before anything is written, except that a log file is
begun in front of all reading of source files.  Then come the report, the printed code and the
output file; the first that fails ends the run.
-/

namespace FieldCopy

/-! ## Paths -/

/-- The path of the output file: next to the input file, unless it is given. -/
def outputPath (input : String) (out : Option String) (suffix : String) : String :=
  out.getD (FilePath.withName input s!"{FilePath.stem input}.{suffix}.rs")

/-- The path of the log file for an output file. -/
def logPath (output : String) : String := output ++ ".log"

/-- The name of the module that a file with a stem holds; a few stems name no module. -/
def moduleName (stem : String) : String :=
  if ["lib", "main", "mod"].contains stem then "" else stem

/-- The path of the module that a file holds, given the names that lead to it from the directory
that is included. -/
def modulePath (names : List String) : String :=
  let last := moduleName (((names.getLast?).map fun n => (FilePath.splitName n).1).getD "")
  ModulePath.join (names.dropLast ++ if last.isEmpty then [] else [last])

/-! ## Errors -/

/-- Why a run fails. -/
inductive RunError where
  /-- A file cannot be read. -/
  | unreadable (path : String) (cause : FileError)
  /-- The document with the settings is none. -/
  | malformedSettings (path : String)
  | unknownLevel (word : String)
  /-- The log file cannot be begun. -/
  | noLogFile (path : String) (cause : FileError)
  | notLoaded (cause : LoadError)
  | unwritable (path : String) (cause : FileError)
  deriving DecidableEq

namespace RunError

/-- The words for an unknown log level. -/
def unknownLevelText (word : String) : String := "invalid log level " ++ Quoted.quote word

/-- The words for an error. -/
def message : RunError → String
  | unreadable p e => s!"failed to read {p}: {e.text}"
  | malformedSettings p => s!"in {p}: invalid configuration"
  | unknownLevel w =>
      unknownLevelText w
        ++ ": attempted to convert a string that doesn't match an existing log level"
  | noLogFile p e => s!"failed to create {p}: {e.text}"
  | notLoaded .noInput => ": no input file"
  | notLoaded (.unparsable f) => s!"{f}: parse error"
  | unwritable p e => s!"failed to write {p}: {e.text}"

end RunError

/-! ## Reading -/

section

variable {m : Type → Type} [Monad m] (fs : FileAccess m)

/-- Reads a file; an error is reported for a path that may be another. -/
def readFile (reported path : String) : ExceptT RunError m String := do
  match ← fs.read path with
  | .ok t => pure t
  | .error e => throw (.unreadable reported e)

/-- Reads the settings. -/
def Settings.read : Option String → ExceptT RunError m Settings
  | none => pure .default
  | some path => do
      match Settings.ofToml? (← readFile fs path path) with
      | some s => pure s
      | none => throw (.malformedSettings path)

/-- The source files among what lies below a directory with a path, in order. -/
def sourcesBelow (path : String) (found : List (List String)) : List (List String) :=
  let isSource (names : List String) : Bool :=
    match names.getLast? with
    | some n => (FilePath.splitName n).2 == some "rs"
    | none => FilePath.extension? path == some "rs"
  (found.filter isSource).mergeSort FilePath.namesLe

/-- Reads a source file below a directory that is included. -/
def readBelow (path : String) (names : List String) : ExceptT RunError m SourceFile := do
  let file := names.foldl FilePath.within path
  pure ⟨file, modulePath names, ← readFile fs path file⟩

/-- Reads a file or the source files of a directory. -/
def readInclude (path : String) : ExceptT RunError m (List SourceFile) := do
  if ← fs.isFile path then
    pure [⟨path, moduleName (FilePath.stem path), ← readFile fs path path⟩]
  else
    let found ← fs.below path
    (sourcesBelow path found).mapM (readBelow fs path)

/-- Reads the input file and all that is included. -/
def readSources (a : RunArguments) : ExceptT RunError m (SourceFile × List SourceFile) := do
  let input ← readFile fs a.input a.input
  let includes ← a.includes.mapM (readInclude fs)
  pure (⟨a.input, "", input⟩, includes.flatten)

/-! ## Writing -/

/-- The log record for a diagnostic of a generated file. -/
def diagnosticRecord (d : Diagnostic) : LogRecord :=
  match d.severity with
  | .warning => ⟨.warn, d.text⟩
  | .error => ⟨.error, d.text⟩

/-- Writes a file. -/
def writeFile (path text : String) : ExceptT RunError m Unit := do
  match ← fs.write path text with
  | .ok () => pure ()
  | .error e => throw (.unwritable path e)

/-- Writes the report on a generated file. -/
def writeReport (a : RunArguments) (g : GeneratedFile) : ExceptT RunError m Unit :=
  match a.plan with
  | some path => writeFile fs path (Report.generated g).pretty
  | none => pure ()

/-- What a run did. -/
structure RunReport where
  events : List Event
  /-- What was printed. -/
  printed : String
  outcome : Except RunError GeneratedFile

/-- Writes what was generated. -/
def writeOutput (a : RunArguments) (output : String) (r : Journaled GeneratedFile) :
    m RunReport := do
  let g := r.value
  let events := r.events ++ g.diagnostics.map fun d => .log (diagnosticRecord d)
  match ← (writeReport fs a g).run with
  | .error e => pure ⟨events, "", .error e⟩
  | .ok () =>
      let printed := if a.print then g.code ++ "\n" else ""
      if a.dry then
        let record : LogRecord := ⟨.info, s!"dry run, {output} not written"⟩
        pure ⟨events ++ [.log record], printed, .ok g⟩
      else
        match ← (writeFile fs output g.code).run with
        | .error e => pure ⟨events, printed, .error e⟩
        | .ok () =>
            pure ⟨events ++ [.log ⟨.info, s!"wrote {output}"⟩], printed, .ok g⟩

/-- Reads source files, generates a file and writes it. -/
def run (a : RunArguments) (s : Settings) (output : String) : m RunReport := do
  match ← (readSources fs a).run with
  | .error e => pure ⟨[], "", .error e⟩
  | .ok (input, includes) =>
      match GeneratedFile.ofSources (some input) includes s.generation with
      | .error e => pure ⟨[], "", .error (.notLoaded e)⟩
      | .ok r => writeOutput fs a output r

end

end FieldCopy
