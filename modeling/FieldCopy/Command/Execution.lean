import FieldCopy.Command.Run

/-!
# Executions

An execution answers a command line: it runs what the arguments ask for, and tells what is printed,
what is logged and how it ends.
-/

namespace FieldCopy

/-- How an execution ends. -/
inductive Outcome where
  | version
  | help
  /-- The command line cannot be used. -/
  | unusable
  | failed (e : RunError)
  | finished (g : GeneratedFile)

namespace Outcome

/-- The exit code. -/
def exitCode : Outcome → Nat
  | version | help | finished _ => 0
  | failed _ => 1
  | unusable => 2

/-- The line for an error. -/
def message? : Outcome → Option String
  | failed e => some ("Error: " ++ e.message)
  | _ => none

end Outcome

/-- What an execution did. -/
structure Execution where
  outcome : Outcome
  /-- What was printed. -/
  printed : String
  /-- The records that were logged. -/
  records : List LogRecord
  /-- The path of the file with the records, if they do not go to the console. -/
  logFile : Option String

namespace Execution

/-- The environment variable with the log level. -/
def levelVariable : String := "STRUCTCOPY_GEN_LOG_LEVEL"

/-- The name of the program and its version. -/
def versionText : String := "structcopy_gen 0.1.0-dev\n"

/-- How the program is used. -/
def helpText : String :=
  versionText ++ "Generates struct copy functions from the annotated converter trait of a Rust file

USAGE:
    structcopy-gen [OPTIONS] <INPUT>

ARGS:
    <INPUT>    Rust file declaring the converter trait

OPTIONS:
    -c, --config <CONFIG>      TOML configuration file
    -d, --dry                  Do not write the output file
    -h, --help                 Print help information
    -I, --include <INCLUDE>    Additional file or directory declaring structs, converters and hooks
    -l, --log                  Write logs to `<output>.log`
    -o, --out <OUT>            Output file, `<stem>.<suffix>.rs` next to the input by default
    -p, --print                Print the generated code
        --plan <PLAN>          Write specs, plans and diagnostics as JSON
    -V, --version              Print version information
"

/-- The text of a log file. -/
def logText (records : List LogRecord) : String :=
  String.join (records.map fun r => r.text ++ "\n")

/-- An execution that does nothing but fail. -/
def failure (e : RunError) : Execution := ⟨.failed e, "", [], none⟩

section

variable {m : Type → Type} [Monad m] (fs : FileAccess m)

/-- The settings for arguments, with the filter of log records. -/
def settings (level : Option String) (a : RunArguments) :
    ExceptT RunError m (Settings × LevelFilter) := do
  let s := (← Settings.read fs a.config).withLogLevel level
  match s.filter? with
  | some f => pure (s, f)
  | none => throw (.unknownLevel s.logLevel)

/-- Begins the log file, if there is to be one. -/
def beginLog (path : Option String) : ExceptT RunError m Unit :=
  match path with
  | none => pure ()
  | some p => do
      match ← fs.write p "" with
      | .ok () => pure ()
      | .error e => throw (.noLogFile p e)

/-- Runs what arguments ask for. -/
def ofArguments (level : Option String) (a : RunArguments) : m Execution := do
  match ← (settings fs level a).run with
  | .error e => pure (failure e)
  | .ok (s, f) =>
      let output := outputPath a.input a.out s.outputSuffix
      let logFile := if a.log then some (logPath output) else none
      match ← (beginLog fs logFile).run with
      | .error e => pure (failure e)
      | .ok () =>
          let r ← run fs a s output
          let records := Event.logged f r.events
          if let some p := logFile then
            let _ ← fs.write p (logText records)
          let outcome : Outcome := match r.outcome with
            | .ok g => .finished g
            | .error e => .failed e
          pure ⟨outcome, r.printed, records, logFile⟩

/-- Answers a command line, given the log level of the environment. -/
def ofCommandLine (level : Option String) (arguments : List String) : m Execution :=
  match Request.ofArguments arguments with
  | .run a => ofArguments fs level a
  | .version => pure ⟨.version, versionText, [], none⟩
  | .help => pure ⟨.help, helpText, [], none⟩
  | .unusable => pure ⟨.unusable, "", [], none⟩

end

end Execution

end FieldCopy
