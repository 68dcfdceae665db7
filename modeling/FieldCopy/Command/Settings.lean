import FieldCopy.Command.Toml
import FieldCopy.Generation

/-!
# Settings

What a run can be told by a file, and by the environment in the case of the log level.
-/

namespace FieldCopy

/-- The settings of a run. -/
structure Settings where
  /-- The word for the least important level that is logged. -/
  logLevel : String
  /-- What stands in the name of an output file between its stem and its extension. -/
  outputSuffix : String
  /-- Whether an output file starts with a header. -/
  header : Bool
  /-- The name of the trait whose methods are conversions even if it is not marked. -/
  interfaceName : String
  deriving DecidableEq

namespace Settings

/-- What holds unless a file says otherwise. -/
def default : Settings := ⟨"info", "gen", true, SourceUnit.defaultInterfaceName⟩

/-- The settings with one of them changed, if there is one of this name and kind. -/
def change? (s : Settings) : String × Toml.Value → Option Settings
  | ("log_level", .text v) => some { s with logLevel := v }
  | ("output_suffix", .text v) => some { s with outputSuffix := v }
  | ("header", .flag v) => some { s with header := v }
  | ("interface_name", .text v) => some { s with interfaceName := v }
  | _ => none

/-- The settings that a document lists; those that it does not list keep their default.  Every
setting must be known and none may be listed twice. -/
def ofToml? (document : String) : Option Settings := do
  let listed ← Toml.settings? document
  if (listed.map (·.1)).eraseDups.length = listed.length then listed.foldlM change? default
  else none

/-- The settings with a log level from elsewhere. -/
def withLogLevel (s : Settings) (level : Option String) : Settings :=
  { s with logLevel := level.getD s.logLevel }

/-- The filter of log records, unless the word for the level is unknown. -/
def filter? (s : Settings) : Option LevelFilter := LevelFilter.ofText? s.logLevel

/-- What a generation is told. -/
def generation (s : Settings) : GenerationOptions := ⟨s.header, s.interfaceName⟩

end Settings

end FieldCopy
