/-!
# Command lines

A command line consists of the path of an input file and options.

**Options** have a long form, behind two dashes, and most a short form of one letter, behind one.
Short forms can be put together behind one dash.  The value of an option follows an equals sign, or
the letter of a short form directly, or is the next argument if that does not look like an option.
Behind an argument of two dashes nothing is an option.

**Faults** of two kinds make a command line unusable.  An unknown option, a second input file or a
value for an option that takes none is found where it stands; a missing value, a repeated option
or a missing input file only when everything is read.  So an earlier fault of the second kind does
not keep an option that asks for the version from being answered.
-/

namespace FieldCopy

/-- What a run is told. -/
structure RunArguments where
  input : String
  /-- The path of the output file. -/
  out : Option String
  /-- The files and directories that are read besides the input file, in order. -/
  includes : List String
  /-- The path of the file with settings. -/
  config : Option String
  /-- Whether the log goes to a file. -/
  log : Bool
  /-- Whether the output file is not written. -/
  dry : Bool
  /-- Whether the generated code is printed. -/
  print : Bool
  /-- The path of the file with the report. -/
  plan : Option String
  deriving DecidableEq

/-- What a command line asks for. -/
inductive Request where
  | run (arguments : RunArguments)
  | version
  | help
  | unusable
  deriving DecidableEq

namespace CommandLine

/-- The options with a value. -/
inductive ValueOption where
  | out
  | includes
  | config
  | plan
  deriving DecidableEq

/-- The options without a value. -/
inductive Switch where
  | log
  | dry
  | print
  deriving DecidableEq

/-- An option. -/
inductive Choice where
  | value (o : ValueOption)
  | switch (s : Switch)
  | version
  | help

/-- The option with a long form. -/
def long? : String → Option Choice
  | "out" => some (.value .out)
  | "include" => some (.value .includes)
  | "config" => some (.value .config)
  | "plan" => some (.value .plan)
  | "log" => some (.switch .log)
  | "dry" => some (.switch .dry)
  | "print" => some (.switch .print)
  | "version" => some .version
  | "help" => some .help
  | _ => none

/-- The option with a short form. -/
def short? : Char → Option Choice
  | 'o' => some (.value .out)
  | 'I' => some (.value .includes)
  | 'c' => some (.value .config)
  | 'l' => some (.switch .log)
  | 'd' => some (.switch .dry)
  | 'p' => some (.switch .print)
  | 'V' => some .version
  | 'h' => some .help
  | _ => none

/-- What was read of a command line. -/
structure Reading where
  inputs : List String
  /-- The options with their values, in order; a value may lack. -/
  values : List (ValueOption × Option String)
  switches : List Switch
  /-- The option whose value may be the next argument. -/
  pending : Option ValueOption

namespace Reading

/-- Nothing is read. -/
def start : Reading := ⟨[], [], [], none⟩

/-- Adds an option with its value. -/
def addValue (r : Reading) (o : ValueOption) (v : Option String) : Reading :=
  { r with values := r.values ++ [(o, v)] }

/-- Gives up the hope for a value of the pending option. -/
def settle (r : Reading) : Reading :=
  match r.pending with
  | some o => { r.addValue o none with pending := none }
  | none => r

/-- Adds an option without a value. -/
def addSwitch (r : Reading) (s : Switch) : Reading :=
  let r := r.settle
  { r with switches := r.switches ++ [s] }

/-- Adds an option whose value stands in the same argument, or may be the next one. -/
def addOption (r : Reading) (o : ValueOption) (v : Option String) : Reading :=
  let r := r.settle
  match v with
  | some _ => r.addValue o v
  | none => { r with pending := some o }

/-- Adds the input file. -/
def addInput (r : Reading) (path : String) : Except Request Reading :=
  if r.inputs.isEmpty then .ok { r with inputs := [path] } else .error .unusable

/-- Adds an argument that is no option: the value of the pending option, or the input file. -/
def addPlain (r : Reading) (text : String) : Except Request Reading :=
  match r.pending with
  | some o => .ok { r.addValue o (some text) with pending := none }
  | none => r.addInput text

/-- The values of an option. -/
def valuesOf (r : Reading) (o : ValueOption) : List (Option String) :=
  (r.values.filter fun v => v.1 = o).map (·.2)

/-- How often an option without value stands in the command line. -/
def count (r : Reading) (s : Switch) : Nat := (r.switches.filter (· = s)).length

/-- The value of an option that may stand once. -/
def single (r : Reading) (o : ValueOption) : Option String := ((r.valuesOf o).head?).bind id

/-- Whether no value lacks and nothing is repeated that may stand once. -/
def isComplete (r : Reading) : Bool :=
  r.values.all (·.2.isSome)
    && [ValueOption.out, .config, .plan].all (fun o => (r.valuesOf o).length ≤ 1)
    && [Switch.log, .dry, .print].all (fun s => r.count s ≤ 1)

/-- What a command line asks for when everything is read. -/
def finish (r : Reading) : Request :=
  let r := r.settle
  match r.inputs, r.isComplete with
  | [input], true =>
      .run
        { input
          out := r.single .out
          includes := (r.valuesOf .includes).filterMap id
          config := r.single .config
          log := r.count .log = 1
          dry := r.count .dry = 1
          print := r.count .print = 1
          plan := r.single .plan }
  | _, _ => .unusable

end Reading

/-- A value without the equals sign in front of it. -/
def withoutEquals : List Char → List Char
  | '=' :: rest => rest
  | s => s

/-- Reads the letters behind a dash. -/
def readShort (r : Reading) : List Char → Except Request Reading
  | [] => .ok r
  | c :: rest =>
      match short? c with
      | some (.switch s) => readShort (r.addSwitch s) rest
      | some (.value o) =>
          .ok (r.addOption o
            (if rest.isEmpty then none else some (String.ofList (withoutEquals rest))))
      | some .version => .error .version
      | some .help => .error .help
      | none => .error .unusable

/-- Reads what stands behind two dashes. -/
def readLong (r : Reading) (text : List Char) : Except Request Reading :=
  let name := String.ofList (text.takeWhile (· != '='))
  let value : Option String :=
    match text.dropWhile (· != '=') with
    | _ :: v => some (String.ofList v)
    | [] => none
  match long? name, value with
  | some (.value o), v => .ok (r.addOption o v)
  | some (.switch s), none => .ok (r.addSwitch s)
  | some .version, none => .error .version
  | some .help, none => .error .help
  | _, _ => .error .unusable

/-- Reads arguments each of which is an input file. -/
def readPlain (r : Reading) : List String → Except Request Reading
  | [] => .ok r
  | a :: rest => do readPlain (← r.addInput a) rest

/-- Reads arguments. -/
def readAll (r : Reading) : List String → Except Request Reading
  | [] => .ok r
  | a :: rest =>
      match a.toList with
      | ['-', '-'] => readPlain r.settle rest
      | '-' :: '-' :: text => do readAll (← readLong r text) rest
      | '-' :: c :: text => do readAll (← readShort r (c :: text)) rest
      | _ => do readAll (← r.addPlain a) rest

end CommandLine

/-- What the arguments of a command line ask for. -/
def Request.ofArguments (arguments : List String) : Request :=
  match CommandLine.readAll .start arguments with
  | .ok r => r.finish
  | .error e => e

end FieldCopy
