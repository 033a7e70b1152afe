import BuildLint.Console.Program
import BuildLint.Settings.Toml.Document

/-!
# Console/Switches — the command of a command line

A command knows some **switches**, each with its spellings.  A long one is two dashes and a name, a
short one is a dash and a letter; short ones can share a dash.  A switch either takes a value, which
follows it or is written right behind it, or stands for a yes or no.  After two dashes alone
everything is an operand.

* `Switches.parse` — the options that are given, in order, and the operands.
* `Program.commandOf` — the command, from its name and the switches it knows.
* `Program.libraries` — the libraries that the program runs with.
-/

namespace BuildLint

/-- **What a switch does**: it takes a value, or stands for a yes or no. -/
inductive SwitchShape where
  | value
  | flag (is : Bool)

/-- **A switch**: one of its spellings, and the option it sets. -/
structure Switch where
  spelling : Text
  option : Text
  shape : SwitchShape

/-- What one argument gives, and the option whose value is the next one. -/
structure Read where
  options : Json.Members
  pending : Option Text

namespace Switches

/-- The switch with a spelling. -/
def find? (switches : List Switch) (spelling : Text) : Option Switch :=
  switches.find? fun s => s.spelling = spelling

/-- A long switch, with the value behind its equals sign if there is one. -/
def readLong (switches : List Switch) (name : Text) (attached : Option Text) : Option Read := do
  let s ← find? switches name
  match s.shape, attached with
  | .value, some v => return ⟨[(s.option, .string v)], none⟩
  | .value, none => return ⟨[], s.option⟩
  | .flag is, none => return ⟨[(s.option, .bool is)], none⟩
  | .flag _, some _ => none

/-- Short switches behind one dash; the first that takes a value takes whatever follows it. -/
def readShort (switches : List Switch) : Text → Option Read
  | [] => some ⟨[], none⟩
  | c :: rest => do
    let s ← find? switches ['-', c]
    match s.shape with
    | .value =>
      if rest = [] then return ⟨[], s.option⟩ else return ⟨[(s.option, .string rest)], none⟩
    | .flag is =>
      let others ← readShort switches rest
      return { others with options := (s.option, .bool is) :: others.options }

/-- An argument that begins with a dash. -/
def readArgument (switches : List Switch) (argument : Text) : Option Read :=
  let (name, attached) :=
    match argument.cutAt? '=' with
    | some (name, v) => (name, some v)
    | none => (argument, none)
  if argument.startsWith "--" then readLong switches name attached
  else readShort switches (argument.drop 1)

/-- Put options in front of what the rest of a command line gives. -/
def Given.prepend (options : Json.Members) (given : Given) : Given :=
  { given with options := options ++ given.options }

/-- **The options and operands of a command line**, unless a switch is unknown or its value is
missing.  Where options have to stand first, the first operand ends them. -/
def parse (switches : List Switch) (optionsFirst : Bool) : List Text → Option Given
  | [] => some ⟨[], []⟩
  | argument :: rest =>
    if argument = "--" then some ⟨[], rest⟩
    else if argument.startsWith "-" && argument.length != 1 then
      match readArgument switches argument with
      | none => none
      | some ⟨options, none⟩ => (parse switches optionsFirst rest).map (Given.prepend options)
      | some ⟨options, some name⟩ =>
        match rest with
        | [] => none
        | v :: rest =>
          (parse switches optionsFirst rest).map
            (Given.prepend (options ++ [(name, .string v)]))
    else if optionsFirst then some ⟨[], argument :: rest⟩
    else
      (parse switches optionsFirst rest).map fun g =>
        { g with operands := argument :: g.operands }

end Switches

namespace Program

/-! ## Switches -/

/-- A switch for a value. -/
def value (spelling option : Text) : Switch := ⟨spelling, option, .value⟩

/-- A switch for a yes or no. -/
def flag (spelling option : Text) (is : Bool) : Switch := ⟨spelling, option, .flag is⟩

/-- The switch that asks for help. -/
def helpSwitches : List Switch := [flag "--help" "help" true]

/-- The switches before the name of a command. -/
def programSwitches : List Switch :=
  [flag "--version" "version" true, flag "-V" "version" true, flag "--verbose" "verbose" true,
    flag "-v" "verbose" true] ++ helpSwitches

/-- The switches of the commands that look at a build. -/
def buildSwitches : List Switch :=
  [value "--config" "config", value "-c" "config", value "--project-root" "project_root",
    value "--build-configuration" "build_configuration", value "-b" "build_configuration",
    flag "--ignore-system-headers" "ignore_system_headers" true,
    flag "--no-ignore-system-headers" "ignore_system_headers" false,
    flag "--load-implicit-env" "load_implicit_compiler_env" true,
    flag "--no-load-implicit-env" "load_implicit_compiler_env" false,
    value "--ignored-paths" "ignored_paths", value "--ignored-target-paths" "ignored_target_paths",
    value "--ignored-include-paths" "ignored_include_paths", value "--ruleset" "ruleset",
    value "-r" "ruleset", value "--additional-args" "additional_args"] ++ helpSwitches

/-- The switches for an output file. -/
def outputSwitches : List Switch := [value "--output" "output", value "-o" "output"]

/-! ## Commands -/

/-- The command of a command line that looks at one build. -/
def buildCommand (make : Text → Given → Command) (given : Given) : Option Command :=
  if given.isSet "help" then some .help
  else
    match given.operands with
    | [directory] => some (make directory given)
    | _ => none

/-- The command of a command line that merges. -/
def mergeCommand (d : Disk) (given : Given) : Option Command :=
  if given.isSet "help" then some .help
  else if given.operands = [] || !given.operands.all d.isFile then none
  else (given.value? "output").map (.merge given.operands)

/-- A command by its name, with the arguments after it. -/
def named (d : Disk) (name : Text) (arguments : List Text) : Option Command :=
  if name = "analyze" then do
    buildCommand .analyze (← Switches.parse (outputSwitches ++ buildSwitches) false arguments)
  else if name = "commands" then do
    buildCommand .commands
      (← Switches.parse (flag "--json" "json" true :: buildSwitches) false arguments)
  else if name = "merge" then do
    mergeCommand d (← Switches.parse (outputSwitches ++ helpSwitches) false arguments)
  else none

/-- **The command of a command line**, if it makes sense. -/
def commandOf (d : Disk) (arguments : List Text) : Option Command := do
  let given ← Switches.parse programSwitches true arguments
  if given.isSet "version" then return .version
  else if given.isSet "help" then return .help
  else
    match given.operands with
    | name :: rest => named d name rest
    | [] => none

/-- **The libraries that the program runs with.** -/
def libraries : Libraries := ⟨Toml.read, commandOf⟩

end Program

end BuildLint
