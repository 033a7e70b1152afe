import BuildLint.Analysis.Session

/-!
# Console/Program — the commands of the program

* `analyze` analyses every source of a build and writes one merged report.
* `commands` shows the calls that this would make, and makes none.
* `merge` merges reports that are already there.

A command ends with an exit code: zero if all went well, one after a failure, two if the command
line makes no sense.

What reads the text of a settings file, and what finds the command in a command line, are
**libraries** of the program: it goes by what they give, whatever they make of a text.
-/

namespace BuildLint

/-- **What a command line gives**: options in order, and operands. -/
structure Given where
  options : Json.Members
  operands : List Text

namespace Given

/-- Whether an option stands for yes. -/
def isSet (given : Given) (option : Text) : Bool :=
  given.options.any fun o => o.1 = option && o.2.isTruthy

/-- The last value that an option is given. -/
def value? (given : Given) (option : Text) : Option Text :=
  given.options.reverse.findSome? fun o =>
    match o.2 with
    | .string v => if o.1 = option then some v else none
    | _ => none

end Given

/-- **What a command leaves behind**: its exit code, what it printed, the fault that it has no
failure for, and the world. -/
structure Ending where
  exitCode : Int
  output : Text
  escaped : Option Fault
  world : World

namespace Program

/-- The name and version of the program. -/
def banner : Text := "msvc-analyze v0.1.0"

/-- **What is to be done**, if the command line makes sense. -/
inductive Command where
  | version
  | help
  | analyze (directory : Text) (given : Given)
  | commands (directory : Text) (given : Given)
  | merge (reports : List Text) (output : Text)

/-- **The libraries of the program**: what reads the text of a settings file, and what finds the
command in a command line, if it makes sense on a disk. -/
structure Libraries where
  settings : SettingsReader
  commandLine : Disk → List Text → Option Command

/-! ## Actions -/

/-- An absolute path without dots, seen from the working directory. -/
def realPath (d : Disk) (path : Text) : Location :=
  Path.collapse true (Path.Form.ofText (Path.join (Disk.pathOf d.here) path)).names

/-- The options of a file and of a command line, below the project root that is meant. -/
def optionsFor (settings : SettingsReader) (given : Given) : Action Options := do
  let root ←
    match given.value? "project_root" with
    | some root => pure root
    | none => Config.defaultRoot
  let root := Disk.pathOf (realPath (← Action.disk) root)
  let chosen := Keyed.overlay [] given.options
  Config.loadOptions settings root (given.value? "config")
    (chosen.filter fun o => (Config.kind? o.1).isSome)

/-- Analyse a build, and say where the report is. -/
def analyze (settings : SettingsReader) (directory : Text) (given : Given) :
    Action (List Text) := do
  let options ← optionsFor settings given
  let (path, report) ← Session.run directory options (given.value? "output")
  return ["✅ Analysis complete: " ++ Decimal.ofNat report.findings.length ++ " unique result(s)",
    "SARIF: " ++ path]

/-- A call as a row of JSON. -/
def row (i : Invocation) : Json :=
  .object [("source", .string i.source), ("compiler", .string i.compiler),
    ("args", .array (i.arguments.map .string))]

/-- A call as two lines. -/
def rowLines (i : Invocation) : List Text :=
  [i.source, "  " ++ i.compiler ++ " " ++ Text.joinWith " " i.arguments]

/-- The calls that an analysis would make. -/
def plannedCalls (settings : SettingsReader) (directory : Text) (given : Given) :
    Action (List Invocation) := do
  let options ← optionsFor settings given
  let buildDirectory ←
    Action.consult (Session.buildDirectoryFor · directory options.projectRoot)
  Session.use buildDirectory options fun s => return s.invocations

/-- Show the calls that an analysis would make. -/
def showCommands (settings : SettingsReader) (directory : Text) (given : Given) :
    Action (List Text) := do
  let calls ← plannedCalls settings directory given
  if given.isSet "json" then return [Json.writeIndented 0 (.array (calls.map row))]
  else return calls.flatMap rowLines

/-- Merge reports, and say where the merged one is. -/
def merge (reports : List Text) (output : Text) : Action (List Text) := do
  let d ← Action.disk
  if d.isDirectory (Disk.pathOf (realPath d output).dropLast) then
    let report ← ReportFile.combineTo output reports
    return ["Merged " ++ Decimal.ofNat reports.length ++ " file(s) into " ++
      Decimal.ofNat report.findings.length ++ " unique result(s)",
      "SARIF: " ++ Path.tidy output]
  else Action.fail (.aggregation (.noOutputDirectory (Path.tidyParent output)))

/-- **What a command does**: the lines that it prints in the end. -/
def Command.perform (settings : SettingsReader) : Command → Action (List Text)
  | .version => return [banner]
  | .help => return []
  | .analyze directory given => Program.analyze settings directory given
  | .commands directory given => showCommands settings directory given
  | .merge reports output => Program.merge reports output

/-! ## Endings -/

/-- Print lines; half of a surrogate pair cannot be printed and stops with a fault. -/
def printed : List Text → Text × Option Fault
  | [] => ([], none)
  | line :: rest =>
    if line.any CodePoint.isSurrogate then ([], some .notPrintable)
    else
      let (output, fault) := printed rest
      (line ++ "\n" ++ output, fault)

/-- The ending after some lines are printed, with an exit code unless printing stops. -/
def endWith (exitCode : Int) (lines : List Text) (world : World) : Ending :=
  match printed lines with
  | (output, none) => ⟨exitCode, output, none, world⟩
  | (output, some fault) => ⟨1, output, some fault, world⟩

/-- **Run the program** on its arguments. -/
def run (libraries : Libraries) (arguments : List Text) (host : Host) (world : World) : Ending :=
  match libraries.commandLine world.disk arguments with
  | none => ⟨2, [], none, world⟩
  | some command =>
    match command.perform libraries.settings host world with
    | .ok lines world => endWith 0 lines world
    | .error (.failure failure) world => endWith 1 ["❌ " ++ failure.message] world
    | .error fault world => ⟨1, [], some fault, world⟩

end Program

end BuildLint
