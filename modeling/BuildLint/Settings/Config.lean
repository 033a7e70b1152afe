import BuildLint.Action
import BuildLint.Settings.Toml.Basic

/-!
# Settings/Config — options from a file and from the command line

The `[analysis]` table of a file gives options, and the command line gives others, which win.  Each
known option has a kind; a value of another kind is a failure.

* `Options` — what a user can choose about an analysis.
* `Config.load` — the options that a file gives.
* `Config.combine` — those of a file and of the command line together, as options of an analysis.
* `PathList.split` — a list of paths, written as one text or as a list.
-/

namespace BuildLint

/-- **The options of an analysis.**  Paths are absolute where the settings could make them so. -/
structure Options where
  buildConfiguration : Option Text := none
  ignoreSystemHeaders : Bool := true
  loadCompilerEnvironment : Bool := true
  ignoredTargetPaths : List Text := []
  ignoredIncludePaths : List Text := []
  ruleset : Option Text := none
  additionalArguments : Text := []
  resultsPath : Option Text := none
  projectRoot : Text := "."

namespace PathList

/-- The entries of a list of paths that are not blank, each taken from a root. -/
def resolveAll (root : Text) (entries : List Text) : List Text :=
  (entries.filter fun e => !Text.isBlank e).map fun e => Path.resolve root (Text.trim e)

/-- **The paths of a text**, cut at a separator, which cannot be empty. -/
def ofText? (root separator t : Text) : Option (List Text) :=
  if t = [] then some []
  else if separator = [] then none
  else some (resolveAll root (t.splitOn separator))

/-- What separates the paths of a text in settings. -/
def separator : Text := ";"

/-- The paths of a text, cut at semicolons. -/
def ofText (root t : Text) : List Text := resolveAll root (t.splitOn separator)

end PathList

/-- **What kind of value an option takes.** -/
inductive OptionKind where
  | flag
  | text
  | paths
deriving DecidableEq

/-- **What reads the text of a settings file**, or says why it cannot. -/
abbrev SettingsReader := Text → Except Toml.Problem Json.Members

namespace Config

/-- **The options that can be given**, by their names in a file. -/
def kinds : List (Text × OptionKind) :=
  [("ignore_system_headers", .flag), ("load_implicit_compiler_env", .flag),
    ("build_configuration", .text), ("ruleset", .text), ("additional_args", .text),
    ("results_path", .text), ("ignored_paths", .paths), ("ignored_target_paths", .paths),
    ("ignored_include_paths", .paths)]

/-- The kind of an option, if there is one of that name. -/
def kind? (name : Text) : Option OptionKind := (kinds.find? fun k => k.1 = name).map (·.2)

/-! ## Files -/

/-- The name of the file that is looked for. -/
def fileName : Text := "msvc-analyze.toml"

/-- **The file to read**: the one that is named, which has to be there, or the project's, if it
is. -/
def find (d : Disk) (projectRoot : Text) (named : Option Text) : Except Fault (Option Text) :=
  match named with
  | some path =>
    let path := Path.tidy path
    if d.isFile path then .ok (some path)
    else .error (.failure (.configuration (.noConfigFile path)))
  | none =>
    let path := Path.below (Path.tidy projectRoot) fileName
    .ok (if d.isFile path then some path else none)

/-- The options in a document. -/
def ofDocument (path : Text) (document : Json.Members) : Except Fault Json.Members :=
  match Keyed.get? document "analysis" with
  | none => .ok []
  | some (.object options) => .ok options
  | some _ => .error (.failure (.configuration (.analysisNotTable path)))

/-- What a document that cannot be read stops with: breaking the format is a failure. -/
def faultOf (path : Text) : Toml.Problem → Fault
  | .malformed => .failure (.configuration (.configMalformed path))
  | .access fault => .access fault
  | .tooLarge => .tooLarge
  | .noValue => .noValue

/-- The options in a file. -/
def readFile (settings : SettingsReader) (d : Disk) (path : Text) : Except Fault Json.Members :=
  match d.readText path with
  | .error (.file fault) => .error (.failure (.configuration (.configUnreadable path fault)))
  | .error .notText => .error .notText
  | .ok t =>
    match settings t with
    | .error problem => .error (faultOf path problem)
    | .ok document => ofDocument path document

/-- Warn of every option that is not known. -/
def warnUnknown (path : Text) (options : Json.Members) : Action Unit :=
  (options.filter fun o => (kind? o.1).isNone).forM fun o =>
    Action.tell .warning ("Ignoring unknown option '" ++ o.1 ++ "' in " ++ path)

/-- **The options that a file gives**, unknown ones left out; none without a file. -/
def load (settings : SettingsReader) (path : Option Text) : Action Json.Members :=
  match path with
  | none => return []
  | some path => do
    let path := Path.tidy path
    let options ← Action.consult (readFile settings · path)
    warnUnknown path options
    return options.filter fun o => (kind? o.1).isSome

/-! ## Options -/

/-- Whether a value is a text. -/
def isText : Json → Bool
  | .string _ => true
  | _ => false

/-- Whether a value is of a kind. -/
def fits : OptionKind → Json → Bool
  | .flag, .bool _ => true
  | .text, v => isText v
  | .paths, .array items => items.all isText
  | .paths, v => isText v
  | _, _ => false

/-- The failure of an option with a value of another kind. -/
def misfit (name : Text) : OptionKind → ConfigurationCause
  | .flag => .notBoolean name
  | .text => .notString name
  | .paths => .notPathList name

/-- Check that every known option has a value of its kind. -/
def check : Json.Members → Except ConfigurationCause Unit
  | [] => .ok ()
  | (name, v) :: rest =>
    match kind? name with
    | none => check rest
    | some kind => if fits kind v then check rest else .error (misfit name kind)

/-- Whether a value is none. -/
def isNull : Json → Bool
  | .null => true
  | _ => false

/-- **The options of a file, overlaid** with those of the command line that are given. -/
def overlay (file commandLine : Json.Members) : Json.Members :=
  Keyed.overlay file (commandLine.filter fun o => !isNull o.2)

/-- A flag, or what it is when it is not given. -/
def flag (options : Json.Members) (name : Text) (default : Bool) : Bool :=
  match Keyed.get? options name with
  | some (.bool b) => b
  | _ => default

/-- A text, if it is given and not empty. -/
def text? (options : Json.Members) (name : Text) : Option Text :=
  match Keyed.get? options name with
  | some (.string []) => none
  | some (.string s) => some s
  | _ => none

/-- The paths of a list, taken from a root. -/
def paths (options : Json.Members) (root name : Text) : List Text :=
  match Keyed.get? options name with
  | some (.string s) => PathList.ofText root s
  | some (.array items) =>
    PathList.resolveAll root (items.filterMap fun | .string s => some s | _ => none)
  | _ => []

/-- The options of an analysis, from options whose values are of their kinds. -/
def toOptions (root : Text) (options : Json.Members) : Options :=
  let ignored := paths options root "ignored_paths"
  { buildConfiguration := text? options "build_configuration"
    ignoreSystemHeaders := flag options "ignore_system_headers" true
    loadCompilerEnvironment := flag options "load_implicit_compiler_env" true
    ignoredTargetPaths := ignored ++ paths options root "ignored_target_paths"
    ignoredIncludePaths := ignored ++ paths options root "ignored_include_paths"
    ruleset := text? options "ruleset"
    additionalArguments := (text? options "additional_args").getD []
    resultsPath := text? options "results_path"
    projectRoot := root }

/-- **The options of an analysis**, from those of a file and of the command line. -/
def combine (projectRoot : Text) (file commandLine : Json.Members) :
    Except ConfigurationCause Options := do
  let options := overlay file commandLine
  check options
  return toOptions (Path.tidy projectRoot) options

/-- **Load the options**: find the file, read it, and let the command line win. -/
def loadOptions (settings : SettingsReader) (projectRoot : Text) (named : Option Text)
    (commandLine : Json.Members) : Action Options := do
  let root := Path.tidy projectRoot
  let path ← Action.consult (find · root named)
  let file ← load settings path
  Action.ofExcept ((combine root file commandLine).mapError fun cause =>
    .failure (.configuration cause))

/-- **The project root** that is taken when none is given: what a variable of the environment names,
or the working directory. -/
def defaultRoot : Action Text := do
  match (← read).environment.get "GITHUB_WORKSPACE" with
  | [] => return Disk.pathOf (← Action.disk).here
  | root => return Path.tidy root

end Config

end BuildLint
