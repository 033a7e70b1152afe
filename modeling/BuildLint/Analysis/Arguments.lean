import BuildLint.Settings.Config
import BuildLint.Toolchain.Toolchain

/-!
# Analysis/Arguments — the arguments that make a compiler analyse

One list of arguments is the same for every source that a compiler compiles: the flags of the
analysis, its engine, the ruleset and whatever the user adds.  A second one belongs to a source: its
own flags, directories and definitions.

A text of arguments is cut at space, tab, carriage return and line feed.  Double quotes group what
stands between them and are themselves dropped, so a pair of them alone is an empty argument.  Every
other code point stands for itself: backslashes, single quotes and number signs too.

* `Tokens.split?` — the arguments of a text.
* `shared` — the first list.
* `ofUnit` — the second.
-/

namespace BuildLint

namespace Tokens

/-- Whether a code point parts arguments where it is not quoted. -/
def isSeparator (c : CodePoint) : Bool := c = ' ' || c = '\t' || c = '\r' || c = '\n'

/-- The arguments of a text, read after an odd number of quotes or not, while `open?` is what has
been read of an argument; nothing if a quote stays open. -/
def scan (quoted : Bool) (open? : Option Text) : Text → Option (List Text)
  | [] => if quoted then none else some open?.toList
  | c :: rest =>
    if c = '"' then scan (!quoted) (some (open?.getD [])) rest
    else if !quoted && isSeparator c then
      (scan false none rest).map (open?.toList ++ ·)
    else scan quoted (some (open?.getD [] ++ [c])) rest

/-- **The arguments of a text**, unless it holds an odd number of double quotes. -/
def split? (t : Text) : Option (List Text) := scan false none t

example : split? "/W4 \"a b\"c  \"\"" = some [("/W4" : Text), "a bc", ""] := by decide

example : split? "/D\"x" = none := by decide

end Tokens

namespace Arguments

/-- The flags that every analysis begins with. -/
def base : List Text :=
  ["/analyze:only", "/analyze:quiet", "/analyze:log:format:sarif", "/nologo"]

/-- The path where the engine of the analysis has to be: with the compilers of the host
architecture. -/
def enginePath (t : Toolchain) : Text :=
  Path.join (Path.join (Path.levelsUp 2 t.compiler) t.host) "EspXEngine.dll"

/-- **The engine of the analysis.** -/
def engine (d : Disk) (t : Toolchain) : Except Fault Text :=
  if d.isThere (enginePath t) then .ok (enginePath t)
  else .error (.failure (.synthesis (.noEngine (enginePath t))))

/-- The path where the official rulesets have to be. -/
def rulesetDirectoryPath (t : Toolchain) : Text :=
  Path.join (Path.levelsUp 8 t.compiler) "Team Tools/Static Analysis Tools/Rule Sets"

/-- **The directory of the official rulesets**, if it is there. -/
def rulesetDirectory? (d : Disk) (t : Toolchain) : Option Text :=
  if d.isDirectory (rulesetDirectoryPath t) then some (rulesetDirectoryPath t) else none

/-- Look for a ruleset in the project, and then among the official ones. -/
def findNamedRuleset (ruleset projectRoot : Text) (directory : Option Text) : Action Text := do
  let d ← Action.disk
  let ownPath := Path.resolve projectRoot ruleset
  if d.isThere ownPath then
    Action.tell .info ("Found local ruleset: " ++ ownPath)
    return ownPath
  else
    match directory with
    | none =>
      Action.tell .warning "Unable to find official rulesets shipped with Visual Studio."
      Action.fail (.synthesis (.noRuleset ruleset))
    | some directory =>
      let officialPath := Path.join directory ruleset
      if d.isThere officialPath then
        Action.tell .info ("Found official ruleset: " ++ officialPath)
        return officialPath
      else Action.fail (.synthesis (.noRuleset ruleset))

/-- **The ruleset that is asked for**, if any. -/
def findRuleset (ruleset : Option Text) (projectRoot : Text) (directory : Option Text) :
    Action (Option Text) :=
  match ruleset with
  | none => return none
  | some [] => return none
  | some name => return some (← findNamedRuleset name projectRoot directory)

/-- The arguments that name a ruleset; official rulesets refer to their siblings by name. -/
def ofRuleset (ruleset directory : Option Text) : List Text :=
  match ruleset with
  | none => []
  | some path =>
    ("/analyze:ruleset" ++ path) ::
      directory.toList.map fun (d : Text) => "/analyze:rulesetdirectory" ++ d

/-- The arguments that leave system headers out of the analysis. -/
def ofSystemHeaders (ignored : Bool) : List Text :=
  if ignored then ["/external:W0", "/analyze:external-"] else []

/-- **The arguments shared by all sources of a compiler.** -/
def shared (t : Toolchain) (options : Options) : Action (List Text) := do
  let engine ← Action.consult (engine · t)
  let directory := rulesetDirectory? (← Action.disk) t
  let ruleset ← findRuleset options.ruleset options.projectRoot directory
  if ruleset.isNone then
    Action.tell .warning "Ruleset is not being used, all warnings will be enabled."
  match Tokens.split? options.additionalArguments with
  | none => Action.fail (.configuration (.openQuote options.additionalArguments))
  | some additional =>
    return base ++ ["/analyze:plugin" ++ engine] ++ ofRuleset ruleset directory ++
      ofSystemHeaders options.ignoreSystemHeaders ++ additional

/-! ## The arguments of a source -/

/-- Whether the headers of a directory are left out of the analysis. -/
def isExternal (options : Options) (i : IncludePath) : Bool :=
  (options.ignoreSystemHeaders && i.isSystem) ||
    Path.isCovered options.ignoredIncludePaths i.path.plain

/-- **The argument for a directory to include from.** -/
def ofInclude (options : Options) (i : IncludePath) : Text :=
  (if isExternal options i then "/external:I" else "/I") ++ i.path.plain

/-- **The arguments of a source**: its flags, directories, definitions and path. -/
def ofUnit (u : CompileUnit) (t : Toolchain) (options : Options) : Except Fault (List Text) :=
  match Tokens.split? u.flags with
  | none => .error (.failure (.synthesis (.openQuote u.source)))
  | some flags =>
    .ok (flags ++ (u.includes ++ t.implicitIncludes).map (ofInclude options) ++
      u.defines.map (fun d => Text.ofString "/D" ++ d.plain) ++ [u.source])

end Arguments

end BuildLint
