import BuildLint.Analysis.Invocation
import BuildLint.CMake.Index
import BuildLint.Report.ReportFile

/-!
# Analysis/Session — from a build directory to a merged report

A **session** owns the temporary logs of its calls.  They are gone when it is closed, however it
went.

* `Session.prepare`, `Session.analyze`, `Session.merge`, `Session.close` — its steps.
* `Session.run` — all of them, for a build directory and options.
-/

namespace BuildLint

/-- **A session**: the build directory it analyses, the options, and the calls it has prepared. -/
structure Session where
  buildDirectory : Text
  options : Options
  invocations : List Invocation := []

namespace Session

/-- The temporary logs that a session owns. -/
def logs (s : Session) : List Text := s.invocations.map (·.log)

/-- **Prepare the calls**: ask CMake, find the toolchains, and build a call for every source. -/
def prepare (s : Session) : Action Session := do
  let index ← Index.request s.buildDirectory
  let toolchains ← Action.consult (Toolchains.load · index.toolchains)
  let invocations ←
    Invocation.ofBuild index.codemodel toolchains s.options (← read).environment
  return { s with invocations }

/-- The calls of a session, of which there have to be some. -/
def work (s : Session) : Except Fault (List Invocation) :=
  if s.invocations = [] then .error (.failure (.synthesis .nothingToAnalyze))
  else .ok s.invocations

/-- Make some calls, one after the other; the sources whose call fails. -/
def analyzeAll (directory : Text) : List Invocation → Action (List Text)
  | [] => return []
  | i :: rest => do
    Action.tell .info ("Running analysis on: " ++ i.source)
    let outcome ← i.run directory
    let failed ← analyzeAll directory rest
    return if outcome.ok then failed else i.source :: failed

/-- **Make the calls**; the sources whose call fails. -/
def analyze (s : Session) : Action (List Text) := analyzeAll s.buildDirectory s.invocations

/-- **Merge the logs** into a file. -/
def merge (s : Session) (output : Text) : Action Report := ReportFile.combineTo output s.logs

/-- **Close the session**: its logs are gone. -/
def close (s : Session) : Action Unit := Action.discardLogs s.logs

/-- The build directory that is meant, which has to be there. -/
def buildDirectoryFor (d : Disk) (directory projectRoot : Text) : Except Fault Text :=
  let path := Path.resolve projectRoot directory
  if d.isDirectory path then .ok path
  else .error (.failure (.configuration .noBuildDirectory))

/-- The path that is asked for: the first of the two that is not empty. -/
def requestedPath (output : Option Text) (options : Options) : Text :=
  let output := output.getD []
  if output = [] then options.resultsPath.getD [] else output

/-- **The path of the merged report**; its directory has to be there. -/
def resultPath (d : Disk) (buildDirectory : Text) (options : Options) (output : Option Text) :
    Except Fault Text :=
  let requested := requestedPath output options
  if requested = [] then .ok (Path.join buildDirectory "results.sarif")
  else
    let path := Path.resolve options.projectRoot requested
    if d.isDirectory (Path.parent path) then .ok path
    else .error (.failure (.configuration .noResultDirectory))

/-- What a session does once it is open. -/
def analyzeAndMerge (s : Session) (result : Text) : Action Report := do
  match ← s.analyze with
  | [] => s.merge result
  | failed => Action.fail (.analysis failed)

/-- Open a session, do something with its calls, and close it. -/
def use {α : Type} (buildDirectory : Text) (options : Options) (body : Session → Action α) :
    Action α := do
  let s ← prepare { buildDirectory, options }
  Action.andFinally (do let _ ← Action.ofExcept s.work; body s) s.close

/-- Tell where the report is and how many results it has. -/
def tellWritten (report : Report) (path : Text) : Action Unit :=
  Action.tell .info ("Wrote " ++ Decimal.ofNat report.findings.length ++ " unique results to " ++
    path)

/-- **Analyse every source of a build** and write the merged report. -/
def run (directory : Text) (options : Options) (output : Option Text) : Action (Text × Report) := do
  let buildDirectory ← Action.consult (buildDirectoryFor · directory options.projectRoot)
  let result ← Action.consult (resultPath · buildDirectory options output)
  let report ← use buildDirectory options (analyzeAndMerge · result)
  tellWritten report result
  return (Path.tidy result, report)

end Session

end BuildLint
