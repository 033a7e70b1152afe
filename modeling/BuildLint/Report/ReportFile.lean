import BuildLint.Action
import BuildLint.Json.Writer
import BuildLint.Report.Merge

/-!
# Report/ReportFile — logs and reports on disk

* `readLog` — the log in a file.
* `mergeFiles` — the report of some files, each read when its turn comes.
* `write` and `load` — a report as a file, and back.
* `combine` — the report of some files, written to another.
-/

namespace BuildLint

namespace ReportFile

/-- A failure to merge, as a fault. -/
def fault (cause : AggregationCause) : Fault := .failure (.aggregation cause)

/-- Go on with a result, or stop because logs cannot be merged. -/
def lift {α : Type} (x : Except AggregationCause α) : Except Fault α := x.mapError fault

/-- **The log in a file.** -/
def readLog (d : Disk) (path : Text) : Except Fault Json :=
  let path := Path.tidy path
  match d.readText path with
  | .error (.file problem) => .error (fault (.unreadable path problem))
  | .error .notText => .error .notText
  | .ok t =>
    match Json.read t with
    | .error problem =>
      if problem.problem = .tooManyDigits then .error .badNumber
      else .error (fault (.malformed path problem))
    | .ok log => if Log.isObject log then .ok log else .error (fault (.fileNotObject path))

/-- Read one more file and take its log in. -/
def absorbFile (d : Disk) (r : Report) (path : Text) : Except Fault Report := do
  lift (r.absorb (← readLog d path))

/-- **The report of some files.** -/
def mergeFiles (d : Disk) (paths : List Text) : Except Fault Report :=
  paths.foldlM (absorbFile d) Report.empty

/-- **Write a report.** -/
def write (d : Disk) (r : Report) (path : Text) : Except Fault Disk :=
  (d.write (Path.tidy path) (Utf8.encode r.toJson.write)).mapError fun problem =>
    fault (.unwritable problem)

/-- The report that the first run of a log is. -/
def ofRun (run : Json) : Except AggregationCause Report := do
  let results ← Log.results run
  return ⟨Log.memberOf "tool" run, results, ← results.mapM Finding.ofResult⟩

/-- **The report in a file.** -/
def load (d : Disk) (path : Text) : Except Fault Report := do
  let runs ← lift (Log.runs (← readLog d path))
  lift (ofRun (runs.headD (.object [])))

/-- **Merge files into another.** -/
def combine (d : Disk) (output : Text) (paths : List Text) : Except Fault (Report × Disk) := do
  let report ← mergeFiles d paths
  return (report, ← write d report output)

/-- Merge files into another, on the world's disk. -/
def combineTo (output : Text) (paths : List Text) : Action Report := do
  let (report, d) ← Action.consult (combine · output paths)
  Action.setDisk d
  return report

end ReportFile

end BuildLint
