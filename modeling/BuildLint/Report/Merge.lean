import BuildLint.Report.Finding

/-!
# Report/Merge — many logs as one report

A log holds runs, and a run holds results.  A **report** keeps the first result of every finding, in
the order in which they are met, and the first tool that any run names.

* `Seen.add` — notice a finding.
* `Log.runs`, `Log.results` — the parts of a log.
* `Report.absorb` — take one more log in.
* `Report.merge` — the report of some logs.
* `Report.toJson` — the log that a report is written as.
-/

namespace BuildLint

/-- The findings met so far. -/
abbrev Seen := List Finding

namespace Seen

/-- **Notice a finding**: whether it is new, and what has been met then. -/
def add (f : Finding) (seen : Seen) : Bool × Seen :=
  if f ∈ seen then (false, seen) else (true, seen ++ [f])

end Seen

namespace Log

/-- Whether a value is an object. -/
def isObject : Json → Bool
  | .object _ => true
  | _ => false

/-- An optional member of an object, nothing of another value. -/
def memberOf (key : Text) : Json → Json
  | .object members => (Keyed.get? members key).getD .null
  | _ => .null

/-- **The runs of a log.** -/
def runs (log : Json) : Except AggregationCause (List Json) :=
  if isObject log then
    match (memberOf "runs" log).orElse (.array []) with
    | .array runs => if runs.all isObject then .ok runs else .error .runsNotObjects
    | _ => .error .runsNotObjects
  else .error .notObject

/-- **The results of a run.** -/
def results (run : Json) : Except AggregationCause (List Json) :=
  match (memberOf "results" run).orElse (.array []) with
  | .array results => .ok results
  | _ => .error .resultsNotList

end Log

/-- **A report**: the tool, the results as they were logged, and the finding of each. -/
structure Report where
  tool : Json
  results : List Json
  findings : List Finding

namespace Report

/-- The report of no log. -/
def empty : Report := ⟨.null, [], []⟩

/-- Take one result in: only the first one of a finding is kept. -/
def absorbResult (r : Report) (result : Json) : Except AggregationCause Report := do
  match Seen.add (← Finding.ofResult result) r.findings with
  | (true, findings) => return { r with results := r.results ++ [result], findings }
  | (false, _) => return r

/-- Take the tool of a run, unless one is known. -/
def absorbTool (r : Report) (run : Json) : Report :=
  match r.tool with
  | .null => { r with tool := Log.memberOf "tool" run }
  | _ => r

/-- Take one run in. -/
def absorbRun (r : Report) (run : Json) : Except AggregationCause Report := do
  (← Log.results run).foldlM absorbResult (absorbTool r run)

/-- **Take one log in.** -/
def absorb (r : Report) (log : Json) : Except AggregationCause Report := do
  (← Log.runs log).foldlM absorbRun r

/-- **The report of some logs.** -/
def merge (logs : List Json) : Except AggregationCause Report := logs.foldlM absorb empty

/-- The version of the format. -/
def version : Text := "2.1.0"

/-- Where the format is described. -/
def schema : Text :=
  "https://schemastore.azurewebsites.net/schemas/json/sarif-2.1.0-rtm.5.json"

/-- **The log that a report is written as**: one run. -/
def toJson (r : Report) : Json :=
  .object [("version", .string version), ("$schema", .string schema),
    ("runs", .array [.object [("tool", r.tool), ("results", .array r.results)]])]

end Report

end BuildLint
