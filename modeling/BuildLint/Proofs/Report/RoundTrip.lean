import BuildLint.Proofs.Disk.Paths
import BuildLint.Proofs.Json.RoundTrip
import BuildLint.Proofs.Report.Merge
import BuildLint.Proofs.Steps
import BuildLint.Report.ReportFile

/-!
# Proofs/Report/RoundTrip — a written report is loaded again as it was

The tool and the results of a merged report are parts of the merged documents, so a text can spell
them if it can spell the documents.  The log of such a report is read back from its file, it is one
run again, and its results have the findings that the report already holds.

* `load_write_of_merge` — writing a merged report and loading it gives the report back.
-/

namespace BuildLint

namespace Log

variable {key : Text} {v w : Json}

/-! ## The parts of a log -/

/-- A member is a part, unless it is missing. -/
theorem memberOf_eq_null_or (key : Text) (v : Json) :
    memberOf key v = .null ∨ (memberOf key v).IsPartOf v := by
  cases v with
  | object members =>
    rw [memberOf]
    cases h : Keyed.get? members key with
    | none => exact .inl rfl
    | some w => exact .inr (.member (Keyed.mem_of_get? h) (.self w))
  | _ => exact .inl rfl

theorem isPartOf_of_mem_listUnder (h : w ∈ listUnder key v) : w.IsPartOf v := by
  rw [listUnder] at h
  rcases memberOf_eq_null_or key v with hnull | hpart
  · rw [hnull] at h
    exact absurd h List.not_mem_nil
  · split at h
    · rename_i items hitems
      rw [hitems] at hpart
      exact .trans (.item h (.self w)) hpart
    · exact absurd h List.not_mem_nil

/-- A tool that is named is a part of a run. -/
theorem firstTool_eq_null_or (runs : List Json) :
    firstTool runs = .null ∨ ∃ run ∈ runs, (firstTool runs).IsPartOf run := by
  induction runs with
  | nil => exact .inl rfl
  | cons run runs ih =>
    rw [firstTool]
    split
    · rcases ih with hnone | ⟨other, hother, hpart⟩
      · exact .inl hnone
      · exact .inr ⟨other, List.mem_cons_of_mem run hother, hpart⟩
    · exact (memberOf_eq_null_or "tool" run).imp_right fun hpart =>
        ⟨run, List.mem_cons_self, hpart⟩

end Log

namespace Report

/-- A property that the tool has and every result. -/
def All (P : Json → Prop) (r : Report) : Prop := P r.tool ∧ ∀ result ∈ r.results, P result

/-- **The tool and the results of a merged report** are parts of the documents. -/
theorem all_of_merge {P : Json → Prop} (hnull : P .null)
    (hpart : ∀ v w : Json, w.IsPartOf v → P v → P w) {docs : List Json} {r : Report}
    (hdocs : ∀ doc ∈ docs, P doc) (h : merge docs = .ok r) : r.All P := by
  have hspec := isMergeOf_of_merge h
  have hrun : ∀ run ∈ docs.flatMap Log.listedRuns, P run := fun run hrun => by
    obtain ⟨doc, hdoc, hlisted⟩ := List.mem_flatMap.1 hrun
    exact hpart doc run (Log.isPartOf_of_mem_listUnder hlisted) (hdocs doc hdoc)
  constructor
  · rw [hspec.tool]
    rcases Log.firstTool_eq_null_or (docs.flatMap Log.listedRuns) with htool | ⟨run, hmem, htool⟩
    · rwa [htool]
    · exact hpart run _ htool (hrun run hmem)
  · intro result hresult
    obtain ⟨run, hmem, hlisted⟩ := List.mem_flatMap.1 (hspec.ordered.subset hresult)
    exact hpart run result (Log.isPartOf_of_mem_listUnder hlisted) (hrun run hmem)

/-! ## The log of a report -/

variable {r : Report}

/-- The run of the log that a report is written as. -/
def toRun (r : Report) : Json := .object [("tool", r.tool), ("results", .array r.results)]

theorem isSpellable_toRun (h : r.All Json.IsSpellable) : r.toRun.IsSpellable := by
  have hkeys : List.Nodup [Text.ofString "tool", Text.ofString "results"] := by decide
  refine Json.isSpellable_object.2 ⟨hkeys, ?_⟩
  simpa [All] using h

/-- **A text can spell the log of a report** if it can spell its tool and results. -/
theorem isSpellable_toJson (h : r.All Json.IsSpellable) : r.toJson.IsSpellable := by
  have hkeys : List.Nodup [Text.ofString "version", Text.ofString "$schema",
      Text.ofString "runs"] := by decide
  have hrun := isSpellable_toRun h
  have hversion : version.Unpaired := Text.unpaired_ofString _
  have hschema : schema.Unpaired := Text.unpaired_ofString _
  refine Json.isSpellable_object.2 ⟨hkeys, ?_⟩
  simpa [hversion, hschema, toRun] using hrun

theorem hasNoFloat_toJson (h : r.All Json.HasNoFloat) : r.toJson.HasNoFloat := by
  refine Json.hasNoFloat_object.2 ?_
  simpa [All] using h

/-- **The log of a report is one run.** -/
theorem runs_toJson (r : Report) : Log.runs r.toJson = .ok [r.toRun] := by
  have hruns : Log.memberOf "runs" r.toJson = .array [r.toRun] := rfl
  have hobject : Log.isObject r.toJson = true := rfl
  rw [Log.runs, if_pos hobject, hruns]
  rfl

/-- **The results of that run** are those of the report. -/
theorem results_toRun (r : Report) : Log.results r.toRun = .ok r.results := by
  have hresults : Log.memberOf "results" r.toRun = .array r.results := rfl
  rw [Log.results, hresults]
  cases r.results with
  | nil => rfl
  | cons result results => rfl

end Report

namespace ReportFile

variable {r : Report}

/-- **The run of a report** is the report, if its results have the findings it holds. -/
theorem ofRun_eq_ok (h : r.findings.map .ok = r.results.map Finding.ofResult) :
    ofRun r.toRun = .ok r := by
  have htool : Log.memberOf "tool" r.toRun = r.tool := rfl
  rw [ofRun, Report.results_toRun, htool]
  exact Steps.bind_eq_ok.2 ⟨r.results, rfl, Steps.bind_eq_ok.2
    ⟨r.findings, Steps.mapM_eq_ok_of_map h, rfl⟩⟩

/-- **A log that is written to a file** is the log in that file. -/
theorem readLog_of_write {d e : Disk} {path : Text} {log : Json} (hlog : log.IsSpellable)
    (hfloat : log.HasNoFloat) (hobject : Log.isObject log = true)
    (h : d.write (Path.tidy path) (Utf8.encode log.write) = .ok e) :
    readLog e path = .ok log := by
  have htext : e.readText (Path.tidy path) = .ok log.write :=
    Disk.readText_of_isPlain (Json.isPlain_write log hfloat) (Disk.readBytes_write_self h)
  rw [readLog, htext]
  dsimp only
  rw [Json.read_write hlog hfloat]
  exact if_pos hobject

/-- **A merged report that is written is loaded again as it was.**  A JSON text consists of Unicode
characters, so half of a surrogate pair gets into a document by an escape only. -/
theorem load_write_of_merge {texts : List String} {docs : List Json} {r : Report}
    (hread : texts.mapM (fun t => Json.read (Text.ofString t)) = .ok docs)
    (hfloat : ∀ doc ∈ docs, doc.HasNoFloat) (hmerge : Report.merge docs = .ok r)
    {d : Disk} {path : Text} (hpath : ∃ content e, d.write (Path.tidy path) content = .ok e) :
    ∃ e, write d r path = .ok e ∧ load e path = .ok r := by
  have hdocs : ∀ doc ∈ docs, doc.IsSpellable := fun doc hdoc => by
    obtain ⟨t, -, ht⟩ := Steps.exists_of_mem_mapM hread hdoc
    exact Json.read_isSpellable (Text.isUnicode_ofString t) ht
  have hspellable : r.toJson.IsSpellable := Report.isSpellable_toJson
    (Report.all_of_merge .null (fun _ _ hw hv => hv.part hw) hdocs hmerge)
  have hnoFloat : r.toJson.HasNoFloat := Report.hasNoFloat_toJson
    (Report.all_of_merge (fun _ h => nomatch h) (fun _ _ hw hv => hv.part hw) hfloat hmerge)
  obtain ⟨e, he⟩ := Disk.exists_write_eq_ok hpath (Utf8.encode r.toJson.write)
  have hlog : readLog e path = .ok r.toJson := readLog_of_write hspellable hnoFloat rfl he
  refine ⟨e, ?_, ?_⟩
  · rw [write, he]
    rfl
  · refine Steps.bind_eq_ok.2 ⟨r.toJson, hlog, Steps.bind_eq_ok.2 ⟨[r.toRun], ?_, ?_⟩⟩
    · exact Steps.ok_of_mapError.2 (Report.runs_toJson r)
    · exact Steps.ok_of_mapError.2 (ofRun_eq_ok (Report.isMergeOf_of_merge hmerge).findings)

/-! ### Half of a pair -/

/-- A result whose message is half of a surrogate pair. -/
def halfResult : Json := .object [
  ("ruleId", .string "C6001"),
  ("message", .object [("text", .string [⟨0xD800, by decide⟩])]),
  ("locations", .array [.object [("physicalLocation", .object [
    ("artifactLocation", .object [("uri", .string "a.cpp")]),
    ("region", .object [("startLine", .int 1), ("startColumn", .int 2)])])]])]

/-- A log of that result, without a tool. -/
def halfLog : Json := .object [("runs", .array [.object [("results", .array [halfResult])]])]

/-- The report of that log. -/
def halfReport : Report :=
  ⟨.null, [halfResult], [⟨"C6001", [⟨0xD800, by decide⟩], "a.cpp", 1, 2⟩]⟩

theorem load_write_of_merge_halfLog : ∃ e, write ⟨[], []⟩ halfReport "out.sarif" = .ok e ∧
    load e "out.sarif" = .ok halfReport := by
  have hfloat : halfLog.HasNoFloat := by simp [halfLog, halfResult]
  have hspellable : halfLog.IsSpellable := by simp +decide [halfLog, halfResult]
  have hread : Json.read (Text.ofString halfLog.write.toString) = .ok halfLog := by
    rw [(Json.isPlain_write halfLog hfloat).ofString_toString]
    exact Json.read_write hspellable hfloat
  have hmerge : Report.merge [halfLog] = .ok halfReport := by rfl
  exact load_write_of_merge (Steps.mapM_eq_ok.2 (.cons hread .nil))
    (List.forall_mem_singleton.2 hfloat) hmerge ⟨[], _, rfl⟩

end ReportFile

end BuildLint
