import BuildLint.Proofs.Report.RoundTrip

/-!
# Proofs/Report/Regrouping — merging in parts

A merged report is itself written as a log: one run, with the tool and the results that were kept.
Merging such logs is merging all the logs that they came from, however those were divided
(`merge_map_toJson`): the first result of a finding is the first one in the part where the finding
is met first, and a part without a tool leaves the choice to the next.

* `merge_append` — merging two lists of logs, together or one by one.
-/

namespace BuildLint

namespace Report

variable {r : Report}

/-! ## What a report's log holds -/

theorem listedRuns_toJson (r : Report) : Log.listedRuns r.toJson = [r.toRun] := rfl

theorem listedResults_toRun (r : Report) : Log.listedResults r.toRun = r.results := rfl

theorem firstTool_toRun (r : Report) : Log.firstTool [r.toRun] = r.tool :=
  Log.firstTool_singleton _

/-- Every result of a report has a finding. -/
def Accepted (r : Report) : Prop := ∀ result ∈ r.results, ∃ f, Finding.ofResult result = .ok f

theorem accepted_of_merge {logs : List Json} (h : merge logs = .ok r) : r.Accepted := by
  intro result hresult
  have hmem := List.mem_map_of_mem (f := Finding.ofResult) hresult
  rw [← (isMergeOf_of_merge h).findings] at hmem
  obtain ⟨f, -, hf⟩ := List.mem_map.1 hmem
  exact ⟨f, hf.symm⟩

/-- **Nothing offends in the log of a report** whose results have findings. -/
theorem Accepted.offence?_eq_none (h : r.Accepted) :
    ∀ e ∈ Encounter.ofLog r.toJson, e.offence? = none := by
  intro e he
  rw [Encounter.ofLog, listedRuns_toJson, List.flatMap_singleton, Encounter.ofRun,
    listedResults_toRun, List.mem_cons, List.mem_cons, List.mem_map] at he
  rcases he with rfl | rfl | ⟨result, hresult, rfl⟩
  · rfl
  · have hresults : Log.memberOf "results" r.toRun = .array r.results := rfl
    simp [Encounter.offence?, Log.violates, hresults, Log.isList]
  · obtain ⟨f, hf⟩ := h result hresult
    simp only [Encounter.offence?, hf]

/-! ## Many parts -/

variable {parts : List (List Json)} {reports : List Report}

/-- The results that the parts keep. -/
theorem map_results_of_merges (h : parts.mapM merge = .ok reports) :
    reports.map results = (parts.map fun logs =>
      (logs.flatMap Log.listedRuns).flatMap Log.listedResults).map
        (firstPerKey Finding.keyOf?) := by
  induction Steps.mapM_eq_ok.1 h with
  | nil => rfl
  | cons hr hrest ih =>
    rw [List.map_cons, List.map_cons, List.map_cons, ih (Steps.mapM_eq_ok.2 hrest),
      (isMergeOf_of_merge hr).kept]

/-- The first tool that the parts know is the first that is named. -/
theorem firstTool_of_merges (h : parts.mapM merge = .ok reports) :
    Log.firstTool (reports.map toRun) = Log.firstTool (parts.flatten.flatMap Log.listedRuns) := by
  induction Steps.mapM_eq_ok.1 h with
  | nil => rfl
  | cons hr hrest ih =>
    rw [List.map_cons, ← List.singleton_append, Log.firstTool_append, firstTool_toRun,
      ih (Steps.mapM_eq_ok.2 hrest), List.flatten_cons, List.flatMap_append, Log.firstTool_append,
      (isMergeOf_of_merge hr).tool]

/-- Nothing offends in the whole, since nothing does in the parts. -/
theorem offence?_eq_none_of_merges (h : parts.mapM merge = .ok reports) :
    ∀ e ∈ Encounter.ofLogs parts.flatten, e.offence? = none := by
  intro e he
  obtain ⟨log, hlog, he⟩ := List.mem_flatMap.1 he
  obtain ⟨logs, hlogs, hlog⟩ := List.mem_flatten.1 hlog
  exact (exists_merge_eq_ok_iff logs).1 (Steps.exists_of_mapM h hlogs) e
    (List.mem_flatMap.2 ⟨log, hlog, he⟩)

/-- **Merging the reports of parts** is merging the whole. -/
theorem merge_map_toJson (h : parts.mapM merge = .ok reports) :
    merge (reports.map toJson) = merge parts.flatten := by
  obtain ⟨whole, hwhole⟩ := (exists_merge_eq_ok_iff _).2 (offence?_eq_none_of_merges h)
  have hspec := isMergeOf_of_merge hwhole
  have haccepted : ∀ r ∈ reports, r.Accepted := by
    intro r hr
    obtain ⟨logs, -, hlogs⟩ := Steps.exists_of_mem_mapM h hr
    exact accepted_of_merge hlogs
  have hruns : (reports.map toJson).flatMap Log.listedRuns = reports.map toRun := by
    rw [List.flatMap_map, List.map_eq_flatMap]
    rfl
  have hresults : (reports.map toRun).flatMap Log.listedResults =
      (reports.map results).flatten := by
    rw [List.flatMap_map]
    rfl
  have hparts : (parts.flatten.flatMap Log.listedRuns).flatMap Log.listedResults =
      (parts.map fun logs => (logs.flatMap Log.listedRuns).flatMap Log.listedResults).flatten := by
    rw [← List.flatMap_id, ← List.flatMap_def]
    simp only [List.flatMap_assoc, id]
  rw [hwhole]
  refine merge_eq_ok_of_isMergeOf ?_ ?_
  · intro e he
    obtain ⟨doc, hdoc, he⟩ := List.mem_flatMap.1 he
    obtain ⟨r, hr, rfl⟩ := List.mem_map.1 hdoc
    exact (haccepted r hr).offence?_eq_none e he
  rw [hruns, hresults]
  refine .ofKept ?_ hspec.findings ?_ ?_
  · rw [map_results_of_merges h, firstPerKey_flatten, hspec.kept, hparts]
  · intro result hresult
    obtain ⟨l, hl, hresult⟩ := List.mem_flatten.1 hresult
    obtain ⟨r, hr, rfl⟩ := List.mem_map.1 hl
    exact haccepted r hr result hresult
  · rw [hspec.tool, firstTool_of_merges h]

/-- **Logs are merged in parts as they are together.**  Two lists of logs can be merged together
exactly if each can be; merging their reports gives the report of all, merging one report again
gives that report, and the results of the first list come first. -/
theorem merge_append (A B : List Json) :
    ((∃ r, merge (A ++ B) = .ok r) ↔ (∃ a, merge A = .ok a) ∧ ∃ b, merge B = .ok b) ∧
    ∀ a b, merge A = .ok a → merge B = .ok b →
      merge [a.toJson, b.toJson] = merge (A ++ B) ∧ merge [a.toJson] = .ok a ∧
      ∀ r, merge (A ++ B) = .ok r → a.results <+: r.results := by
  constructor
  · rw [exists_merge_eq_ok_iff, exists_merge_eq_ok_iff, exists_merge_eq_ok_iff,
      ← List.forall_mem_append, Encounter.ofLogs, List.flatMap_append]
    rfl
  intro a b ha hb
  have hpair := merge_map_toJson (Steps.mapM_eq_ok.2 (.cons ha (.cons hb .nil)))
  have hone := merge_map_toJson (Steps.mapM_eq_ok.2 (.cons ha .nil))
  refine ⟨?_, ?_, ?_⟩
  · simpa using hpair
  · simpa [ha] using hone
  · intro r hr
    rw [(isMergeOf_of_merge hr).kept, (isMergeOf_of_merge ha).kept, List.flatMap_append,
      List.flatMap_append, firstPerKey_append]
    exact List.prefix_append _ _

end Report

end BuildLint
