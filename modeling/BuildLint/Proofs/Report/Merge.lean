import BuildLint.Proofs.Report.FirstPerKey
import BuildLint.Report.Merge
import Mathlib.Data.Option.Basic

/-!
# Proofs/Report/Merge — merging keeps the first result of every finding

Merging is three loops inside each other.  What they meet one after the other — a log, a run of it,
a result of that run — is one list of **encounters**, and merging is one loop over it
(`merge_eq_foldlM`).  An encounter either offends or changes the report, whatever the report is, so
the loop fails with the first offence (`foldlM_visit`) and otherwise builds what `IsMergeOf` says.

* `merge_spec` — when merging fails and how, and which report it gives otherwise.
-/

namespace BuildLint

namespace Log

/-! ## What a log lists -/

/-- The items of a member that is a list, none of any other. -/
def listUnder (key : Text) (v : Json) : List Json :=
  match memberOf key v with
  | .array items => items
  | _ => []

/-- The runs that a log lists, whatever they are. -/
def listedRuns (log : Json) : List Json := listUnder "runs" log

/-- The results that a run lists, whatever they are. -/
def listedResults (run : Json) : List Json := listUnder "results" run

/-- Whether a value is a list. -/
def isList : Json → Bool
  | .array _ => true
  | _ => false

/-- Whether a value is a list of objects. -/
def isObjectList : Json → Bool
  | .array items => items.all isObject
  | _ => false

/-- Whether a member counts as present and yet fails a test. -/
def violates (test : Json → Bool) (key : Text) (v : Json) : Bool :=
  (memberOf key v).isTruthy && !test (memberOf key v)

end Log

/-! ## Encounters -/

/-- **What merging meets**, one after the other. -/
inductive Encounter where
  | log (log : Json)
  | run (run : Json)
  | result (result : Json)

namespace Encounter

/-- What is wrong with something met, if anything is. -/
def offence? : Encounter → Option AggregationCause
  | .log v =>
    if !Log.isObject v then some .notObject
    else if Log.violates Log.isObjectList "runs" v then some .runsNotObjects
    else none
  | .run v => if Log.violates Log.isList "results" v then some .resultsNotList else none
  | .result v =>
    match Finding.ofResult v with
    | .error cause => some cause
    | .ok _ => none

/-- The run that is met, if it is one. -/
def run? : Encounter → Option Json
  | .run v => some v
  | _ => none

/-- The result that is met, if it is one. -/
def result? : Encounter → Option Json
  | .result v => some v
  | _ => none

/-- A run and then its results. -/
def ofRun (run : Json) : List Encounter := .run run :: (Log.listedResults run).map .result

/-- A log and then its runs. -/
def ofLog (log : Json) : List Encounter := .log log :: (Log.listedRuns log).flatMap ofRun

/-- **All that is met in some logs**, in order. -/
def ofLogs (logs : List Json) : List Encounter := logs.flatMap ofLog

theorem filterMap_run?_ofRun (run : Json) : (ofRun run).filterMap run? = [run] := by
  have h : (Encounter.run run).run? = some run := rfl
  rw [ofRun, List.filterMap_cons_some h, List.filterMap_map]
  exact congrArg _ (List.filterMap_eq_nil_iff.2 fun _ _ => rfl)

theorem filterMap_result?_ofRun (run : Json) :
    (ofRun run).filterMap result? = Log.listedResults run := by
  rw [ofRun, List.filterMap_cons_none rfl, List.filterMap_map]
  exact List.filterMap_some

theorem filterMap_run?_ofLogs (logs : List Json) :
    (ofLogs logs).filterMap run? = logs.flatMap Log.listedRuns := by
  rw [ofLogs, List.filterMap_flatMap]
  refine congrArg (List.flatMap · logs) (funext fun log => ?_)
  rw [ofLog, List.filterMap_cons_none rfl, List.filterMap_flatMap]
  simp only [filterMap_run?_ofRun, List.flatMap_singleton']

theorem filterMap_result?_ofLogs (logs : List Json) :
    (ofLogs logs).filterMap result? =
      (logs.flatMap Log.listedRuns).flatMap Log.listedResults := by
  rw [ofLogs, List.filterMap_flatMap, List.flatMap_assoc]
  refine congrArg (List.flatMap · logs) (funext fun log => ?_)
  rw [ofLog, List.filterMap_cons_none rfl, List.filterMap_flatMap]
  simp only [filterMap_result?_ofRun]

end Encounter

namespace Log

/-- What does not count as present lists nothing. -/
theorem listUnder_of_not_isTruthy {key : Text} {v : Json}
    (h : ¬(memberOf key v).isTruthy = true) : listUnder key v = [] := by
  rw [listUnder]
  cases hv : memberOf key v with
  | array items => simpa [hv, Json.isTruthy] using h
  | _ => rfl

/-- The runs of a log are those it lists, unless it offends. -/
theorem runs_eq (log : Json) :
    runs log = match (Encounter.log log).offence? with
      | some cause => .error cause
      | none => .ok (listedRuns log) := by
  simp only [runs, Encounter.offence?, violates, listedRuns, Json.orElse]
  cases isObject log with
  | false => rfl
  | true =>
    by_cases ht : (memberOf "runs" log).isTruthy = true
    · obtain ⟨v, hv⟩ : ∃ v, memberOf "runs" log = v := ⟨_, rfl⟩
      simp only [listUnder, hv] at ht ⊢
      cases v with
      | array items => cases hall : items.all isObject <;> simp [isObjectList, ht, hall]
      | _ => simp [isObjectList, ht]
    · simp [listUnder_of_not_isTruthy ht, ht]

/-- The results of a run are those it lists, unless it offends. -/
theorem results_eq (run : Json) :
    results run = match (Encounter.run run).offence? with
      | some cause => .error cause
      | none => .ok (listedResults run) := by
  simp only [results, Encounter.offence?, violates, listedResults, Json.orElse]
  by_cases ht : (memberOf "results" run).isTruthy = true
  · obtain ⟨v, hv⟩ : ∃ v, memberOf "results" run = v := ⟨_, rfl⟩
    simp only [listUnder, hv] at ht ⊢
    cases v <;> simp [isList, ht]
  · simp [listUnder_of_not_isTruthy ht, ht]

end Log

/-- A loop over a list of lists is one over all their entries. -/
theorem foldlM_flatMap {α β σ ε : Type} (step : σ → β → Except ε σ) (parts : α → List β)
    (l : List α) (s : σ) :
    (l.flatMap parts).foldlM step s = l.foldlM (fun s a => (parts a).foldlM step s) s := by
  induction l generalizing s with
  | nil => rfl
  | cons a l ih =>
    rw [List.flatMap_cons, List.foldlM_append, List.foldlM_cons]
    exact congrArg _ (funext ih)

namespace Report

/-! ## One loop

Whether an encounter offends does not depend on the report so far, so the first offence of the whole
list decides, and otherwise the loop is a plain fold. -/

/-- The report after something that does not offend. -/
def meet (r : Report) : Encounter → Report
  | .log _ => r
  | .run run => r.absorbTool run
  | .result result =>
    match Finding.ofResult result with
    | .error _ => r
    | .ok f =>
      if f ∈ r.findings then r
      else { r with results := r.results ++ [result], findings := r.findings ++ [f] }

/-- **One encounter**: it offends, or it changes the report. -/
def visit (r : Report) (e : Encounter) : Except AggregationCause Report :=
  match e.offence? with
  | some cause => .error cause
  | none => .ok (r.meet e)

theorem absorbResult_eq_visit (r : Report) (result : Json) :
    r.absorbResult result = r.visit (.result result) := by
  rw [absorbResult, visit, Encounter.offence?, meet]
  cases Finding.ofResult result with
  | error cause => rfl
  | ok f => by_cases h : f ∈ r.findings <;> simp [h, Seen.add, bind, Except.bind, pure, Except.pure]

theorem absorbRun_eq_foldlM (r : Report) (run : Json) :
    r.absorbRun run = (Encounter.ofRun run).foldlM visit r := by
  rw [absorbRun, Log.results_eq, Encounter.ofRun, List.foldlM_cons, visit]
  cases (Encounter.run run).offence? with
  | some cause => rfl
  | none =>
    change (Log.listedResults run).foldlM absorbResult _ =
      ((Log.listedResults run).map Encounter.result).foldlM visit _
    rw [List.foldlM_map, show absorbResult = fun r result => visit r (.result result) from
      funext₂ absorbResult_eq_visit]
    rfl

theorem absorb_eq_foldlM (r : Report) (log : Json) :
    r.absorb log = (Encounter.ofLog log).foldlM visit r := by
  rw [absorb, Log.runs_eq, Encounter.ofLog, List.foldlM_cons, visit]
  cases (Encounter.log log).offence? with
  | some cause => rfl
  | none =>
    change (Log.listedRuns log).foldlM absorbRun r = _
    rw [show absorbRun = fun r run => (Encounter.ofRun run).foldlM visit r from
      funext₂ absorbRun_eq_foldlM]
    exact (foldlM_flatMap visit Encounter.ofRun _ r).symm

/-- **Merging is one loop over what it meets.** -/
theorem merge_eq_foldlM (logs : List Json) :
    merge logs = (Encounter.ofLogs logs).foldlM visit empty := by
  rw [merge, show absorb = fun r log => (Encounter.ofLog log).foldlM visit r from
    funext₂ absorb_eq_foldlM]
  exact (foldlM_flatMap visit Encounter.ofLog _ empty).symm

/-- **The loop fails with the first offence**, and otherwise meets everything. -/
theorem foldlM_visit (es : List Encounter) (r : Report) :
    es.foldlM visit r = match es.findSome? Encounter.offence? with
      | some cause => .error cause
      | none => .ok (es.foldl meet r) := by
  induction es generalizing r with
  | nil => rfl
  | cons e es ih =>
    rw [List.foldlM_cons, visit, List.findSome?_cons]
    cases e.offence? with
    | some cause => rfl
    | none => exact ih (r.meet e)

end Report

/-! ## What a merged report is -/

/-- What makes two findings the same: file, rule, line, column and message. -/
abbrev Finding.Key := Text × Text × Int × Int × Text

/-- Named, since the search for it inside an `Option` gives up at this depth. -/
instance : DecidableEq Finding.Key := inferInstanceAs (DecidableEq (Text × Text × Int × Int × Text))

/-- The key of a result, if it has a finding. -/
def Finding.keyOf? (result : Json) : Option Finding.Key :=
  match ofResult result with
  | .ok f => some f.key
  | .error _ => none

theorem Finding.keyOf?_eq_some {result : Json} {f : Finding} (h : ofResult result = .ok f) :
    keyOf? result = some f.key := by rw [keyOf?, h]

/-- The first tool that is named in some runs, null if none is. -/
def Log.firstTool : List Json → Json
  | [] => .null
  | run :: rest =>
    match memberOf "tool" run with
    | .null => firstTool rest
    | tool => tool

theorem Log.firstTool_append (runs others : List Json) :
    firstTool (runs ++ others) =
      match firstTool runs with
      | .null => firstTool others
      | tool => tool := by
  induction runs with
  | nil => rfl
  | cons first rest ih =>
    rw [List.cons_append, firstTool, ih, firstTool]
    cases memberOf "tool" first <;> rfl

theorem Log.firstTool_singleton (run : Json) : firstTool [run] = memberOf "tool" run := by
  rw [firstTool]
  cases memberOf "tool" run <;> rfl

namespace Report

/-- **The report that some runs and their results have**: the first result of every finding, the
finding of each, no finding twice and none lost, and the first tool that is named. -/
structure IsMergeOf (runs results : List Json) (r : Report) : Prop where
  kept : r.results = firstPerKey Finding.keyOf? results
  ordered : r.results.Sublist results
  findings : r.findings.map .ok = r.results.map Finding.ofResult
  distinct : (r.findings.map Finding.key).Nodup
  covered : ∀ result ∈ results, ∃ f, Finding.ofResult result = .ok f ∧
    f.key ∈ r.findings.map Finding.key
  tool : r.tool = Log.firstTool runs

/-- The keys of the findings are those of the results. -/
theorem map_keyOf?_results {r : Report}
    (h : r.findings.map .ok = r.results.map Finding.ofResult) :
    r.results.map Finding.keyOf? = (r.findings.map Finding.key).map some := by
  obtain ⟨tool, results, findings⟩ := r
  simp only at h ⊢
  induction results generalizing findings with
  | nil => cases findings with
    | nil => rfl
    | cons f rest => cases h
  | cons result results ih => cases findings with
    | nil => cases h
    | cons f rest =>
      obtain ⟨hf, hrest⟩ := List.cons.inj h
      rw [List.map_cons, Finding.keyOf?_eq_some hf.symm, ih rest hrest]
      rfl

/-- Distinctness, coverage and order follow from the rest. -/
theorem IsMergeOf.ofKept {runs results : List Json} {r : Report}
    (kept : r.results = firstPerKey Finding.keyOf? results)
    (findings : r.findings.map .ok = r.results.map Finding.ofResult)
    (accepted : ∀ result ∈ results, ∃ f, Finding.ofResult result = .ok f)
    (tool : r.tool = Log.firstTool runs) : IsMergeOf runs results r := by
  have hkeys := map_keyOf?_results findings
  refine ⟨kept, kept ▸ firstPerKey_sublist _ _, findings, ?_, fun result hr => ?_, tool⟩
  · have h := nodup_map_firstPerKey Finding.keyOf? results
    rw [← kept, hkeys] at h
    exact h.of_map some
  · obtain ⟨f, hf⟩ := accepted result hr
    have h : Finding.keyOf? result ∈ r.results.map Finding.keyOf? := by
      rw [kept, mem_map_firstPerKey]
      exact List.mem_map_of_mem hr
    rw [hkeys, Finding.keyOf?_eq_some hf] at h
    obtain ⟨k, hk, hkey⟩ := List.mem_map.1 h
    exact ⟨f, hf, Option.some.inj hkey ▸ hk⟩

/-- **The findings that are kept** are those of the results. -/
theorem IsMergeOf.mem_keys_iff {runs results : List Json} {r : Report}
    (h : IsMergeOf runs results r) (k : Finding.Key) :
    k ∈ r.findings.map Finding.key ↔ some k ∈ results.map Finding.keyOf? := by
  rw [← mem_map_firstPerKey Finding.keyOf? results, ← h.kept, map_keyOf?_results h.findings,
    List.mem_map_of_injective (Option.some_injective _)]

/-- A report is determined by its runs and results. -/
theorem IsMergeOf.unique {runs results : List Json} {r s : Report}
    (hr : IsMergeOf runs results r) (hs : IsMergeOf runs results s) : r = s := by
  have hresults : r.results = s.results := hr.kept.trans hs.kept.symm
  have hfindings : r.findings.map (Except.ok (ε := AggregationCause)) = s.findings.map .ok := by
    rw [hr.findings, hs.findings, hresults]
  have htool : r.tool = s.tool := hr.tool.trans hs.tool.symm
  obtain ⟨⟩ := r
  obtain ⟨⟩ := s
  simp only at hresults hfindings htool
  rw [hresults, htool, (List.map_injective_iff.2 fun _ _ => Except.ok.inj) hfindings]

/-- The empty report merges nothing. -/
theorem isMergeOf_empty : IsMergeOf [] [] empty :=
  .ofKept rfl rfl (fun _ h => absurd h List.not_mem_nil) rfl

/-- **One encounter** that does not offend extends what is merged. -/
theorem IsMergeOf.meet {runs results : List Json} {r : Report} {e : Encounter}
    (h : IsMergeOf runs results r) (he : e.offence? = none) :
    IsMergeOf (runs ++ e.run?.toList) (results ++ e.result?.toList) (r.meet e) := by
  have haccepted : ∀ result ∈ results, ∃ f, Finding.ofResult result = .ok f := fun result hr =>
    (h.covered result hr).imp fun _ hf => hf.1
  cases e with
  | log log => simpa [Encounter.run?, Encounter.result?, Report.meet] using h
  | run run =>
    simp only [Encounter.run?, Encounter.result?, Option.toList_some, Option.toList_none,
      List.append_nil, Report.meet]
    have htool : (r.absorbTool run).tool = Log.firstTool (runs ++ [run]) := by
      rw [Log.firstTool_append, Log.firstTool_singleton, ← h.tool, absorbTool]
      cases ht : r.tool <;> simp [ht]
    have hsame : (r.absorbTool run).results = r.results ∧
        (r.absorbTool run).findings = r.findings := by
      rw [absorbTool]
      cases r.tool <;> exact ⟨rfl, rfl⟩
    exact .ofKept (hsame.1.trans h.kept) (by rw [hsame.1, hsame.2]; exact h.findings) haccepted
      htool
  | result result =>
    simp only [Encounter.run?, Encounter.result?, Option.toList_some, Option.toList_none,
      List.append_nil, Report.meet]
    cases hf : Finding.ofResult result with
    | error cause => simp [Encounter.offence?, hf] at he
    | ok f =>
      have hall : ∀ v ∈ results ++ [result], ∃ f, Finding.ofResult v = .ok f := fun v hv => by
        rcases List.mem_append.1 hv with hv | hv
        · exact haccepted v hv
        · exact ⟨f, List.mem_singleton.1 hv ▸ hf⟩
      -- the finding is known exactly if an earlier result has its key
      have hknown : Finding.keyOf? result ∈ results.map Finding.keyOf? ↔ f ∈ r.findings := by
        rw [Finding.keyOf?_eq_some hf, ← h.mem_keys_iff,
          List.mem_map_of_injective fun _ _ => Finding.key_injective]
      by_cases hmem : f ∈ r.findings
      · simp only [hmem, if_true]
        refine .ofKept ?_ h.findings hall h.tool
        rw [firstPerKey_concat, if_pos (hknown.2 hmem), List.append_nil]
        exact h.kept
      · simp only [hmem, if_false]
        refine .ofKept ?_ ?_ hall h.tool
        · rw [firstPerKey_concat, if_neg (mt hknown.1 hmem), ← h.kept]
        · rw [List.map_append, List.map_append, h.findings, List.map_singleton,
            List.map_singleton, hf]

/-- **A list of encounters** without an offence, met one after the other. -/
theorem IsMergeOf.foldl_meet {runs results : List Json} {r : Report} (es : List Encounter)
    (h : IsMergeOf runs results r) (hes : ∀ e ∈ es, e.offence? = none) :
    IsMergeOf (runs ++ es.filterMap Encounter.run?) (results ++ es.filterMap Encounter.result?)
      (es.foldl Report.meet r) := by
  induction es generalizing runs results r with
  | nil => simpa using h
  | cons e es ih =>
    have hrest := ih (h.meet (hes e List.mem_cons_self)) fun d hd =>
      hes d (List.mem_cons_of_mem e hd)
    have hcons : ∀ (f : Encounter → Option Json),
        (e :: es).filterMap f = (f e).toList ++ es.filterMap f := fun f => by
      cases hf : f e <;> simp [hf]
    rw [hcons, hcons, ← List.append_assoc, ← List.append_assoc]
    exact hrest

end Report

/-! ## When merging fails -/

/-- **A log that cannot be merged**: it is no object, its runs are no list of objects, the results of
a run are no list, or one of them has no finding. -/
inductive Log.Rejected (log : Json) : Prop where
  | notObject (h : isObject log = false)
  | runs (h : violates isObjectList "runs" log = true)
  | results (run : Json) (listed : run ∈ listedRuns log)
      (h : violates isList "results" run = true)
  | result (run result : Json) (listed : run ∈ listedRuns log)
      (logged : result ∈ listedResults run) (cause : AggregationCause)
      (h : Finding.ofResult result = .error cause)

theorem Encounter.offence?_result_eq_some {result : Json} {cause : AggregationCause} :
    (Encounter.result result).offence? = some cause ↔
      Finding.ofResult result = .error cause := by
  rw [offence?]
  cases Finding.ofResult result <;> simp

/-- A log is rejected exactly if something met in it offends. -/
theorem Log.rejected_iff (log : Json) :
    Rejected log ↔ ∃ e ∈ Encounter.ofLog log, ∃ cause, e.offence? = some cause := by
  simp only [Encounter.ofLog, Encounter.ofRun, List.mem_cons, List.mem_flatMap, List.mem_map]
  constructor
  · rintro (h | h | ⟨run, hrun, h⟩ | ⟨run, result, hrun, hresult, cause, h⟩)
    · exact ⟨_, .inl rfl, .notObject, by simp [Encounter.offence?, h]⟩
    · cases hobj : isObject log with
      | false => exact ⟨_, .inl rfl, .notObject, by simp [Encounter.offence?, hobj]⟩
      | true => exact ⟨_, .inl rfl, .runsNotObjects, by simp [Encounter.offence?, hobj, h]⟩
    · exact ⟨_, .inr ⟨run, hrun, .inl rfl⟩, .resultsNotList, by simp [Encounter.offence?, h]⟩
    · exact ⟨_, .inr ⟨run, hrun, .inr ⟨result, hresult, rfl⟩⟩, cause,
        Encounter.offence?_result_eq_some.2 h⟩
  · rintro ⟨e, rfl | ⟨run, hrun, rfl | ⟨result, hresult, rfl⟩⟩, cause, h⟩
    · rw [Encounter.offence?] at h
      split at h
      · exact .notObject (by simpa using ‹(!isObject log) = true›)
      · split at h
        · exact .runs ‹_›
        · cases h
    · rw [Encounter.offence?] at h
      split at h
      · exact .results run hrun ‹_›
      · cases h
    · exact .result run result hrun hresult cause (Encounter.offence?_result_eq_some.1 h)

/-- Some log is rejected exactly if there is a first offence. -/
theorem Log.exists_rejected_iff (logs : List Json) :
    (∃ log ∈ logs, Rejected log) ↔
      ∃ cause, (Encounter.ofLogs logs).findSome? Encounter.offence? = some cause := by
  constructor
  · rintro ⟨log, hlog, h⟩
    obtain ⟨e, he, cause, hoffence⟩ := (rejected_iff log).1 h
    refine Option.ne_none_iff_exists'.1 fun hnone => ?_
    have h := List.findSome?_eq_none_iff.1 hnone e (List.mem_flatMap.2 ⟨log, hlog, he⟩)
    exact Option.some_ne_none cause (hoffence.symm.trans h)
  · rintro ⟨cause, h⟩
    obtain ⟨e, he, hoffence⟩ := List.exists_of_findSome?_eq_some h
    obtain ⟨log, hlog, he⟩ := List.mem_flatMap.1 he
    exact ⟨log, hlog, (rejected_iff log).2 ⟨e, he, cause, hoffence⟩⟩

namespace Report

/-- What is met in some logs, none of it offending, is merged. -/
theorem isMergeOf_foldl_meet {logs : List Json}
    (h : (Encounter.ofLogs logs).findSome? Encounter.offence? = none) :
    IsMergeOf (logs.flatMap Log.listedRuns)
      ((logs.flatMap Log.listedRuns).flatMap Log.listedResults)
      ((Encounter.ofLogs logs).foldl meet empty) := by
  have hspec := isMergeOf_empty.foldl_meet _ (List.findSome?_eq_none_iff.1 h)
  rwa [Encounter.filterMap_run?_ofLogs, Encounter.filterMap_result?_ofLogs, List.nil_append,
    List.nil_append] at hspec

/-- **What merging gives.** -/
theorem isMergeOf_of_merge {logs : List Json} {r : Report} (h : merge logs = .ok r) :
    IsMergeOf (logs.flatMap Log.listedRuns)
      ((logs.flatMap Log.listedRuns).flatMap Log.listedResults) r := by
  rw [merge_eq_foldlM, foldlM_visit] at h
  cases hfirst : (Encounter.ofLogs logs).findSome? Encounter.offence? with
  | some cause =>
    rw [hfirst] at h
    cases h
  | none =>
    rw [hfirst] at h
    obtain rfl := Except.ok.inj h
    exact isMergeOf_foldl_meet hfirst

/-- **Merging succeeds** exactly if nothing that it meets offends. -/
theorem exists_merge_eq_ok_iff (logs : List Json) :
    (∃ r, merge logs = .ok r) ↔ ∀ e ∈ Encounter.ofLogs logs, e.offence? = none := by
  rw [merge_eq_foldlM, foldlM_visit, ← List.findSome?_eq_none_iff]
  cases (Encounter.ofLogs logs).findSome? Encounter.offence? <;> simp

/-- A report that is what merging would give, if nothing offends, is what it gives. -/
theorem merge_eq_ok_of_isMergeOf {logs : List Json} {r : Report}
    (hlogs : ∀ e ∈ Encounter.ofLogs logs, e.offence? = none)
    (h : IsMergeOf (logs.flatMap Log.listedRuns)
      ((logs.flatMap Log.listedRuns).flatMap Log.listedResults) r) : merge logs = .ok r := by
  obtain ⟨s, hs⟩ := (exists_merge_eq_ok_iff logs).2 hlogs
  rw [hs, (isMergeOf_of_merge hs).unique h]

/-- **Merging keeps the first result of every finding.**  It fails exactly if a log is rejected, and
then with the first offence met; otherwise it gives the report that the listed runs and results
have. -/
theorem merge_spec (logs : List Json) :
    ((∃ cause, merge logs = .error cause) ↔ ∃ log ∈ logs, Log.Rejected log) ∧
    (∀ cause, merge logs = .error cause ↔
      (Encounter.ofLogs logs).findSome? Encounter.offence? = some cause) ∧
    (∀ r, merge logs = .ok r ↔ (¬∃ log ∈ logs, Log.Rejected log) ∧
      IsMergeOf (logs.flatMap Log.listedRuns)
        ((logs.flatMap Log.listedRuns).flatMap Log.listedResults) r) := by
  have hmerge := (merge_eq_foldlM logs).trans (foldlM_visit _ empty)
  have hrejected := Log.exists_rejected_iff logs
  cases hfirst : (Encounter.ofLogs logs).findSome? Encounter.offence? with
  | some cause =>
    rw [hfirst] at hmerge hrejected
    simp [hmerge, hrejected]
  | none =>
    rw [hfirst] at hmerge hrejected
    have hspec := isMergeOf_foldl_meet hfirst
    have hnone : ¬∃ log ∈ logs, Log.Rejected log := by simp [hrejected]
    refine ⟨by simp [hmerge, hnone], by simp [hmerge], fun r => ?_⟩
    rw [hmerge, Except.ok.injEq]
    exact ⟨fun h => ⟨hnone, h ▸ hspec⟩, fun h => hspec.unique h.2⟩

end Report

end BuildLint
