import BuildLint.Proofs.Analysis.LogLifetime
import BuildLint.Proofs.Analysis.ResultPath
import BuildLint.Proofs.CMake.QueryFile

/-!
# Proofs/Analysis/ResultFile — a report is written whole, or not at all

Once its calls are prepared, a session makes every one of them unless one has no outcome, and the
result file changes only if all of them succeed and their logs merge; then it is the report of these
logs.  A temporary log may come to the very place of the result path, where nothing stood.  No
program writes there, so that log stays empty and cannot be merged, and it goes again with the
others (`Disk.Untouched`).  CMake's query is put in place before all this, and it may be put there.

* `Event.ProgramsLeave` — no program of a run touches a path.
* `Disk.Untouched.replay` — who leaves the result path alone.
* `Session.exists_course` — the events of a run, part by part.
* `Session.run_of_fault`, `Session.run_of_report` — how a run ends, and with which result file;
  `Session.run_of_outcomes` says which of them it is.
-/

namespace BuildLint

namespace Event

variable {host : Host} {w : World} {es fs : List Event} {p : Text}

/-- **The programs leave a path alone**: whatever stands there when one of them is started stands
there when it ends, also under the name of a temporary log that has come to the same place. -/
def ProgramsLeave (p : Text) (host : Host) (w : World) (es : List Event) : Prop :=
  ∀ before call rest v, es = before ++ .launch call :: rest → replay host w before = some v →
    ∀ q, (q = p ∨ q ∈ allocated before ∧ Disk.place v.disk.here q = Disk.place v.disk.here p) →
      (host.left v.calls call v.disk).look? q = v.disk.look? q

theorem ProgramsLeave.left (h : ProgramsLeave p host w (es ++ fs)) : ProgramsLeave p host w es :=
  fun before call rest v heq => h before call (rest ++ fs) v (by
    rw [heq, List.append_assoc, List.cons_append])

end Event

/-! ## A path that nothing touches -/

/-- **A path is untouched**: what stood there stands there still, and the logs are elsewhere; or
nothing stood there, and one of the logs has come to its place and is empty. -/
def Disk.Untouched (d : Disk) (p : Text) (stood : Option Entry) (logs : List Text) : Prop :=
  (d.look? p = stood ∧ ∀ log ∈ logs, place d.here log ≠ place d.here p) ∨
    stood = none ∧ ∃ log ∈ logs, place d.here log = place d.here p ∧
      d.look? log = some (.file [])

namespace Disk.Untouched

variable {host : Host} {w v u : World} {d e : Disk} {p : Text} {stood : Option Entry}
  {logs : List Text}

/-- A program that leaves the path alone leaves it untouched. -/
theorem left {before : List Call} {call : Call} (h : d.Untouched p stood logs)
    (hleave : ∀ q, (q = p ∨ q ∈ logs ∧ place d.here q = place d.here p) →
      (host.left before call d).look? q = d.look? q) :
    (host.left before call d).Untouched p stood logs := by
  rcases h with ⟨hp, hapart⟩ | ⟨hstood, log, hlog, hplace, hempty⟩
  · exact .inl ⟨(hleave p (.inl rfl)).trans hp, hapart⟩
  · exact .inr ⟨hstood, log, hlog, hplace, (hleave log (.inr ⟨hlog, hplace⟩)).trans hempty⟩

/-- A log comes where nothing stands, so it can only take the place of nothing. -/
theorem allocate {log : Text} (hlog : Event.perform host w (.allocate log) = some v)
    (h : w.disk.Untouched p stood logs) : v.disk.Untouched p stood (logs ++ [log]) := by
  obtain ⟨hfresh, d, hd, rfl⟩ := Event.perform_allocate.1 hlog
  have hhere : d.here = w.disk.here := here_write hd
  rcases h with ⟨hp, hapart⟩ | ⟨hstood, first, hfirst, hplace, hempty⟩
  · by_cases hsame : place w.disk.here log = place w.disk.here p
    · have hnone : w.disk.look? p = none := by
        by_contra hne
        have hthere : w.disk.isThere p = true := Option.isSome_iff_ne_none.2 hne
        exact place_ne_of_write hd hfresh hthere hsame.symm
      refine .inr ⟨hp.symm.trans hnone, log, List.mem_append_right _ (List.mem_singleton.2 rfl),
        ?_, look?_write_self hd rfl⟩
      rw [hhere]
      exact hsame
    · refine .inl ⟨(look?_write_of_place_ne hd (Ne.symm hsame)).trans hp, fun other hother => ?_⟩
      rw [hhere]
      rcases List.mem_append.1 hother with hother | hother
      · exact hapart other hother
      · exact List.mem_singleton.1 hother ▸ hsame
  · have hthere : w.disk.isThere first = true := by rw [isThere, hempty]; rfl
    refine .inr ⟨hstood, first, List.mem_append_left _ hfirst, ?_, ?_⟩
    · rw [hhere]
      exact hplace
    · exact (look?_write_of_place_ne hd (place_ne_of_write hd hfresh hthere)).trans hempty

/-- **Preparing calls and making them leaves a path untouched**, if the programs leave it alone. -/
theorem replay {es fs : List Event} (hes : Event.replay host w es = some v)
    (hnone : Event.allocated es = []) (hleave : Event.ProgramsLeave p host w (es ++ fs))
    (hfs : ∀ e ∈ fs, e.IsQuiet ∨ ∃ n, e = .allocate (Action.logPath n))
    (hreplay : Event.replay host v fs = some u) (h : v.disk.Untouched p stood []) :
    u.disk.Untouched p stood (Event.allocated fs) := by
  induction fs using List.reverseRecOn generalizing u with
  | nil => exact Option.some.inj hreplay ▸ h
  | append_singleton fs e ih =>
    obtain ⟨t, ht, he⟩ := Event.replay_append_iff.1 hreplay
    rw [Event.replay_singleton] at he
    rw [← List.append_assoc] at hleave
    have hfs' := fun e he => hfs e (List.mem_append_left _ he)
    have huntouched := ih hleave.left hfs' ht
    rw [Event.allocated_append]
    cases e with
    | tell message =>
      obtain rfl := Option.some.inj he
      rw [Event.allocated_eq_nil (List.forall_mem_singleton.2 rfl), List.append_nil]
      exact huntouched
    | launch call =>
      obtain rfl := Option.some.inj he
      rw [Event.allocated_eq_nil (List.forall_mem_singleton.2 rfl), List.append_nil]
      refine huntouched.left fun q hq => hleave _ call [] t rfl (Event.replay_append hes ht) q ?_
      rwa [Event.allocated_append, hnone]
    | allocate log => exact huntouched.allocate he
    | _ =>
      exfalso
      rcases hfs _ (List.mem_append_right _ List.mem_cons_self) with hquiet | ⟨n, hn⟩
      · exact hquiet
      · cases hn

/-- **Once the logs are gone**, what stood at the path stands there. -/
theorem look?_of_clears (h : d.Untouched p stood logs) (hclears : Action.Clears logs d e) :
    e.look? p = stood := by
  rcases h with ⟨hp, hapart⟩ | ⟨rfl, log, hlog, hplace, hempty⟩
  · exact (hclears.apart p fun log hlog => (hapart log hlog).symm).trans hp
  · rw [← Option.not_isSome_iff_eq_none, Bool.not_eq_true]
    change e.isThere p = false
    by_cases hthere : d.isThere p = true
    · have hlogThere : d.isThere log = true := by rw [Disk.isThere, hempty]; rfl
      refine hclears.gone log hlog p ?_
      rw [locate_of_isThere hthere, locate_of_isThere hlogThere, hplace]
    · exact hclears.absent p (Bool.eq_false_iff.2 hthere)

/-- **An empty log cannot be merged**, so if the logs merge none has come to the path. -/
theorem of_mergeFiles (h : d.Untouched p stood logs) {report : Report}
    (hpaths : ∀ log ∈ logs, ∃ n, log = Action.logPath n)
    (hmerge : ReportFile.mergeFiles d logs = .ok report) :
    ∀ log ∈ logs, place d.here log ≠ place d.here p := by
  rcases h with ⟨-, hapart⟩ | ⟨-, log, hlog, -, hempty⟩
  · exact hapart
  · exfalso
    obtain ⟨docs, hdocs, -⟩ := ReportFile.mergeFiles_eq_ok_iff.1 hmerge
    obtain ⟨doc, hdoc⟩ := Steps.exists_of_mapM hdocs hlog
    obtain ⟨n, rfl⟩ := hpaths log hlog
    exact ReportFile.readLog_of_empty (Action.tidy_logPath n) hempty doc hdoc

end Disk.Untouched

/-! ## A run whose calls are prepared -/

namespace Session

variable {directory buildDirectory result : Text} {options : Options} {output : Option Text}
  {host : Host} {w v : World} {s : Session}

/-- Once its calls are prepared, a run is what the session does and then its close. -/
theorem use_of_prepare {α : Type} {body : Session → Action α}
    (hprepare : prepare { buildDirectory, options } host w = .ok s v)
    (hwork : s.invocations ≠ []) :
    use buildDirectory options body host w = (body s).andFinally s.close host v := by
  have hworks : s.work = .ok s.invocations := by rw [work, if_neg hwork]
  rw [use, Action.bind_apply, hprepare]
  simp only [hworks]
  rfl

theorem after_use {α : Type} {body : Session → Action α}
    (hprepare : prepare { buildDirectory, options } host w = .ok s v)
    (hwork : s.invocations ≠ []) : (use buildDirectory options body).after host w =
      s.close.after host ((body s).after host v) := by
  rw [Action.after, use_of_prepare hprepare hwork, ← Action.after, Action.after_andFinally]

/-- **A session makes its calls before it merges**, and merges only if each has an outcome and all
of them succeed. -/
theorem analyzeAndMerge_run (s : Session) (result : Text) (host : Host) (w : World) :
    let u := s.analyze.after host w
    u.calls = w.calls ++ (s.calls host).take (s.answers host w).made ∧
      u.disk = (s.answers host w).disk ∧
      analyzeAndMerge s result host w =
        match (s.answers host w).fault with
        | some fault => .error fault u
        | none =>
          match Invocation.failed s.invocations (s.answers host w).outcomes with
          | [] => s.merge result host u
          | failed => .error (.failure (.analysis failed)) u := by
  obtain ⟨messages, hrun⟩ := analyzeAll_apply s.buildDirectory s.invocations host w
  rw [← calls, ← answers] at hrun
  rw [analyze, Action.after, hrun, analyzeAndMerge, analyze, Action.bind_apply, hrun]
  cases (s.answers host w).fault with
  | some fault => exact ⟨rfl, rfl, rfl⟩
  | none =>
    refine ⟨rfl, rfl, ?_⟩
    dsimp only [Option.elim, Action.ofExcept_ok_apply]
    cases Invocation.failed s.invocations (s.answers host w).outcomes <;> rfl

theorem buildDirectoryFor_eq_ok {d : Disk} {projectRoot : Text}
    (h : d.isDirectory (Path.resolve projectRoot directory) = true) :
    buildDirectoryFor d directory projectRoot = .ok (Path.resolve projectRoot directory) := if_pos h

theorem exists_logPath_of_prepare (hprepare : prepare { buildDirectory, options } host w = .ok s v)
    {log : Text} (hlog : log ∈ s.logs) : ∃ n, log = Action.logPath n := by
  obtain ⟨-, es, -, hes, hlogs, -⟩ := prepare_eq_ok hprepare
  rw [hlogs, Event.mem_allocated] at hlog
  rcases hes _ hlog with hquiet | ⟨n, hn⟩
  · exact hquiet.elim
  · exact ⟨n, Event.allocate.inj hn⟩

theorem isDirectory_of_prepare (hprepare : prepare { buildDirectory, options } host w = .ok s v)
    {log : Text} (hlog : log ∈ s.logs) : v.disk.isDirectory log = false := by
  obtain ⟨-, es, -, -, -, hfiles⟩ := prepare_eq_ok hprepare
  exact hfiles log hlog

/-! ## The course of a run -/

/-- What is done after the calls neither allocates a log nor removes a file. -/
theorem exists_events_of_analyzeAndMerge (s : Session) (result : Text) (host : Host) (w : World) :
    ∃ es, (∀ e ∈ es, e.KeepsLogs) ∧ Event.replay host (s.analyze.after host w) es =
      some ((analyzeAndMerge s result).after host w) := by
  obtain ⟨-, -, hrun⟩ := analyzeAndMerge_run s result host w
  have hnothing : ∀ fault, analyzeAndMerge s result host w =
      .error fault (s.analyze.after host w) → ∃ es, (∀ e ∈ es, e.KeepsLogs) ∧
        Event.replay host (s.analyze.after host w) es =
          some ((analyzeAndMerge s result).after host w) := fun fault hfault =>
    ⟨[], fun _ h => absurd h List.not_mem_nil, by rw [Action.after_of_eq_error hfault]; rfl⟩
  split at hrun
  · exact hnothing _ hrun
  · split at hrun
    · obtain ⟨es, hes, hreplay⟩ :=
        ReportFile.combineTo_does result s.logs host (s.analyze.after host w)
      refine ⟨es, fun e he => (hes e he).1, hreplay.trans (congrArg some ?_)⟩
      rw [Action.after, ← merge, ← hrun, ← Action.after]
    · exact hnothing _ hrun

theorem calls_discardLogs (paths : List Text) (host : Host) (w : World) :
    ((Action.discardLogs paths).after host w).calls = w.calls := by
  obtain ⟨es, hes, hreplay⟩ := Action.discardLogs_does (List.Subset.refl paths) host w
  rw [Event.calls_replay hreplay, Event.launched_eq_nil fun e he => (hes e he).launched?,
    List.append_nil]

theorem calls_merge (s : Session) (result : Text) (host : Host) (w : World) :
    ((s.merge result).after host w).calls = w.calls := by
  rw [Action.after, merge.eq_def]
  rcases ReportFile.combineTo_cases result s.logs host w with
    ⟨fault, -, h⟩ | ⟨report, -, ⟨problem, -, h⟩ | ⟨d, -, h⟩⟩ <;> rw [h]

/-- Merging makes no call. -/
theorem calls_analyzeAndMerge (s : Session) (result : Text) (host : Host) (w : World) :
    ((analyzeAndMerge s result).after host w).calls =
      w.calls ++ (s.calls host).take (s.answers host w).made := by
  obtain ⟨hcalls, -, hrun⟩ := analyzeAndMerge_run s result host w
  rw [← hcalls]
  split at hrun
  · rw [Action.after_of_eq_error hrun]
  · split at hrun
    · rw [← calls_merge s result host (s.analyze.after host w), Action.after, hrun, ← Action.after]
    · rw [Action.after_of_eq_error hrun]

section

variable (hdirectory : buildDirectoryFor w.disk directory options.projectRoot = .ok buildDirectory)
  (hresult : resultPath w.disk buildDirectory options output = .ok result)

include hdirectory hresult

/-- What is said about a report that is written changes nothing else. -/
theorem run_of_use :
    (∀ fault u, use buildDirectory options (analyzeAndMerge · result) host w = .error fault u →
      run directory options output host w = .error fault u) ∧
    ∀ report u, use buildDirectory options (analyzeAndMerge · result) host w = .ok report u →
      ∃ said, run directory options output host w =
        .ok (Path.tidy result, report) { u with messages := u.messages ++ [said] } := by
  have hrun : run directory options output host w =
      (use buildDirectory options (analyzeAndMerge · result) >>= fun report => do
        tellWritten report result
        return (Path.tidy result, report)) host w := by
    rw [run, Action.bind_apply, Action.consult_apply, hdirectory]
    simp only [Action.ofExcept_ok_apply, Action.bind_apply, Action.consult_apply, hresult]
  rw [hrun]
  constructor
  · intro fault u huse
    rw [Action.bind_apply, huse]
  · intro report u huse
    rw [Action.bind_apply, huse]
    exact ⟨_, rfl⟩

variable (host) in
/-- After a session a run only says something. -/
theorem exists_events_of_use :
    ∃ es, (∀ e ∈ es, e.IsQuiet) ∧ Event.replay host
      ((use buildDirectory options (analyzeAndMerge · result)).after host w) es =
        some ((run directory options output).after host w) := by
  cases huse : use buildDirectory options (analyzeAndMerge · result) host w with
  | error fault u =>
    rw [Action.after_of_eq_error huse,
      Action.after_of_eq_error ((run_of_use hdirectory hresult).1 fault u huse)]
    exact ⟨[], fun _ h => absurd h List.not_mem_nil, rfl⟩
  | ok report u =>
    obtain ⟨said, hend⟩ := (run_of_use hdirectory hresult).2 report u huse
    rw [Action.after_of_eq_ok huse, Action.after_of_eq_ok hend]
    exact ⟨[.tell said], List.forall_mem_singleton.2 trivial, rfl⟩

variable (hprepare : prepare { buildDirectory, options } host w = .ok s v)
  (hwork : s.invocations ≠ [])

include hprepare hwork

/-- **The course of a run** whose calls are prepared: CMake's query is put in place, the calls are
prepared, each with its log, the calls are made, and what follows allocates no log. -/
theorem exists_course : ∃ asking preparing calling ending,
    Event.replay host w asking =
        some ((Query.create (Index.apiDirectory buildDirectory)).after host w) ∧
      Event.allocated asking = [] ∧
    Event.replay host ((Query.create (Index.apiDirectory buildDirectory)).after host w) preparing =
        some v ∧
      (∀ e ∈ preparing, e.IsQuiet ∨ ∃ n, e = .allocate (Action.logPath n)) ∧
      Event.allocated preparing = s.logs ∧
    Event.replay host v calling = some (s.analyze.after host v) ∧ (∀ e ∈ calling, e.IsQuiet) ∧
    Event.replay host (s.analyze.after host v) ending =
        some ((run directory options output).after host w) ∧
      Event.allocated ending = [] := by
  obtain ⟨asking, hasking, hqueried⟩ := Query.create_does (Index.apiDirectory buildDirectory) host w
  obtain ⟨-, preparing, hprepared, hpreparing, hlogs, -⟩ := prepare_eq_ok hprepare
  obtain ⟨calling, hcalling, hcalled⟩ := analyzeAll_does s.buildDirectory s.invocations host v
  obtain ⟨merging, hmerging, hmerged⟩ := exists_events_of_analyzeAndMerge s result host v
  obtain ⟨closing, hclosing, hclosed⟩ := Action.discardLogs_does (List.Subset.refl s.logs) host
    ((analyzeAndMerge s result).after host v)
  obtain ⟨saying, hsaying, hsaid⟩ := exists_events_of_use host hdirectory hresult
  have huse : (use buildDirectory options (analyzeAndMerge · result)).after host w =
      s.close.after host ((analyzeAndMerge s result).after host v) := after_use hprepare hwork
  rw [← close, ← huse] at hclosed
  refine ⟨asking, preparing, calling, merging ++ closing ++ saying, hqueried,
    Event.allocated_eq_nil fun e he => (hasking e he).keepsLogs.allocated?, hprepared, hpreparing,
    hlogs.symm, hcalled, hcalling,
    Event.replay_append (Event.replay_append hmerged hclosed) hsaid, ?_⟩
  refine Event.allocated_eq_nil fun e he => ?_
  rcases List.mem_append.1 he with he | he
  · rcases List.mem_append.1 he with he | he
    · exact (hmerging e he).allocated?
    · exact (hclosing e he).allocated?
  · exact (hsaying e he).keepsLogs.allocated?

/-- **The calls of a run** whose calls are prepared: all of them, unless one has no outcome. -/
theorem calls_run : ((run directory options output).after host w).calls =
    v.calls ++ (s.calls host).take (s.answers host v).made := by
  have huse : ((use buildDirectory options (analyzeAndMerge · result)).after host w).calls =
      v.calls ++ (s.calls host).take (s.answers host v).made := by
    rw [after_use hprepare hwork, close, calls_discardLogs]
    exact calls_analyzeAndMerge s result host v
  rw [← huse]
  cases hrun : use buildDirectory options (analyzeAndMerge · result) host w with
  | error fault u =>
    rw [Action.after_of_eq_error ((run_of_use hdirectory hresult).1 fault u hrun),
      Action.after_of_eq_error hrun]
  | ok report u =>
    obtain ⟨said, hend⟩ := (run_of_use hdirectory hresult).2 report u hrun
    rw [Action.after_of_eq_ok hend, Action.after_of_eq_ok hrun]

/-! ## How a run ends -/

/-- **A fault stops the run** once the logs are gone, and an untouched path is as it was. -/
theorem run_of_fault {fault : Fault} {u : World}
    (hbody : analyzeAndMerge s result host v = .error fault u)
    {p : Text} {stood : Option Entry} (huntouched : u.disk.Untouched p stood s.logs)
    (hopen : ∀ log ∈ s.logs, u.disk.isDirectory log = false) :
    let z := (run directory options output).after host w
    run directory options output host w = .error fault z ∧ z.disk.look? p = stood := by
  obtain ⟨e, hclears, hclose⟩ := Action.discardLogs_eq_ok host hopen
  have hend : run directory options output host w = .error fault { u with disk := e } := by
    refine (run_of_use hdirectory hresult).1 _ _ ?_
    rw [use_of_prepare hprepare hwork]
    exact Action.andFinally_of_eq_error hbody hclose
  rw [Action.after_of_eq_error hend]
  exact ⟨hend, huntouched.look?_of_clears hclears⟩

/-- **A report that is written** apart from the logs stays when they go. -/
theorem run_of_report {report : Report} {u : World} {d : Disk}
    (hbody : analyzeAndMerge s result host v = .ok report { u with disk := d })
    {p : Text} {content : Bytes} (hd : u.disk.write p content = .ok d)
    (hapart : ∀ log ∈ s.logs, Disk.place u.disk.here log ≠ Disk.place u.disk.here p)
    (hopen : ∀ log ∈ s.logs, u.disk.isDirectory log = false) :
    let z := (run directory options output).after host w
    run directory options output host w = .ok (Path.tidy result, report) z ∧
      z.disk.readBytes p = .ok content := by
  let written : World := { u with disk := d }
  have hopen' : ∀ log ∈ s.logs, written.disk.isDirectory log = false := fun log hlog =>
    (Disk.isDirectory_write hd log).trans (hopen log hlog)
  obtain ⟨e, hclears, hclose⟩ := Action.discardLogs_eq_ok host hopen'
  have huse : use buildDirectory options (analyzeAndMerge · result) host w =
      .ok report { u with disk := e } := by
    rw [use_of_prepare hprepare hwork]
    exact Action.andFinally_of_eq_ok hbody hclose
  obtain ⟨said, hend⟩ := (run_of_use hdirectory hresult).2 report _ huse
  rw [Action.after_of_eq_ok hend]
  refine ⟨hend, Disk.readBytes_of_look? ?_⟩
  have hhere : d.here = u.disk.here := Disk.here_write hd
  refine (hclears.apart _ fun log hlog => ?_).trans (Disk.look?_write_self hd rfl)
  change Disk.place d.here p ≠ Disk.place d.here log
  rw [hhere]
  exact (hapart log hlog).symm

/-- **A run that merges** stops because the logs cannot be merged or the report cannot be written,
or it writes the report. -/
theorem run_of_merge {u : World} {stood : Option Entry}
    (hbody : analyzeAndMerge s result host v = ReportFile.combineTo result s.logs host u)
    (huntouched : u.disk.Untouched (Path.tidy result) stood s.logs)
    (hopen : ∀ log ∈ s.logs, u.disk.isDirectory log = false) :
    let z := (run directory options output).after host w
    (∃ fault, run directory options output host w = .error fault z ∧
      z.disk.look? (Path.tidy result) = stood ∧
      (ReportFile.mergeFiles u.disk s.logs = .error fault ∨ ∃ logs report problem,
        s.logs.mapM (ReportFile.readLog u.disk) = .ok logs ∧ Report.merge logs = .ok report ∧
        u.disk.write (Path.tidy result) (Utf8.encode report.toJson.write) = .error problem ∧
        fault = ReportFile.fault (.unwritable problem))) ∨
    ∃ logs report, s.logs.mapM (ReportFile.readLog u.disk) = .ok logs ∧
      Report.merge logs = .ok report ∧
      run directory options output host w = .ok (Path.tidy result, report) z ∧
      z.disk.readBytes (Path.tidy result) = .ok (Utf8.encode report.toJson.write) := by
  rcases ReportFile.combineTo_cases result s.logs host u with
    ⟨fault, hmerge, hrun⟩ | ⟨report, hreport, hwrite⟩
  · obtain ⟨hend, hstood⟩ := run_of_fault hdirectory hresult hprepare hwork
      (hbody.trans hrun) huntouched hopen
    exact .inl ⟨fault, hend, hstood, .inl hmerge⟩
  obtain ⟨docs, hdocs, hmerge⟩ := ReportFile.mergeFiles_eq_ok_iff.1 hreport
  rcases hwrite with ⟨problem, hproblem, hrun⟩ | ⟨d, hd, hrun⟩
  · obtain ⟨hend, hstood⟩ := run_of_fault hdirectory hresult hprepare hwork
      (hbody.trans hrun) huntouched hopen
    exact .inl ⟨_, hend, hstood, .inr ⟨docs, report, problem, hdocs, hmerge, hproblem, rfl⟩⟩
  · have hapart := huntouched.of_mergeFiles (fun _ => exists_logPath_of_prepare hprepare) hreport
    obtain ⟨hend, hwritten⟩ := run_of_report hdirectory hresult hprepare hwork
      (hbody.trans hrun) hd hapart hopen
    exact .inr ⟨docs, report, hdocs, hmerge, hend, hwritten⟩

/-- **How a run ends whose calls all have an outcome**: with the sources of those that fail, or as
it merges if none does. -/
theorem run_of_outcomes {stood : Option Entry} (hfault : (s.answers host v).fault = none)
    (huntouched : (s.analyze.after host v).disk.Untouched (Path.tidy result) stood s.logs)
    (hopen : ∀ log ∈ s.logs, (s.analyze.after host v).disk.isDirectory log = false) :
    let answers := s.answers host v
    let z := (run directory options output).after host w
    ((∃ o ∈ answers.outcomes, o.exitCode ≠ 0) →
      run directory options output host w = .error
          (.failure (.analysis (Invocation.failed s.invocations answers.outcomes))) z ∧
        z.disk.look? (Path.tidy result) = stood) ∧
    ((∀ o ∈ answers.outcomes, o.exitCode = 0) →
      (∃ fault, run directory options output host w = .error fault z ∧
        z.disk.look? (Path.tidy result) = stood ∧
        (ReportFile.mergeFiles answers.disk s.logs = .error fault ∨ ∃ logs report problem,
          s.logs.mapM (ReportFile.readLog answers.disk) = .ok logs ∧
          Report.merge logs = .ok report ∧
          answers.disk.write (Path.tidy result) (Utf8.encode report.toJson.write) =
            .error problem ∧
          fault = ReportFile.fault (.unwritable problem))) ∨
      ∃ logs report, s.logs.mapM (ReportFile.readLog answers.disk) = .ok logs ∧
        Report.merge logs = .ok report ∧
        run directory options output host w = .ok (Path.tidy result, report) z ∧
        z.disk.readBytes (Path.tidy result) = .ok (Utf8.encode report.toJson.write)) := by
  intro answers z
  obtain ⟨-, hdisk, hbody⟩ := analyzeAndMerge_run s result host v
  rw [hfault] at hbody
  have hlength : answers.outcomes.length = s.invocations.length := by
    refine (Host.length_answers hfault).trans ?_
    rw [Session.calls, List.length_map]
  by_cases hall : ∀ o ∈ answers.outcomes, o.exitCode = 0
  · have hmerges : analyzeAndMerge s result host v =
        ReportFile.combineTo result s.logs host (s.analyze.after host v) := by
      rw [hbody]
      dsimp only
      rw [(Invocation.failed_eq_nil_iff hlength).2 hall]
      rfl
    have hend := run_of_merge hdirectory hresult hprepare hwork hmerges huntouched hopen
    rw [hdisk] at hend
    exact ⟨fun ⟨o, ho, hne⟩ => absurd (hall o ho) hne, fun _ => hend⟩
  · have hfails : analyzeAndMerge s result host v = .error (.failure (.analysis
        (Invocation.failed s.invocations answers.outcomes))) (s.analyze.after host v) := by
      rw [hbody]
      dsimp only
      split
      · exact absurd ((Invocation.failed_eq_nil_iff hlength).1 ‹_›) hall
      · rfl
    have hend := run_of_fault hdirectory hresult hprepare hwork hfails huntouched hopen
    exact ⟨fun _ => hend, fun h => absurd h hall⟩

end

/-- **What a path holds once CMake's query is in place** is what it held before, unless the query
takes it. -/
theorem look?_of_prepare
    (hdirectory : buildDirectoryFor w.disk directory options.projectRoot = .ok buildDirectory)
    (hresult : resultPath w.disk buildDirectory options output = .ok result)
    (hprepare : prepare { buildDirectory, options } host w = .ok s v)
    (htakes : ¬Query.Takes w.disk (Index.apiDirectory buildDirectory) (Path.tidy result)) :
    ((Query.create (Index.apiDirectory buildDirectory)).after host w).disk.look?
      (Path.tidy result) = w.disk.look? (Path.tidy result) := by
  obtain ⟨l, hl⟩ := exists_locate_of_resultPath hdirectory hresult
  obtain ⟨index, v', hrequest, -⟩ := Action.bind_eq_ok.1 (prepare_eq _ ▸ hprepare)
  obtain ⟨path, u, hcreate, -⟩ := Index.request_eq_ok hrequest
  rw [Action.after_of_eq_ok hcreate]
  exact Query.look?_of_create hcreate hl htakes

/-- **A report is written whole, or not at all.**  Once the calls are prepared, and if each call has
an outcome, each of them is made, in order and in the build directory, whatever becomes of the
others.  If some fail, the run stops with exactly their sources; if all succeed, it stops because
the logs cannot be merged or the report cannot be written, or it writes the report of the logs in
the order of the calls.  Unless it writes the report, the result path is as it was when CMake's
query had been put in place, and that is as it was before the run unless the query takes it. -/
theorem run_writes_whole_or_nothing
    (hdirectory : buildDirectoryFor w.disk directory options.projectRoot = .ok buildDirectory)
    (hresult : resultPath w.disk buildDirectory options output = .ok result)
    (hprepare : prepare { buildDirectory, options } host w = .ok s v)
    (hwork : s.invocations ≠ []) :
    let p := Path.tidy result
    let api := Index.apiDirectory buildDirectory
    let calls := s.invocations.map (Invocation.call buildDirectory host.environment)
    let answers := host.answers v.calls calls v.disk
    let stood := ((Query.create api).after host w).disk.look? p
    ∃ es u, (run directory options output).after host w = u ∧ Event.replay host w es = some u ∧
      Event.allocated es = s.logs ∧
      (¬Query.Takes w.disk api p → stood = w.disk.look? p) ∧
      (answers.fault = none → u.calls = v.calls ++ calls) ∧
      (answers.fault = none → Event.ProgramsLeave p host w es → Event.SparesLogs host w es →
        ((∃ o ∈ answers.outcomes, o.exitCode ≠ 0) →
          run directory options output host w = .error
              (.failure (.analysis (Invocation.failed s.invocations answers.outcomes))) u ∧
            u.disk.look? p = stood) ∧
        ((∀ o ∈ answers.outcomes, o.exitCode = 0) →
          (∃ fault, run directory options output host w = .error fault u ∧
            u.disk.look? p = stood ∧
            (ReportFile.mergeFiles answers.disk s.logs = .error fault ∨
              ∃ logs report problem,
                s.logs.mapM (ReportFile.readLog answers.disk) = .ok logs ∧
                Report.merge logs = .ok report ∧
                answers.disk.write p (Utf8.encode report.toJson.write) = .error problem ∧
                fault = ReportFile.fault (.unwritable problem))) ∨
          ∃ logs report, s.logs.mapM (ReportFile.readLog answers.disk) = .ok logs ∧
            Report.merge logs = .ok report ∧
            run directory options output host w = .ok (p, report) u ∧
            u.disk.readBytes p = .ok (Utf8.encode report.toJson.write))) := by
  intro p api calls answers stood
  have hcalls : s.calls host = calls := by rw [Session.calls, (prepare_eq_ok hprepare).1]
  obtain ⟨asking, preparing, calling, ending, hasked, hnone, hprepared, hpreparing, hlogs, hcalled,
    hcalling, hended, hnone'⟩ := exists_course hdirectory hresult hprepare hwork
  have hallocated : Event.allocated (preparing ++ calling) = s.logs := by
    rw [Event.allocated_append, hlogs,
      Event.allocated_eq_nil fun e he => (hcalling e he).keepsLogs.allocated?, List.append_nil]
  refine ⟨asking ++ (preparing ++ calling) ++ ending, _, rfl,
    Event.replay_append (Event.replay_append hasked (Event.replay_append hprepared hcalled)) hended,
    ?_, look?_of_prepare hdirectory hresult hprepare, fun hfault => ?_,
    fun hfault hleave hspare => ?_⟩
  · rw [Event.allocated_append, Event.allocated_append, hnone, hallocated, hnone', List.append_nil]
    rfl
  · rw [calls_run hdirectory hresult hprepare hwork, hcalls, Session.answers, hcalls,
      Host.take_made hfault]
  have huntouched : (s.analyze.after host v).disk.Untouched p stood s.logs := by
    rw [← hallocated]
    refine .replay hasked hnone hleave.left (fun e he => ?_)
      (Event.replay_append hprepared hcalled) (.inl ⟨rfl, fun _ h => absurd h List.not_mem_nil⟩)
    exact (List.mem_append.1 he).elim (hpreparing e) fun he => .inl (hcalling e he)
  have hopen : ∀ log ∈ s.logs, (s.analyze.after host v).disk.isDirectory log = false := by
    intro log hlog
    have hmem : log ∈ Event.allocated (asking ++ preparing) := by
      rw [Event.allocated_append, hlogs]
      exact List.mem_append_right _ hlog
    have hspare' : Event.SparesLogs host w ((asking ++ preparing) ++ (calling ++ ending)) := by
      simpa only [List.append_assoc] using hspare
    exact Event.isDirectory_replay (fun e he => (hcalling e he).makesNoDirectory)
      (hspare'.programsKeep (Event.replay_append hasked hprepared) hmem).left hcalled
      (isDirectory_of_prepare hprepare hlog)
  have hanswers : s.answers host v = answers := by rw [Session.answers, hcalls]
  rw [← hanswers] at hfault ⊢
  exact run_of_outcomes hdirectory hresult hprepare hwork hfault huntouched hopen

/-! ### A small build -/

/-- A file that holds a document. -/
def documentFile (v : Json) : Entry := .file (Utf8.encode v.write)

/-- CMake's reply for a build of one source. -/
def smallReply : List (String × Json) :=
  [("index-0", .object [("cmake", .object [("version", .object [("string", .string "4")])]),
      ("reply", .object [(Query.clientName, .object [(Query.fileName,
        .object [("responses", .array
          [.object [("kind", .string "codemodel"), ("jsonFile", .string "c")],
            .object [("kind", .string "toolchains"), ("jsonFile", .string "t")]])])])])]),
    ("c", .object [("paths", .object [("source", .string "/s")]),
      ("configurations", .array [.object
        [("directories", .array [.object [("source", .string ".")]]),
          ("targets", .array
            [.object [("directoryIndex", .int 0), ("jsonFile", .string "a")]])]])]),
    ("a", .object [("sources", .array [.object [("path", .string "x.c")]]),
      ("compileGroups", .array
        [.object [("language", .string "C"), ("sourceIndexes", .array [.int 0])]])]),
    ("t", .object [("toolchains", .array [.object [("language", .string "C"),
      ("compiler", .object
        [("id", .string "MSVC"), ("path", .string "/m/T/bin/Hostx64/x64/cl.exe")])]])])]

/-- The directory of CMake's reply, and what stands in it. -/
def replyLocation : Location := ["b", ".cmake", "api", "v1", "reply"]

def replyEntries : List (Location × Entry) :=
  (replyLocation, .directory) ::
    smallReply.map fun (name, v) => (replyLocation ++ [Text.ofString name], documentFile v)

/-- CMake makes the directory of its reply, and writes its reply. -/
def putReply (d : Disk) : Disk := replyEntries.foldl (fun d e => d.put e.1 e.2) d

/-- A disk with a build in `/b` that has not been asked for yet, and with its compiler. -/
def freshDisk : Disk :=
  let file (d : Disk) (l : Location) := d.putWithParents l (.file [])
  (file (file ⟨[], []⟩ ["b", "CMakeCache.txt"])
    ["m", "T", "bin", "Hostx64", "x64", "EspXEngine.dll"]).putWithParents ["tmp"] .directory

/-- The same build after it has been asked for; the query is missing from its directory. -/
def smallDisk : Disk :=
  putReply (freshDisk.putWithParents
    ["b", ".cmake", "api", "v1", "query", "client-msvc-ca-action"] .directory)

def freshWorld : World := ⟨freshDisk, [], [], []⟩

def smallWorld : World := ⟨smallDisk, [], [], []⟩

/-- A host that has CMake, and compilers that fail. -/
def failingHost : Host where
  environment := []
  promptScript := "vc"
  executable name := if name = "cmake" then some "cmake" else none
  respond _ call d :=
    if call.arguments.head? = some "cmake" then (.ended 0 [] [], putReply d)
    else (.ended 1 [] [], d)
  decode := Utf8.decode
  logLimit := none

def smallOptions : Options := { loadCompilerEnvironment := false }

/-- Programs leave alone whatever path does not lead through the directory of CMake's reply. -/
theorem look?_left_failingHost (before : List Call) (call : Call) (d : Disk) {q : Text}
    (habsolute : Path.isAbsolute q = true)
    (h : ∀ names ∈ (Path.parts q).inits, ¬replyLocation <+: names.foldl Disk.stepTo []) :
    (failingHost.left before call d).look? q = d.look? q := by
  have hkeys : ∀ l ∈ replyEntries.map Prod.fst, replyLocation <+: l := by decide
  refine Disk.look?_congr rfl ?_
  rw [habsolute, if_pos rfl]
  rintro l ⟨names, hnames, rfl⟩
  change (failingHost.respond before call d).2.find? _ = d.find? _
  rw [failingHost]
  dsimp only
  split
  · refine Disk.find?_foldl_put_of_not_mem (fun hmem => ?_) d
    exact h names (List.mem_inits _ _ |>.2 hnames) (hkeys _ hmem)
  · rfl

/-- A path with few parts does not lead there. -/
theorem look?_left_of_length_le (before : List Call) (call : Call) (d : Disk) {q : Text}
    (habsolute : Path.isAbsolute q = true) (h : (Path.parts q).length ≤ 4) :
    (failingHost.left before call d).look? q = d.look? q := by
  refine look?_left_failingHost before call d habsolute fun names hnames hbegin => ?_
  have hnames := ((List.mem_inits _ _).1 hnames).length_le.trans h
  have hle := (Disk.length_foldl_stepTo_le names []).trans (Nat.add_le_add_left hnames _)
  exact absurd (hbegin.length_le.trans hle) (by decide)

section

variable {w : World} {es : List Event}
  (hlogs : ∀ log ∈ Event.allocated es, ∃ n, log = Action.logPath n)

include hlogs

theorem sparesLogs_failingHost : Event.SparesLogs failingHost w es := by
  rintro before call rest t rfl - log hmem hfile
  obtain ⟨n, rfl⟩ := hlogs log (Event.allocated_append _ _ ▸ List.mem_append_left _ hmem)
  have hlength : (Path.parts (Action.logPath n)).length ≤ 4 := by simp [Action.parts_logPath]
  rwa [Disk.isDirectory, look?_left_of_length_le _ _ _ rfl hlength]

/-- A path with few parts that is not below the directory of the logs is left alone. -/
theorem programsLeave_failingHost {p : Text} (habsolute : Path.isAbsolute p = true)
    (hlength : (Path.parts p).length ≤ 4)
    (hapart : ∀ here, (Disk.place here p).head? ≠ some "tmp") :
    Event.ProgramsLeave p failingHost w es := by
  rintro before call rest t rfl - q (rfl | ⟨hmem, hplace⟩)
  · exact look?_left_of_length_le _ _ _ habsolute hlength
  · obtain ⟨n, rfl⟩ := hlogs q (Event.allocated_append _ _ ▸ List.mem_append_left _ hmem)
    refine absurd ?_ (hapart t.disk.here)
    rw [← hplace, Action.place_logPath]
    rfl

end

/-- Whether there are calls, each has an outcome, and some of them fail. -/
def hasFailingCall (s : Session) (v : World) : Bool :=
  let answers := failingHost.answers v.calls
    (s.invocations.map (Invocation.call "/b" failingHost.environment)) v.disk
  !s.invocations.isEmpty && answers.fault.isNone && answers.outcomes.any fun o => o.exitCode ≠ 0

theorem place_result (here : Location) :
    Disk.place here (Path.tidy "/b/results.sarif") = ["b", "results.sarif"] := by
  have htidy : Path.tidy "/b/results.sarif" = "/b/results.sarif" := by decide +kernel
  rw [htidy]
  rfl

theorem not_takes_result :
    ¬Query.Takes freshDisk (Index.apiDirectory "/b") (Path.tidy "/b/results.sarif") := by
  rw [Query.Takes, place_result]
  rintro (hfile | ⟨⟨names, hnames, habove⟩, -⟩)
  · exact absurd hfile (by decide +kernel)
  · have hway : ∀ names ∈ (Query.form (Index.apiDirectory "/b")).names.inits,
        (["b", "results.sarif"] : Location) ≠ names.foldl Disk.stepTo
          (Disk.start freshDisk.here (Query.form (Index.apiDirectory "/b")).slashes) := by
      decide +kernel
    exact hway names ((List.mem_inits _ _).2 hnames) habove

theorem run_writes_whole_or_nothing_freshBuild :
    ∃ sources u, run "/b" smallOptions none failingHost freshWorld =
        .error (.failure (.analysis sources)) u ∧
      u.disk.look? (Path.tidy "/b/results.sarif") =
        freshWorld.disk.look? (Path.tidy "/b/results.sarif") := by
  have hpath : Path.resolve smallOptions.projectRoot "/b" = "/b" := by decide +kernel
  have hthere : freshWorld.disk.isDirectory
      (Path.resolve smallOptions.projectRoot "/b") = true := by decide +kernel
  have hdirectory : buildDirectoryFor freshWorld.disk "/b" smallOptions.projectRoot = .ok "/b" :=
    (buildDirectoryFor_eq_ok hthere).trans (congrArg Except.ok hpath)
  have hresult : resultPath freshWorld.disk "/b" smallOptions none = .ok "/b/results.sarif" := by
    have hjoin : Path.join "/b" "results.sarif" = "/b/results.sarif" := by decide +kernel
    exact congrArg Except.ok hjoin
  obtain ⟨s, v, hprepare, h⟩ := Action.exists_of_gives (by decide +kernel :
    Action.gives hasFailingCall (prepare { buildDirectory := "/b", options := smallOptions }
      failingHost freshWorld) = true)
  rw [hasFailingCall, Bool.and_eq_true, Bool.and_eq_true, Bool.not_eq_true',
    List.isEmpty_eq_false_iff, Option.isNone_iff_eq_none, List.any_eq_true] at h
  obtain ⟨⟨hwork, hfault⟩, o, ho, hne⟩ := h
  obtain ⟨es, u, -, -, hlogs, hstood, -, hends⟩ :=
    run_writes_whole_or_nothing hdirectory hresult hprepare hwork
  have hpaths : ∀ log ∈ Event.allocated es, ∃ n, log = Action.logPath n := fun log hlog =>
    exists_logPath_of_prepare hprepare (hlogs ▸ hlog)
  have hleave : Event.ProgramsLeave (Path.tidy "/b/results.sarif") failingHost freshWorld es :=
    programsLeave_failingHost hpaths (by decide +kernel) (by decide +kernel) fun here => by
      rw [place_result]
      decide
  obtain ⟨hfail, -⟩ := hends hfault hleave (sparesLogs_failingHost hpaths)
  obtain ⟨hend, hkept⟩ := hfail ⟨o, ho, of_decide_eq_true hne⟩
  exact ⟨_, u, hend, hkept.trans (hstood not_takes_result)⟩

/-- Where CMake's query is put. -/
def smallQuery : Text := "/b/.cmake/api/v1/query/client-msvc-ca-action/query.json"

/-- Whether a call has failed and an entry stands at a path. -/
def failsWith (p : Text) (entry : Entry) : Fault → World → Bool
  | .failure (.analysis _), u => u.disk.look? p == some entry
  | _, _ => false

theorem exists_of_failsWith {p : Text} {entry : Entry} {x : Action (Text × Report)} {host : Host}
    {w : World} (h : Action.isStopped (failsWith p entry) (x host w) = true) :
    ∃ sources u, x host w = .error (.failure (.analysis sources)) u ∧
      u.disk.look? p = some entry := by
  obtain ⟨fault, u, hrun, h⟩ := Action.exists_of_isStopped h
  rw [failsWith.eq_def] at h
  split at h
  · exact ⟨_, u, hrun, eq_of_beq h⟩
  · cases h

/-- **A result path may be touched although a call fails** and no program touches it: if it is that
of CMake's query, or of a directory on the way to it that is missing. -/
theorem run_touches_query :
    ((∀ before call d, (failingHost.left before call d).look? smallQuery = d.look? smallQuery) ∧
      smallWorld.disk.look? smallQuery = none ∧
      ∃ sources u, run "/b" smallOptions (some smallQuery) failingHost smallWorld =
          .error (.failure (.analysis sources)) u ∧
        u.disk.look? smallQuery = some (documentFile Query.document)) ∧
    (∀ before call d, (failingHost.left before call d).look? "/b/.cmake" = d.look? "/b/.cmake") ∧
      freshWorld.disk.look? "/b/.cmake" = none ∧
      ∃ sources u, run "/b" smallOptions (some "/b/.cmake") failingHost freshWorld =
          .error (.failure (.analysis sources)) u ∧
        u.disk.look? "/b/.cmake" = some .directory := by
  refine ⟨⟨fun before call d => ?_, by decide +kernel, exists_of_failsWith (by decide +kernel)⟩,
    fun before call d => ?_, by decide +kernel, exists_of_failsWith (by decide +kernel)⟩
  · exact look?_left_failingHost before call d rfl (by decide +kernel)
  · exact look?_left_of_length_le before call d rfl (by decide +kernel)

end Session

end BuildLint
