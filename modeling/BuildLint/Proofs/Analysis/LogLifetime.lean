import BuildLint.Proofs.Analysis.Calls
import BuildLint.Proofs.Analysis.Preparation

/-!
# Proofs/Analysis/LogLifetime — no run leaves a temporary log behind

The logs of a run belong first to the calls as they are prepared and then to the session; whoever
owns them takes them away, whatever stops the run.  A removal fails only where a directory stands,
so programs that put none at a log's path cannot keep a log alive.

* `Session.use_discardsLogs` — a session is closed without its logs.
* `Session.use_return_run` — a session whose calls are only looked at leaves none whatever the
  programs do: they have all ended when the first log comes.
* `Session.run_discardsLogs` — the whole run, event by event.
-/

namespace BuildLint

namespace Event

/-- **No program puts a directory at a temporary log** that an earlier event has allocated. -/
def SparesLogs (host : Host) (w : World) (es : List Event) : Prop :=
  ∀ before call rest v, es = before ++ .launch call :: rest → replay host w before = some v →
    ∀ log ∈ allocated before, v.disk.isDirectory log = false →
      (host.left v.calls call v.disk).isDirectory log = false

variable {host : Host} {w v : World} {es fs : List Event}

theorem SparesLogs.left (h : SparesLogs host w (es ++ fs)) : SparesLogs host w es :=
  fun before call rest v heq =>
    h before call (rest ++ fs) v (by rw [heq, List.append_assoc, List.cons_append])

/-- The logs that come first are spared by all programs that come later. -/
theorem SparesLogs.programsKeep (h : SparesLogs host w (es ++ fs))
    (hes : replay host w es = some v) {log : Text} (hlog : log ∈ allocated es) :
    ProgramsKeep (fun d => d.isDirectory log = false) host v fs := by
  intro before call rest u heq hu
  have hsplit : es ++ fs = (es ++ before) ++ .launch call :: rest := by
    rw [heq, List.append_assoc]
  have hmem : log ∈ allocated (es ++ before) := by
    rw [allocated_append]
    exact List.mem_append_left _ hlog
  exact h (es ++ before) call rest u hsplit (replay_append hes hu) log hmem

end Event

namespace Action

variable {α β : Type} {host : Host} {w : World}

/-- **An action discards its logs**: whatever file it removes is its own log, and if the programs
spare the logs then none of them is there in the end. -/
def DiscardsLogs (x : Action α) (host : Host) (w : World) : Prop :=
  ∃ es, Event.Leads host [] w es (x.after host w) ∧
    (Event.SparesLogs host w es →
      ∀ log ∈ Event.allocated es, (x.after host w).disk.isThere log = false)

/-- Asking the disk beforehand allocates no log. -/
theorem DiscardsLogs.consult {question : Disk → Except Fault α} {f : α → Action β}
    (hf : ∀ a, (f a).DiscardsLogs host w) : (consult question >>= f).DiscardsLogs host w := by
  cases hquestion : question w.disk with
  | error fault =>
    rw [DiscardsLogs, after_of_eq_error (bind_of_eq_error (consult_of_eq_error hquestion))]
    exact ⟨[], .nil _ w, fun _ _ h => absurd h List.not_mem_nil⟩
  | ok a =>
    rw [DiscardsLogs, after, bind_of_eq_ok (consult_eq_ok.2 ⟨hquestion, rfl⟩)]
    exact hf a

/-- Saying something afterwards brings no log back. -/
theorem DiscardsLogs.thenTell {x : Action α} (hx : x.DiscardsLogs host w) (level : Level)
    (text : α → Text) (f : α → β) :
    DiscardsLogs (do
      let a ← x
      tell level (text a)
      return f a) host w := by
  obtain ⟨es, hleads, hgone⟩ := hx
  cases hrun : x host w with
  | error fault v =>
    rw [DiscardsLogs, after_of_eq_error (bind_of_eq_error hrun)]
    rw [after_of_eq_error hrun] at hleads hgone
    exact ⟨es, hleads, hgone⟩
  | ok a v =>
    let told : World := { v with messages := v.messages ++ [⟨level, text a⟩] }
    have hend : (do tell level (text a); return f a : Action β) host v = .ok (f a) told := rfl
    rw [DiscardsLogs, after_of_eq_ok ((bind_of_eq_ok hrun).trans hend)]
    rw [after_of_eq_ok hrun] at hleads hgone
    have htell : Event.Leads host ([] ++ Event.allocated es) v [.tell ⟨level, text a⟩] told :=
      ⟨rfl, .of_keepsLogs _ fun e he => List.mem_singleton.1 he ▸ trivial⟩
    refine ⟨es ++ [.tell ⟨level, text a⟩], hleads.append htell, fun hspares log hlog => ?_⟩
    rw [Event.allocated_append] at hlog
    rcases List.mem_append.1 hlog with hlog | hlog
    · exact hgone hspares.left log hlog
    · exact absurd hlog List.not_mem_nil

/-- **Logs are allocated, put to use and taken away**: in the end none of them is there, if the
programs spare them. -/
theorem discardLogs_discards {es fs : List Event} {v u : World}
    (hes : Event.Leads host [] w es v)
    (hfiles : ∀ log ∈ Event.allocated es, v.disk.isDirectory log = false)
    (hfs : ∀ e ∈ fs, e.KeepsLogs ∧ e.MakesNoDirectory) (huse : Event.replay host v fs = some u) :
    ∃ gs, Event.Leads host [] w gs ((discardLogs (Event.allocated es)).after host u) ∧
      (Event.SparesLogs host w gs → ∀ log ∈ Event.allocated gs,
        ((discardLogs (Event.allocated es)).after host u).disk.isThere log = false) := by
  obtain ⟨gs, hgs, hclose⟩ := discardLogs_does (List.Subset.refl (Event.allocated es)) host u
  have hnone : Event.allocated fs = [] :=
    Event.allocated_eq_nil fun e he => (hfs e he).1.allocated?
  have hnone' : Event.allocated gs = [] :=
    Event.allocated_eq_nil fun e he => (hgs e he).allocated?
  have hown : Event.OwnRemovals (Event.allocated es) (fs ++ gs) := by
    refine .append (.of_keepsLogs _ fun e he => (hfs e he).1) ?_
    exact .of_removes hgs (List.subset_append_left _ _)
  refine ⟨es ++ (fs ++ gs), hes.append ⟨Event.replay_append huse hclose, hown⟩, ?_⟩
  intro hspares log hlog
  rw [Event.allocated_append, Event.allocated_append, hnone, hnone', List.append_nil,
    List.append_nil] at hlog
  have hstill : ∀ log ∈ Event.allocated es, u.disk.isDirectory log = false := fun log hlog =>
    Event.isDirectory_replay (fun e he => (hfs e he).2)
      (hspares.programsKeep hes.replay hlog).left huse (hfiles log hlog)
  obtain ⟨d, hclears, hrun⟩ := discardLogs_eq_ok host hstill
  rw [after_of_eq_ok hrun]
  exact hclears.gone log hlog log rfl

end Action

namespace Session

variable {host : Host} {w : World}

/-- Once its calls are prepared, a session ends by being closed. -/
theorem after_use_of_prepare {α : Type} {body : Session → Action α} {directory : Text}
    {options : Options} {s : Session} {v : World}
    (h : prepare { buildDirectory := directory, options } host w = .ok s v) :
    (use directory options body).after host w = (Action.discardLogs s.logs).after host
      ((Action.ofExcept s.work >>= fun _ => body s).after host v) := by
  rw [← close, ← Action.after_andFinally, Action.after, use, Action.bind_apply, h]
  rfl

/-- A session that cannot be prepared ends there. -/
theorem after_use_of_prepare_eq_error {α : Type} {body : Session → Action α} {directory : Text}
    {options : Options} {fault : Fault} {v : World}
    (h : prepare { buildDirectory := directory, options } host w = .error fault v) :
    (use directory options body).after host w = v := by
  rw [Action.after, use, Action.bind_apply, h]

/-- **A session is closed without its logs**, whatever is done with it. -/
theorem use_discardsLogs {α : Type} {body : Session → Action α}
    (hbody : ∀ s, (body s).Does fun e => e.KeepsLogs ∧ e.MakesNoDirectory) (directory : Text)
    (options : Options) : (use directory options body).DiscardsLogs host w := by
  obtain ⟨es, hleads, -, haccounts⟩ :=
    prepare_run { buildDirectory := directory, options } host w
  cases hrun : prepare { buildDirectory := directory, options } host w with
  | error fault v =>
    rw [Action.after_of_eq_error hrun] at hleads
    rw [hrun] at haccounts
    rw [Action.DiscardsLogs, after_use_of_prepare_eq_error hrun]
    exact ⟨es, hleads, fun _ => haccounts⟩
  | ok s v =>
    rw [Action.after_of_eq_ok hrun] at hleads
    rw [hrun] at haccounts
    have hwork : (Action.ofExcept s.work >>= fun _ => body s).Does fun e =>
        e.KeepsLogs ∧ e.MakesNoDirectory := (Action.does_ofExcept _).bind fun _ => hbody s
    obtain ⟨fs, hfs, hreplay⟩ := hwork host v
    obtain ⟨hlogs, -, hfiles⟩ := haccounts
    rw [List.nil_append] at hlogs hfiles
    rw [Action.DiscardsLogs, after_use_of_prepare hrun, hlogs]
    exact Action.discardLogs_discards hleads hfiles hfs hreplay

/-- **A session whose calls are only looked at** does nothing but prepare them, and take their logs
away again. -/
theorem use_return_run {α : Type} (look : Session → α) (directory : Text) (options : Options)
    (host : Host) (w : World) :
    ∃ es, Event.Leads host [] w es
        ((use directory options fun s => return look s).after host w) ∧
      (∀ e ∈ es, IsPreparation host directory e) ∧
      ∀ log ∈ Event.allocated es,
        ((use directory options fun s => return look s).after host w).disk.isThere log = false := by
  obtain ⟨es, hleads, hes, haccounts⟩ := prepare_run { buildDirectory := directory, options } host w
  cases hrun : prepare { buildDirectory := directory, options } host w with
  | error fault v =>
    rw [Action.after_of_eq_error hrun] at hleads
    rw [hrun] at haccounts
    rw [after_use_of_prepare_eq_error hrun]
    exact ⟨es, hleads, hes, haccounts⟩
  | ok s v =>
    rw [Action.after_of_eq_ok hrun] at hleads
    rw [hrun] at haccounts
    obtain ⟨hlogs, -, hfiles⟩ := haccounts
    rw [List.nil_append] at hlogs hfiles
    have hstill : (Action.ofExcept s.work >>= fun _ => (return look s : Action α)).after host v =
        v := by
      rw [work]
      split <;> rfl
    rw [after_use_of_prepare hrun, hstill, hlogs]
    obtain ⟨fs, hfs, hclose⟩ :=
      Action.discardLogs_does (List.Subset.refl (Event.allocated es)) host v
    have hnone : Event.allocated fs = [] :=
      Event.allocated_eq_nil fun e he => (hfs e he).allocated?
    refine ⟨es ++ fs, hleads.append ⟨hclose, .of_removes hfs (List.subset_append_right _ _)⟩,
      fun e he => ?_, ?_⟩
    · exact (List.mem_append.1 he).elim (hes e) fun he => .inr (.inr (hfs e he).isOfLog)
    · rw [Event.allocated_append, hnone, List.append_nil]
      obtain ⟨d, hclears, hgone⟩ := Action.discardLogs_eq_ok host hfiles
      rw [Action.after_of_eq_ok hgone]
      exact fun log hlog => hclears.gone log hlog log rfl

/-- **A run of the program discards its temporary logs.**  Its events lead to the world it ends in,
whether or not a fault stops it.  Whatever file they remove is a log allocated in this run, so
whatever else stands somewhere stays if the programs keep it; and if the programs put no directory
at a log, none of the logs is there in the end. -/
theorem run_discardsLogs (directory : Text) (options : Options) (output : Option Text)
    (host : Host) (w : World) :
    ∃ es, Event.replay host w es = some ((run directory options output).after host w) ∧
      ((run directory options output).after host w).logs = w.logs ++ Event.allocated es ∧
      Event.OwnRemovals [] es ∧
      (∀ q, Event.ProgramsKeep (fun d => d.isThere q = true) host w es →
        w.disk.isThere q = true →
          ((run directory options output).after host w).disk.isThere q = true) ∧
      (Event.SparesLogs host w es → ∀ log ∈ Event.allocated es,
        ((run directory options output).after host w).disk.isThere log = false) := by
  have hrun : (run directory options output).DiscardsLogs host w := by
    refine .consult fun buildDirectory => .consult fun result => ?_
    exact (use_discardsLogs (analyzeAndMerge_does · result) buildDirectory options).thenTell .info
      (fun report => "Wrote " ++ Decimal.ofNat report.findings.length ++ " unique results to " ++
        result) fun report => (Path.tidy result, report)
  obtain ⟨es, hleads, hgone⟩ := hrun
  refine ⟨es, hleads.replay, Event.logs_replay hleads.replay, hleads.own, fun q hkeep hq => ?_,
    hgone⟩
  exact Event.isThere_replay hleads.own hkeep hleads.replay
    ⟨hq, fun _ h => absurd h List.not_mem_nil⟩

end Session

end BuildLint
