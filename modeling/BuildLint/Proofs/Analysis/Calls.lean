import BuildLint.Analysis.Session
import BuildLint.Proofs.Report.ReportFile

/-!
# Proofs/Analysis/Calls — making the calls of a session

The calls of a session are made one after the other, whether or not they succeed; only a call
without an outcome ends the work.  How a host answers a list of calls (`Host.answers`) says
everything about them.

* `Answers` — the outcomes, the fault of a call that has none, and the disk that is left.
* `Session.analyzeAll_apply` — the calls, the sources that fail, and the world afterwards.
* `Session.analyzeAndMerge_does` — neither makes a directory nor touches the list of logs.
-/

namespace BuildLint

/-- **What comes of calls**: the outcomes of those that have one, the fault of the first that has
none, and the disk that is left. -/
structure Answers where
  outcomes : List Outcome
  fault : Option Fault
  disk : Disk

namespace Answers

/-- One outcome more, before the others. -/
def cons (outcome : Outcome) (a : Answers) : Answers :=
  { a with outcomes := outcome :: a.outcomes }

/-- **How many calls are made**: a call without an outcome is the last. -/
def made (a : Answers) : Nat := a.outcomes.length + a.fault.toList.length

theorem made_cons (outcome : Outcome) (a : Answers) : (a.cons outcome).made = a.made + 1 := by
  rw [made, made, cons, List.length_cons, Nat.add_right_comm]

end Answers

namespace Host

/-- **How a host answers calls**, one after the other. -/
def answers (host : Host) : List Call → List Call → Disk → Answers
  | _, [], d => ⟨[], none, d⟩
  | before, call :: rest, d =>
    match host.outcome before call d with
    | .ok outcome => (answers host (before ++ [call]) rest (host.left before call d)).cons outcome
    | .error fault => ⟨[], some fault, host.left before call d⟩

variable {host : Host} {before calls rest : List Call} {call : Call} {d : Disk}

theorem answers_cons_of_ok {outcome : Outcome} (h : host.outcome before call d = .ok outcome) :
    host.answers before (call :: rest) d =
      (host.answers (before ++ [call]) rest (host.left before call d)).cons outcome := by
  rw [answers, h]

theorem answers_cons_of_error {fault : Fault} (h : host.outcome before call d = .error fault) :
    host.answers before (call :: rest) d = ⟨[], some fault, host.left before call d⟩ := by
  rw [answers, h]

/-- **If every call has an outcome**, all of them are made. -/
theorem length_answers (h : (host.answers before calls d).fault = none) :
    (host.answers before calls d).outcomes.length = calls.length := by
  induction calls generalizing before d with
  | nil => rfl
  | cons call rest ih =>
    cases houtcome : host.outcome before call d with
    | error fault =>
      rw [answers_cons_of_error houtcome] at h
      cases h
    | ok outcome =>
      rw [answers_cons_of_ok houtcome] at h ⊢
      exact congrArg (· + 1) (ih h)

theorem take_made (h : (host.answers before calls d).fault = none) :
    calls.take (host.answers before calls d).made = calls := by
  rw [Answers.made, h, length_answers h]
  exact List.take_length

end Host

namespace Invocation

/-- **The call** of an invocation, in a directory and on top of an environment. -/
def call (directory : Text) (env : Environment) (i : Invocation) : Call :=
  ⟨i.compiler :: i.arguments, some directory, some (env.overlay i.environment)⟩

/-- **The sources whose calls fail**, in order. -/
def failed (invocations : List Invocation) (outcomes : List Outcome) : List Text :=
  ((invocations.zip outcomes).filter fun p => !p.2.ok).map (·.1.source)

theorem failed_cons (i : Invocation) (rest : List Invocation) (outcome : Outcome)
    (outcomes : List Outcome) : failed (i :: rest) (outcome :: outcomes) =
      if outcome.ok then failed rest outcomes else i.source :: failed rest outcomes := by
  rw [failed, List.zip_cons_cons, List.filter_cons]
  cases outcome.ok <;> rfl

/-- No source fails if all calls succeed. -/
theorem failed_eq_nil_iff {invocations : List Invocation} {outcomes : List Outcome}
    (h : outcomes.length = invocations.length) :
    failed invocations outcomes = [] ↔ ∀ o ∈ outcomes, o.exitCode = 0 := by
  induction invocations generalizing outcomes with
  | nil =>
    obtain rfl := List.length_eq_zero_iff.1 h
    exact ⟨fun _ _ ho => absurd ho List.not_mem_nil, fun _ => rfl⟩
  | cons i rest ih =>
    obtain ⟨o, others, rfl⟩ := List.exists_cons_of_length_eq_add_one h
    rw [failed_cons, List.forall_mem_cons, ← ih (Nat.succ.inj h), Outcome.ok]
    by_cases hok : o.exitCode = 0 <;> simp [hok]

theorem run_does (i : Invocation) (directory : Text) : (i.run directory).Does Event.IsQuiet :=
  Action.does_read.bind fun host => (Action.does_launch _ trivial).bind fun outcome => by
    dsimp only
    split
    · exact (Action.does_tell _ _ trivial).bind fun _ => Action.does_pure _
    · exact Action.does_pure _

/-- **One call**: its outcome or the fault that it stops with, and the world afterwards. -/
theorem run_apply (i : Invocation) (directory : Text) (host : Host) (w : World) :
    ∃ messages, i.run directory host w =
      Action.ofExcept (host.outcome w.calls (i.call directory host.environment) w.disk) host
        { disk := host.left w.calls (i.call directory host.environment) w.disk
          logs := w.logs
          calls := w.calls ++ [i.call directory host.environment]
          messages := w.messages ++ messages } := by
  simp only [run, Action.bind_apply, Action.read_apply, Action.launch_apply]
  rw [← call]
  cases host.outcome w.calls (i.call directory host.environment) w.disk with
  | error fault => exact ⟨[], by rw [List.append_nil]; rfl⟩
  | ok outcome =>
    simp only [Action.ofExcept_ok_apply]
    split
    · exact ⟨_, rfl⟩
    · exact ⟨[], by rw [List.append_nil]; rfl⟩

end Invocation

namespace Session

theorem analyzeAll_does (directory : Text) (invocations : List Invocation) :
    (analyzeAll directory invocations).Does Event.IsQuiet := by
  induction invocations with
  | nil => exact Action.does_pure _
  | cons i rest ih =>
    exact (Action.does_tell _ _ trivial).bind fun _ => (i.run_does directory).bind fun outcome =>
      ih.bind fun failed => Action.does_pure _

/-- **The calls are made in order**, whether or not they succeed, until one has no outcome: the
sources that fail or the fault of that call, and the world afterwards. -/
theorem analyzeAll_apply (directory : Text) (invocations : List Invocation) (host : Host)
    (w : World) :
    let calls := invocations.map (Invocation.call directory host.environment)
    let answers := host.answers w.calls calls w.disk
    ∃ messages, analyzeAll directory invocations host w =
      Action.ofExcept
        (answers.fault.elim (.ok (Invocation.failed invocations answers.outcomes)) .error) host
        { disk := answers.disk, logs := w.logs, calls := w.calls ++ calls.take answers.made
          messages := w.messages ++ messages } := by
  induction invocations generalizing w with
  | nil => exact ⟨[], by simp only [List.map_nil, List.take_nil, List.append_nil]; rfl⟩
  | cons i rest ih =>
    let saying : Message := ⟨.info, "Running analysis on: " ++ i.source⟩
    let call := i.call directory host.environment
    obtain ⟨said, hrun⟩ := i.run_apply directory host { w with messages := w.messages ++ [saying] }
    let called : World :=
      { disk := host.left w.calls call w.disk, logs := w.logs, calls := w.calls ++ [call]
        messages := w.messages ++ [saying] ++ said }
    have hcall : i.run directory host { w with messages := w.messages ++ [saying] } =
        Action.ofExcept (host.outcome w.calls call w.disk) host called := hrun
    rw [List.map_cons, analyzeAll, Action.bind_apply, Action.tell_apply]
    simp only [Action.bind_apply]
    rw [hcall]
    cases houtcome : host.outcome w.calls call w.disk with
    | error fault =>
      rw [Host.answers_cons_of_error houtcome]
      exact ⟨[saying] ++ said, by simp only [called, List.append_assoc]; rfl⟩
    | ok outcome =>
      obtain ⟨messages, hrest⟩ := ih called
      rw [Host.answers_cons_of_ok houtcome, Answers.made_cons, List.take_succ_cons]
      refine ⟨[saying] ++ said ++ messages, ?_⟩
      simp only [Action.ofExcept_ok_apply]
      rw [hrest, Answers.cons, Invocation.failed_cons]
      simp only [called, List.append_assoc, List.singleton_append]
      cases (host.answers (w.calls ++ [call])
        (rest.map (Invocation.call directory host.environment))
        (host.left w.calls call w.disk)).fault <;> rfl

/-- **The calls that a session makes**, if each has an outcome. -/
def calls (s : Session) (host : Host) : List Call :=
  s.invocations.map (Invocation.call s.buildDirectory host.environment)

/-- **How a host answers the calls of a session** in a world. -/
def answers (s : Session) (host : Host) (w : World) : Answers :=
  host.answers w.calls (s.calls host) w.disk

/-- **What a session does** once it is open makes no directory and keeps the list of logs. -/
theorem analyzeAndMerge_does (s : Session) (result : Text) :
    (analyzeAndMerge s result).Does fun e => e.KeepsLogs ∧ e.MakesNoDirectory :=
  ((analyzeAll_does _ _).mono fun e he => ⟨he.keepsLogs, he.makesNoDirectory⟩).bind fun failed => by
    cases failed with
    | nil => exact ReportFile.combineTo_does _ _
    | cons source rest => exact Action.does_fail _

end Session

end BuildLint
