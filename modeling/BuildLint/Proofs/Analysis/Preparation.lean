import BuildLint.Analysis.Session
import BuildLint.Proofs.Action.Accounts
import BuildLint.Proofs.CMake.Request
import BuildLint.Proofs.Keyed

/-!
# Proofs/Analysis/Preparation — what preparing a session does

Up to the calls nothing but CMake's query touches the disk.  Every call then allocates a log; a
fault among the calls takes the logs away that are there, so either all calls are prepared, each
with a log of its own, or no log is left.

* `Table.build_isComplete` — a table knows every compiler of its toolchains.
* `Invocation.extend_run` — the calls for some units, after others.
* `Session.prepare_run` — all of it, event by event.
-/

namespace BuildLint

/-! ## What compilers share -/

namespace Event

/-- The user is told something, or the command prompt of a toolchain is started. -/
def AsksPrompt (host : Host) : Event → Prop
  | .tell _ => True
  | .launch call => ∃ t, call = CompilerEnvironment.promptCall host.promptScript t
  | _ => False

theorem AsksPrompt.isQuiet {host : Host} {e : Event} (h : e.AsksPrompt host) : e.IsQuiet := by
  cases e <;> first | exact trivial | exact h

end Event

namespace Arguments

/-- The user is told if no ruleset is found. -/
def tellUnused (ruleset : Option Text) : Action Unit :=
  if ruleset.isNone then
    Action.tell .warning "Ruleset is not being used, all warnings will be enabled."
  else return ()

/-- The arguments that sources share, once all is found that they name. -/
def assembled (options : Options) (engine : Text) (ruleset directory : Option Text) :
    Except Fault (List Text) :=
  match Tokens.split? options.additionalArguments with
  | none => .error (.failure (.configuration (.openQuote options.additionalArguments)))
  | some additional =>
    .ok (base ++ ["/analyze:plugin" ++ engine] ++ ofRuleset ruleset directory ++
      ofSystemHeaders options.ignoreSystemHeaders ++ additional)

/-- **The shared arguments, step by step**: what they name is found, the user is told, and they are
put together. -/
theorem shared_eq (t : Toolchain) (options : Options) :
    shared t options = (do
      let engine ← Action.consult (engine · t)
      let directory := rulesetDirectory? (← Action.disk) t
      let ruleset ← findRuleset options.ruleset options.projectRoot directory
      tellUnused ruleset
      Action.ofExcept (assembled options engine ruleset directory)) := by
  refine bind_congr fun engine => bind_congr fun d => bind_congr fun ruleset => ?_
  simp only [tellUnused, assembled]
  cases ruleset <;> cases Tokens.split? options.additionalArguments <;> rfl

variable {P : Event → Prop} (htell : ∀ message, P (.tell message))

include htell

theorem findNamedRuleset_does (ruleset projectRoot : Text) (directory : Option Text) :
    (findNamedRuleset ruleset projectRoot directory).Does P := by
  refine Action.does_disk.bind fun d => ?_
  dsimp only
  split
  · exact (Action.does_tell _ _ (htell _)).bind fun _ => Action.does_pure _
  · cases directory with
    | none => exact (Action.does_tell _ _ (htell _)).bind fun _ => Action.does_fail _
    | some directory =>
      dsimp only
      split
      · exact (Action.does_tell _ _ (htell _)).bind fun _ => Action.does_pure _
      · exact Action.does_fail _

theorem findRuleset_does (ruleset : Option Text) (projectRoot : Text) (directory : Option Text) :
    (findRuleset ruleset projectRoot directory).Does P := by
  rw [findRuleset.eq_def]
  split
  · exact Action.does_pure _
  · exact Action.does_pure _
  · exact (findNamedRuleset_does htell _ _ _).bind fun _ => Action.does_pure _

theorem tellUnused_does (ruleset : Option Text) : (tellUnused ruleset).Does P := by
  rw [tellUnused]
  split
  · exact Action.does_tell _ _ (htell _)
  · exact Action.does_pure _

/-- **Working out the shared arguments** only talks. -/
theorem shared_does (t : Toolchain) (options : Options) : (shared t options).Does P := by
  rw [shared_eq]
  exact (Action.does_consult _).bind fun engine => Action.does_disk.bind fun d =>
    (findRuleset_does htell _ _ _).bind fun ruleset => (tellUnused_does htell _).bind fun _ =>
      Action.does_ofExcept _

end Arguments

namespace CompilerEnvironment

theorem prompt_does (t : Toolchain) (host : Host) (w : World) :
    (prompt t).DoesAt (Event.AsksPrompt host) host w := by
  refine .bind (Action.does_tell _ _ trivial host w) fun _ v _ =>
    .bind (Action.does_read host v) fun host' v' hread => ?_
  cases hread
  refine .bind (Action.does_launch _ ⟨t, rfl⟩ host v) fun outcome u _ => ?_
  split
  · exact Action.does_pure _ host u
  · exact Action.does_fail _ host u

theorem shared_does (t : Toolchain) (options : Options) (env : Environment) (host : Host)
    (w : World) : (shared t options env).DoesAt (Event.AsksPrompt host) host w := by
  rw [shared]
  split
  · exact .bind (prompt_does t host w) fun _ v _ => Action.does_pure _ host v
  · exact Action.does_pure _ host w

end CompilerEnvironment

namespace Table

theorem extend_does (options : Options) (env : Environment) (known : List Shared)
    (t : Toolchain) (host : Host) (w : World) :
    (extend options env known t).DoesAt (Event.AsksPrompt host) host w := by
  rw [extend]
  split
  · exact Action.does_pure _ host w
  · exact .bind (Arguments.shared_does (fun _ => trivial) _ _ host w) fun _ v _ =>
      .bind (CompilerEnvironment.shared_does _ _ _ host v) fun _ u _ => Action.does_pure _ host u

theorem extendAll_does (options : Options) (env : Environment) (known : List Shared)
    (toolchains : Toolchains) (host : Host) (w : World) :
    (extendAll options env known toolchains).DoesAt (Event.AsksPrompt host) host w := by
  induction toolchains generalizing known w with
  | nil => exact Action.does_pure _ host w
  | cons entry rest ih => exact .bind (extend_does _ _ _ _ host w) fun known v _ => ih known v

theorem build_does (toolchains : Toolchains) (options : Options) (env : Environment)
    (host : Host) (w : World) :
    (build toolchains options env).DoesAt (Event.AsksPrompt host) host w :=
  .bind (extendAll_does _ _ _ _ host w) fun _ v _ => Action.does_pure _ host v

/-! ### Every compiler is known -/

/-- What the sources of a compiler share is known. -/
def Covers (shared : List Shared) (compiler : Text) : Prop :=
  ∃ s, find? compiler shared = some s

/-- What is found is there, for that compiler. -/
theorem mem_of_find? {shared : List Shared} {compiler : Text} {s : Shared}
    (h : find? compiler shared = some s) : s ∈ shared ∧ s.compiler = compiler := by
  induction shared with
  | nil => cases h
  | cons first rest ih =>
    rw [find?] at h
    split at h
    · obtain rfl := Option.some.inj h
      exact ⟨List.mem_cons_self, ‹_›⟩
    · exact (ih h).imp_left (List.mem_cons_of_mem first)

variable {options : Options} {env : Environment} {host : Host} {w v : World}

theorem Covers.append {known : List Shared} {compiler : Text} (h : Covers known compiler)
    (more : List Shared) : Covers (known ++ more) compiler := by
  induction known with
  | nil =>
    obtain ⟨s, hs⟩ := h
    cases hs
  | cons s rest ih =>
    rw [Covers, List.cons_append, find?]
    rw [Covers, find?] at h
    split
    · exact ⟨s, rfl⟩
    · rw [if_neg ‹_›] at h
      exact ih h

theorem covers_append_singleton (known : List Shared) (s : Shared) :
    Covers (known ++ [s]) s.compiler := by
  induction known with
  | nil => exact ⟨s, if_pos rfl⟩
  | cons t rest ih =>
    rw [Covers, List.cons_append, find?]
    split
    · exact ⟨t, rfl⟩
    · exact ih

/-- What is known, after one more toolchain. -/
theorem extend_eq_ok {known known' : List Shared} {t : Toolchain}
    (h : extend options env known t host w = .ok known' v) :
    (Covers known t.compiler ∧ known' = known) ∨ ∃ arguments environment v₁,
      Arguments.shared t options host w = .ok arguments v₁ ∧
        known' = known ++ [⟨t.compiler, arguments, environment⟩] := by
  rw [extend] at h
  cases hfind : find? t.compiler known with
  | some s =>
    rw [hfind] at h
    cases h
    exact .inl ⟨⟨s, hfind⟩, rfl⟩
  | none =>
    rw [hfind] at h
    obtain ⟨arguments, v₁, harguments, h₁⟩ := Action.bind_eq_ok.1 h
    obtain ⟨environment, v₂, -, h₂⟩ := Action.bind_eq_ok.1 h₁
    cases h₂
    exact .inr ⟨arguments, environment, v₁, harguments, rfl⟩

theorem extend_covers {known known' : List Shared} {t : Toolchain}
    (h : extend options env known t host w = .ok known' v) :
    Covers known' t.compiler ∧ ∃ more, known' = known ++ more := by
  rcases extend_eq_ok h with ⟨hcovers, rfl⟩ | ⟨arguments, environment, v₁, -, rfl⟩
  · exact ⟨hcovers, [], (List.append_nil _).symm⟩
  · exact ⟨covers_append_singleton known ⟨t.compiler, arguments, environment⟩, _, rfl⟩

theorem extendAll_covers {known shared : List Shared} {toolchains : Toolchains}
    (h : extendAll options env known toolchains host w = .ok shared v) :
    (∃ more, shared = known ++ more) ∧ ∀ entry ∈ toolchains, Covers shared entry.2.compiler := by
  induction toolchains generalizing known w with
  | nil =>
    cases h
    exact ⟨⟨[], (List.append_nil _).symm⟩, fun _ he => absurd he List.not_mem_nil⟩
  | cons entry rest ih =>
    obtain ⟨known', v', hfirst, hrest⟩ := Action.bind_eq_ok.1 h
    obtain ⟨hcovers, more, rfl⟩ := extend_covers hfirst
    obtain ⟨⟨more', rfl⟩, hall⟩ := ih hrest
    refine ⟨⟨more ++ more', List.append_assoc _ _ _⟩, fun e he => ?_⟩
    rcases List.mem_cons.1 he with rfl | he
    · exact hcovers.append more'
    · exact hall e he

/-- **A table is complete** if it knows the compiler of each of its toolchains. -/
def IsComplete (table : Table) : Prop :=
  ∀ language t, table.toolchains.get? language = some t → Covers table.shared t.compiler

/-- **A table that is built is complete.** -/
theorem build_isComplete {toolchains : Toolchains} {table : Table}
    (h : build toolchains options env host w = .ok table v) : table.IsComplete := by
  obtain ⟨shared, v', hall, hpure⟩ := Action.bind_eq_ok.1 h
  cases hpure
  intro language t ht
  exact (extendAll_covers hall).2 (language, t) (Keyed.mem_of_get? ht)

end Table

/-! ## Calls and their logs -/

namespace Invocation

variable {table : Table} {options : Options} {host : Host} {w : World}

/-- The logs of some calls. -/
def logs (invocations : List Invocation) : List Text := invocations.map (·.log)

theorem logs_concat (invocations : List Invocation) (i : Invocation) :
    logs (invocations ++ [i]) = logs invocations ++ [i.log] := List.map_append

/-- Making the call for a unit, step by step. -/
theorem ofUnit_apply (options : Options) (u : CompileUnit) (host : Host) (w : World)
    {t : Toolchain} {shared : Shared} (h : Table.find? t.compiler table.shared = some shared) :
    ofUnit table options u t host w =
      match Arguments.ofUnit u t options with
      | .error fault => .error fault w
      | .ok arguments =>
        match Action.allocateLog host w with
        | .error fault v => .error fault v
        | .ok log v =>
          .ok { source := u.source, compiler := t.compiler
                arguments := arguments ++ ["/analyze:log" ++ log] ++ shared.arguments
                environment := shared.environment, log } v := by
  have hof : sharedOf table t.compiler = .ok shared := by rw [sharedOf, h]
  simp only [ofUnit, Action.bind_apply, hof]
  cases Arguments.ofUnit u t options with
  | error fault => rfl
  | ok arguments =>
    simp only [Action.ofExcept_ok_apply]
    cases Action.allocateLog host w <;> rfl

/-- **A call for a unit** cannot be built, or it comes with a new log. -/
theorem ofUnit_cases (options : Options) (u : CompileUnit) (host : Host) (w : World)
    {t : Toolchain} (h : Table.Covers table.shared t.compiler) :
    (∃ fault, ofUnit table options u t host w = .error fault w) ∨
      ∃ i v, ofUnit table options u t host w = .ok i v ∧ Event.IsOfLog (.allocate i.log) ∧
        Event.perform host w (.allocate i.log) = some v := by
  obtain ⟨shared, hshared⟩ := h
  rw [ofUnit_apply options u host w hshared]
  cases Arguments.ofUnit u t options with
  | error fault => exact .inl ⟨fault, rfl⟩
  | ok arguments =>
    rcases Action.allocateLog_cases host w with ⟨fault, hrun⟩ | ⟨log, v, hrun, hpath, hperform⟩
    · rw [hrun]
      exact .inl ⟨fault, rfl⟩
    · rw [hrun]
      exact .inr ⟨_, v, rfl, hpath, hperform⟩

/-- A log is no directory when it comes, and makes no other log one. -/
theorem isDirectory_of_allocate {log q : Text} {v : World}
    (h : Event.perform host w (.allocate log) = some v)
    (hq : q = log ∨ w.disk.isDirectory q = false) : v.disk.isDirectory q = false := by
  obtain ⟨-, d, hd, rfl⟩ := Event.perform_allocate.1 h
  rcases hq with rfl | hq
  · rw [Disk.isDirectory, Disk.look?_write_self hd rfl]
    rfl
  · exact (Disk.isDirectory_write hd q).trans hq

/-- What becomes of a unit: nothing, a fault, or a toolchain for its call. -/
theorem toolchainFor?_eq_ok_some {toolchains : Toolchains} {u : CompileUnit} {t : Toolchain}
    (h : Configuration.step (toolchainFor? toolchains u) = .ok (some t)) :
    ∃ language, toolchains.get? language = some t := by
  rw [Configuration.step, toolchainFor?] at h
  split at h <;> simp only [Except.mapError, Except.ok.injEq, reduceCtorEq] at h
  exact ⟨_, h⟩

/-- Preparing the call for one more unit, step by step. -/
theorem extend_cons_apply (table : Table) (options : Options) (before : List Invocation)
    (u : CompileUnit) (rest : List CompileUnit) (host : Host) (w : World) :
    extend table options before (u :: rest) host w =
      match Action.orElseUndo
          (Action.ofExcept (Configuration.step (toolchainFor? table.toolchains u)))
          (Action.discardLogs (logs before)) host w with
      | .ok none v => extend table options before rest host v
      | .ok (some t) v =>
        match Action.orElseUndo (ofUnit table options u t) (Action.discardLogs (logs before))
            host v with
        | .ok i v => extend table options (before ++ [i]) rest host v
        | .error fault v => .error fault v
      | .error fault v => .error fault v := by
  rw [extend, Action.bind_apply]
  simp only [logs]
  cases Action.orElseUndo
      (Action.ofExcept (Configuration.step (toolchainFor? table.toolchains u)))
      (Action.discardLogs (before.map (·.log))) host w with
  | error fault v => rfl
  | ok chosen v =>
    cases chosen with
    | none => rfl
    | some t =>
      simp only [Action.bind_apply]
      cases Action.orElseUndo (ofUnit table options u t)
        (Action.discardLogs (before.map (·.log))) host v <;> rfl

/-- **The calls for some units**, event by event: logs come one by one, and after a fault all of
them go. -/
theorem extend_run (hcomplete : table.IsComplete) (units : List CompileUnit)
    {before : List Invocation} (hbefore : ∀ log ∈ logs before, w.disk.isDirectory log = false) :
    (extend table options before units).AccountsFor logs Event.IsOfLog (logs before) host w := by
  induction units generalizing before w with
  | nil =>
    refine ⟨[], .nil _ w, fun _ he => absurd he List.not_mem_nil, (List.append_nil _).symm,
      fun _ he => absurd he List.not_mem_nil, ?_⟩
    rw [Event.allocated_nil, List.append_nil]
    exact hbefore
  | cons u rest ih =>
    have hcons := extend_cons_apply table options before u rest host w
    cases hchoose : Configuration.step (toolchainFor? table.toolchains u) with
    | error fault =>
      have hthrow : Action.ofExcept (.error fault : Except Fault (Option Toolchain)) host w =
        .error fault w := rfl
      obtain ⟨es, v, hes, hreplay, hundo, hgone⟩ :=
        Action.orElseUndo_discardLogs hthrow hbefore
      rw [hchoose, hundo] at hcons
      exact .of_removes hes hreplay hgone hcons
    | ok chosen =>
      rw [hchoose] at hcons
      cases chosen with
      | none =>
        change _ = extend table options before rest host w at hcons
        rw [Action.AccountsFor, Action.after, hcons, ← Action.after]
        exact ih hbefore
      | some t =>
        change _ = match Action.orElseUndo (ofUnit table options u t)
            (Action.discardLogs (logs before)) host w with
          | .ok i v => extend table options (before ++ [i]) rest host v
          | .error fault v => .error fault v at hcons
        obtain ⟨language, ht⟩ := toolchainFor?_eq_ok_some hchoose
        rcases ofUnit_cases options u host w (hcomplete language t ht) with
          ⟨fault, hunit⟩ | ⟨i, v, hunit, hpath, hlog⟩
        · obtain ⟨es, v, hes, hreplay, hundo, hgone⟩ :=
            Action.orElseUndo_discardLogs hunit hbefore
          rw [hundo] at hcons
          exact .of_removes hes hreplay hgone hcons
        · have hundo : Action.orElseUndo (ofUnit table options u t)
              (Action.discardLogs (logs before)) host w = .ok i v := by
            simp only [Action.orElseUndo, hunit]
          rw [hundo] at hcons
          have hbefore' : ∀ log ∈ logs (before ++ [i]), v.disk.isDirectory log = false := by
            intro log hmem
            rw [logs_concat] at hmem
            rcases List.mem_append.1 hmem with hmem | hmem
            · exact isDirectory_of_allocate hlog (.inr (hbefore log hmem))
            · exact isDirectory_of_allocate hlog (.inl (List.mem_singleton.1 hmem))
          have hrest := ih hbefore'
          rw [logs_concat] at hrest
          exact hrest.cons_allocate hpath hlog hcons

/-- The events of a preparation once CMake has answered. -/
def IsStep (host : Host) (e : Event) : Prop := e.AsksPrompt host ∨ e.IsOfLog

theorem ofUnits_run (hcomplete : table.IsComplete) (units : List CompileUnit) :
    (ofUnits units table options).AccountsFor logs (IsStep host) [] host w := by
  have hnone : ∀ log ∈ logs [], w.disk.isDirectory log = false := fun _ h =>
    absurd h List.not_mem_nil
  obtain ⟨es, hleads, hes, haccounts⟩ := extend_run hcomplete units hnone
  exact ⟨es, hleads, fun e he => .inr (hes e he), haccounts⟩

/-- **The calls for a build** account for their logs. -/
theorem ofBuild_run (codemodel : Option Text) (toolchains : Toolchains) (env : Environment) :
    (ofBuild codemodel toolchains options env).AccountsFor logs (IsStep host) [] host w := by
  refine .bind (Action.does_consult _ host w) fun units v _ => ?_
  refine .bind ((Table.build_does _ _ _ host v).mono fun e he =>
    ⟨.inl he, he.isQuiet.keepsLogs⟩) fun table v' htable => ?_
  exact ofUnits_run (Table.build_isComplete htable) units

end Invocation

namespace Session

/-- The part of a preparation that follows CMake's answer. -/
def synthesize (s : Session) (index : Index) : Action Session := do
  let toolchains ← Action.consult (Toolchains.load · index.toolchains)
  let invocations ←
    Invocation.ofBuild index.codemodel toolchains s.options (← read).environment
  return { s with invocations }

theorem prepare_eq (s : Session) : prepare s = Index.request s.buildDirectory >>= synthesize s := rfl

theorem synthesize_run (s : Session) (index : Index) (host : Host) (w : World) :
    (synthesize s index).AccountsFor logs (Invocation.IsStep host) [] host w := by
  refine .bind (Action.does_consult _ host w) fun toolchains v _ => ?_
  refine .bind (Action.does_read host v) fun host' v' _ => ?_
  exact .map (Invocation.ofBuild_run _ _ _) fun _ => rfl

/-- The events of a preparation: those of a request, and those once CMake has answered. -/
def IsPreparation (host : Host) (buildDirectory : Text) (e : Event) : Prop :=
  (e.IsOfQuery (Index.apiDirectory buildDirectory) ∨ e.AsksCMake host buildDirectory) ∨
    Invocation.IsStep host e

/-- **Preparing a session**, event by event: either it has a log for each of its calls, or a fault
has stopped it and every log is gone. -/
theorem prepare_run (s : Session) (host : Host) (w : World) :
    (prepare s).AccountsFor logs (IsPreparation host s.buildDirectory) [] host w := by
  rw [prepare_eq]
  refine .bind ((Index.request_does _ host w).mono fun e he => ⟨.inl he, ?_⟩) fun index v _ => ?_
  · exact he.elim (·.keepsLogs) (·.isQuiet.keepsLogs)
  · obtain ⟨es, hleads, hes, haccounts⟩ := synthesize_run s index host v
    exact ⟨es, hleads, fun e he => .inr (hes e he), haccounts⟩

/-- **What a prepared session has**: once CMake's query was in place, nothing was done but to talk,
to start programs and to allocate the session's logs. -/
theorem prepare_eq_ok {s s' : Session} {host : Host} {w v : World}
    (h : prepare s host w = .ok s' v) : s'.buildDirectory = s.buildDirectory ∧
      ∃ es, Event.replay host ((Query.create (Index.apiDirectory s.buildDirectory)).after host w)
          es = some v ∧
        (∀ e ∈ es, e.IsQuiet ∨ ∃ n, e = .allocate (Action.logPath n)) ∧
        s'.logs = Event.allocated es ∧ ∀ log ∈ s'.logs, v.disk.isDirectory log = false := by
  rw [prepare_eq] at h
  obtain ⟨index, v₁, hrequest, hsynthesize⟩ := Action.bind_eq_ok.1 h
  obtain ⟨path, v₀, hcreate, hanswer⟩ := Index.request_eq_ok hrequest
  rw [Action.after_of_eq_ok hcreate]
  obtain ⟨es, hes, hreplay⟩ := Index.answer_does s.buildDirectory host v₀
  rw [Action.after_of_eq_ok hanswer] at hreplay
  obtain ⟨fs, hleads, hfs, haccounts⟩ := synthesize_run s index host v₁
  rw [Action.after_of_eq_ok hsynthesize] at hleads
  rw [hsynthesize] at haccounts
  obtain ⟨hlogs, hremove, hfiles⟩ := haccounts
  have hnone : Event.allocated es = [] :=
    Event.allocated_eq_nil fun e he => (hes e he).isQuiet.keepsLogs.allocated?
  refine ⟨?_, es ++ fs, Event.replay_append hreplay hleads.replay, fun e he => ?_, ?_, ?_⟩
  · obtain ⟨toolchains, v₂, -, h₂⟩ := Action.bind_eq_ok.1 hsynthesize
    obtain ⟨env, v₃, -, h₃⟩ := Action.bind_eq_ok.1 h₂
    obtain ⟨invocations, v₄, -, h₄⟩ := Action.bind_eq_ok.1 h₃
    cases h₄
    rfl
  · rcases List.mem_append.1 he with he | he
    · exact .inl (hes e he).isQuiet
    · rcases hfs e he with hasks | hlog
      · exact .inl hasks.isQuiet
      · cases e with
        | allocate log => exact .inr (hlog.imp fun n hn => congrArg Event.allocate hn)
        | remove p => exact absurd he (hremove p)
        | _ => exact hlog.elim
  · rw [Event.allocated_append, hnone]
    exact hlogs
  · rw [hlogs]
    exact hfiles

end Session

end BuildLint
