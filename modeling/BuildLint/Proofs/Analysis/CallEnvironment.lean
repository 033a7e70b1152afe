import BuildLint.Proofs.Action.Outcomes
import BuildLint.Proofs.Analysis.Calls
import BuildLint.Proofs.Analysis.Invocations
import BuildLint.Proofs.Analysis.ResultFile
import BuildLint.Proofs.Text.Entries
import BuildLint.Proofs.Toolchain.Placement

/-!
# Proofs/Analysis/CallEnvironment — the environment in which a compiler is called

A compiler is called in the program's own environment, except for four variables.  Three of them are
lists of directories: the program's own, and behind them whatever the command prompt has answered
for that compiler, if it is asked at all.

* `directories_append`, `overlay_given` — the directories of two lists as one, and what the four
  variables change on top of an environment.
* `Suits` — what a call finds in its environment, in terms of what the command prompt has answered.
* `Comes` — where the environment of a compiler comes from; `shared_heeds` says so for one compiler,
  `Table.extendAll_heeds` for all compilers, `Session.prepare_heeds` for a whole preparation.
* `Session.prepare_environments` — every call of a session, and the end of a session whose command
  prompt fails.
-/

namespace BuildLint

/-! ## Environments -/

/-- **The directories of a list** of directories. -/
def directories (t : Text) : List Text := Text.entries (· = ';') t

namespace CompilerEnvironment

/-- **Two lists as one** have the directories of both. -/
theorem directories_append (base more : Text) :
    directories (append base more) = directories base ++ directories more := by
  cases base with
  | nil => cases more <;> rfl
  | cons b base =>
    cases more with
    | nil => exact (List.append_nil _).symm
    | cons c more =>
      have hjoin : append (b :: base) (c :: more) =
          (b :: base) ++ CodePoint.ofChar ';' :: (c :: more) := by
        simp [append, Text.joinWith, Text.ofString]
      rw [hjoin]
      exact Text.entries_append_separator (by decide) _ _

/-- Separators that separate nothing do not matter. -/
example : directories (append "a;" ";b;c") = ["a", "b", "c"] := rfl

/-! ## What a call finds -/

/-- The variables that a compiler is given. -/
def names : List Text := ["CAEmitSarifLog", "CAExcludePath", "INCLUDE", "LIB"]

/-- **A compiler is called in an environment**, but for its own variables, one of which is always
the same. -/
structure Frames (env called : Environment) : Prop where
  others : ∀ name ∉ names, called.get? name = env.get? name
  sarif : called.get? "CAEmitSarifLog" = some "1"

/-- **Behind the program's own directories** stand those of the command prompt; its headers are
searched and left out of the analysis. -/
structure IsExtended (env : Environment) (v : PromptVariables) (called : Environment) : Prop where
  headers : directories (called.get "INCLUDE") =
    directories (env.get "INCLUDE") ++ directories v.headers
  libraries : directories (called.get "LIB") =
    directories (env.get "LIB") ++ directories v.libraries
  excluded : directories (called.get "CAExcludePath") =
    directories (env.get "CAExcludePath") ++ directories v.headers

/-- **The program's own directories**, empty if there are none. -/
structure IsInherited (env called : Environment) : Prop where
  headers : called.get? "INCLUDE" = some (env.get "INCLUDE")
  libraries : called.get? "LIB" = some (env.get "LIB")
  excluded : called.get? "CAExcludePath" = some (env.get "CAExcludePath")

/-- **A call finds in its environment** what the command prompt has answered for its compiler and
the architectures that it stands for, provided that it is to be asked. -/
inductive Suits (host : Host) (options : Options) (known : List (Call × Except Fault Outcome))
    (call : Call) : Prop
  | extended {called : Environment} {t : Toolchain} {outcome : Outcome}
      (hload : options.loadCompilerEnvironment = true)
      (hcalled : call.environment = some called) (hframes : Frames host.environment called)
      (hcompiler : call.arguments.head? = some t.compiler) (hplaced : t.IsPlaced)
      (hknown : (promptCall host.promptScript t, .ok outcome) ∈ known) (hok : outcome.ok = true)
      (h : IsExtended host.environment (ofOutput outcome.output) called)
  | inherited {called : Environment} (hload : options.loadCompilerEnvironment = false)
      (hcalled : call.environment = some called) (hframes : Frames host.environment called)
      (h : IsInherited host.environment called)

/-! ## Where an environment comes from -/

/-- **Where the environment of a compiler comes from**: the command prompt has been asked for that
compiler and has answered, or it is not to be asked. -/
inductive Comes (host : Host) (options : Options) (env : Environment)
    (known : List (Call × Except Fault Outcome)) (compiler : Text) : Environment → Prop
  | answered {t : Toolchain} {outcome : Outcome} (hload : options.loadCompilerEnvironment = true)
      (hcompiler : t.compiler = compiler) (hplaced : t.IsPlaced)
      (hknown : (promptCall host.promptScript t, .ok outcome) ∈ known) (hok : outcome.ok = true) :
      Comes host options env known compiler (extended env (ofOutput outcome.output))
  | inherited (hload : options.loadCompilerEnvironment = false) :
      Comes host options env known compiler (inherited env)

/-- **What stops a preparation**: a command prompt that fails, or one whose call has no outcome. -/
inductive Stops (host : Host) : Call × Except Fault Outcome → Fault → Prop
  | failed {t : Toolchain} {outcome : Outcome} (h : outcome.ok = false) :
      Stops host (promptCall host.promptScript t, .ok outcome) (.failure (.synthesis .promptFailed))
  | noOutcome {t : Toolchain} {fault : Fault} :
      Stops host (promptCall host.promptScript t, .error fault) fault

variable {env : Environment} {host : Host} {options : Options}
  {known known' : List (Call × Except Fault Outcome)}

theorem Comes.mono {compiler : Text} {environment : Environment}
    (h : Comes host options env known compiler environment) (hsub : known ⊆ known') :
    Comes host options env known' compiler environment := by
  cases h with
  | answered hload hcompiler hplaced hknown hok =>
    exact .answered hload hcompiler hplaced (hsub hknown) hok
  | inherited hload => exact .inherited hload

/-- The four variables, three of them with values of their own. -/
def given (excluded headers libraries : Text) : Environment :=
  [("CAEmitSarifLog", "1"), ("CAExcludePath", excluded), ("INCLUDE", headers), ("LIB", libraries)]

/-- **The four variables on top of an environment.** -/
theorem overlay_given (env : Environment) (excluded headers libraries : Text) :
    Frames env (env.overlay (given excluded headers libraries)) ∧
      (env.overlay (given excluded headers libraries)).get? "CAExcludePath" = some excluded ∧
      (env.overlay (given excluded headers libraries)).get? "INCLUDE" = some headers ∧
      (env.overlay (given excluded headers libraries)).get? "LIB" = some libraries := by
  have hnames : (given excluded headers libraries).map Prod.fst = names := rfl
  have hget : ∀ {name value}, (name, value) ∈ given excluded headers libraries →
      (env.overlay (given excluded headers libraries)).get? name = some value :=
    fun h => Keyed.get?_overlay_of_mem (hnames ▸ by decide) h env
  refine ⟨⟨fun name hname => ?_, hget ?_⟩, hget ?_, hget ?_, hget ?_⟩
  · exact Keyed.get?_overlay_of_not_mem (hnames ▸ hname) env
  all_goals simp [given]

theorem isExtended_overlay (env : Environment) (v : PromptVariables) :
    IsExtended env v (env.overlay (extended env v)) := by
  obtain ⟨-, hexcluded, hheaders, hlibraries⟩ := overlay_given env
    (append (env.get "CAExcludePath") v.headers) (append (env.get "INCLUDE") v.headers)
    (append (env.get "LIB") v.libraries)
  have hdirectories : ∀ {name : Text} {base more : Text},
      (env.overlay (extended env v)).get? name = some (append base more) →
        directories (Environment.get name (env.overlay (extended env v))) =
          directories base ++ directories more := fun h => by
    rw [Environment.get, h, Option.getD_some, directories_append]
  exact ⟨hdirectories hheaders, hdirectories hlibraries, hdirectories hexcluded⟩

/-- **The environment of a compiler suits its calls.** -/
theorem Comes.suits {i : Invocation}
    (h : Comes host options host.environment known i.compiler i.environment) (directory : Text) :
    Suits host options known (i.call directory host.environment) := by
  obtain ⟨source, compiler, arguments, environment, log⟩ := i
  cases h with
  | answered hload hcompiler hplaced hknown hok =>
    exact .extended hload rfl (overlay_given _ _ _ _).1 (congrArg some hcompiler.symm) hplaced
      hknown hok (isExtended_overlay _ _)
  | inherited hload =>
    obtain ⟨hframes, hexcluded, hheaders, hlibraries⟩ := overlay_given host.environment
      (host.environment.get "CAExcludePath") (host.environment.get "INCLUDE")
      (host.environment.get "LIB")
    exact .inherited hload rfl hframes ⟨hheaders, hlibraries, hexcluded⟩

/-! ## One compiler -/

/-- What asking the command prompt for a toolchain does. -/
def promptEvents (script : Text) (t : Toolchain) : List Event :=
  [.tell ⟨.info, "Extracting environment from VS Command Prompt"⟩, .launch (promptCall script t)]

theorem promptEvents_ask (host : Host) (t : Toolchain) :
    ∀ e ∈ promptEvents host.promptScript t, e.AsksPrompt host := by
  simp [promptEvents, Event.AsksPrompt]

theorem Stops.length_arguments {p : Call × Except Fault Outcome} {fault : Fault}
    (h : Stops host p fault) : p.1.arguments.length = 4 := by
  cases h <;> rfl

/-- Whatever stops a preparation stops what would go on with the answer. -/
theorem Stops.ofAnswer_eq {p : Call × Except Fault Outcome} {fault : Fault} (h : Stops host p fault)
    (env : Environment) : (p.2 >>= ofAnswer env) = .error fault := by
  cases h with
  | noOutcome => rfl
  | failed hfailed => exact if_neg (Bool.eq_false_iff.1 hfailed)

theorem ofAnswer_eq_ok {outcome : Outcome} {environment : Environment}
    (h : ofAnswer env outcome = .ok environment) :
    outcome.ok = true ∧ extended env (ofOutput outcome.output) = environment := by
  rw [ofAnswer] at h
  split at h
  · exact ⟨‹_›, Except.ok.inj h⟩
  · cases h

/-- **Working out an environment** heeds the command prompt. -/
theorem shared_heeds {t : Toolchain} (hplaced : t.IsPlaced) (options : Options) (env : Environment)
    (known : List (Call × Except Fault Outcome)) (host : Host) (w : World) :
    (shared t options env).Heeds (Event.AsksPrompt host) (Stops host)
      (fun known' environment => known ⊆ known' ∧
        Comes host options env known' t.compiler environment) known host w := by
  cases hload : options.loadCompilerEnvironment with
  | false =>
    have hpure : shared t options env = pure (inherited env) := by
      rw [shared, hload]
      rfl
    rw [hpure]
    exact Action.heeds_pure ⟨List.Subset.refl _, .inherited hload⟩
  | true =>
    have hrun := shared_apply hload t env host w
    generalize houtcome : host.outcome w.calls (promptCall host.promptScript t) w.disk = outcome
      at hrun
    have houtcomes : Event.outcomes host w (promptEvents host.promptScript t) =
        [(promptCall host.promptScript t, outcome)] := by
      rw [← houtcome]
      rfl
    refine ⟨_, promptEvents_ask host t, ?_, fun environment v h => ?_,
      fun other v h p hp fault hstops => ?_⟩
    · rw [Action.after, hrun, ← Action.after, Action.after_ofExcept]
      rfl
    · obtain ⟨hboth, -⟩ := Action.ofExcept_eq_ok.1 (hrun.symm.trans h)
      rw [houtcomes]
      refine ⟨fun p hp fault hstops => ?_, List.subset_append_left _ _, ?_⟩
      · obtain rfl := List.mem_singleton.1 hp
        cases (hstops.ofAnswer_eq env).symm.trans hboth
      · obtain ⟨answer, rfl, hanswer⟩ := Steps.bind_eq_ok.1 hboth
        obtain ⟨hok, rfl⟩ := ofAnswer_eq_ok hanswer
        exact .answered hload rfl hplaced (List.mem_append_right _ List.mem_cons_self) hok
    · rw [houtcomes] at hp
      obtain rfl := List.mem_singleton.1 hp
      have hanswer : (outcome >>= ofAnswer env) = .error fault := hstops.ofAnswer_eq env
      rw [hrun, hanswer] at h
      cases h
      rfl

end CompilerEnvironment

/-! ## All compilers -/

open CompilerEnvironment

namespace Table

variable {options : Options} {env : Environment} {host : Host}
  {known : List (Call × Except Fault Outcome)} {entries : List Shared}

/-- **The environments of a table** come from where they have to. -/
def AllCome (host : Host) (options : Options) (env : Environment)
    (known : List (Call × Except Fault Outcome)) (entries : List Shared) : Prop :=
  ∀ s ∈ entries, Comes host options env known s.compiler s.environment

/-- **One more toolchain** heeds the command prompt. -/
theorem extend_heeds (h : AllCome host options env known entries) {t : Toolchain}
    (hplaced : t.IsPlaced) (w : World) :
    (extend options env entries t).Heeds (Event.AsksPrompt host) (Stops host)
      (AllCome host options env) known host w := by
  rw [extend]
  split
  · exact Action.heeds_pure h
  · have harguments : (Arguments.shared t options).Heeds (Event.AsksPrompt host) (Stops host)
        (fun known' _ => known ⊆ known') known host w :=
      (Arguments.shared_does (P := fun e => e.AsksPrompt host ∧ e.launched? = none)
        (fun _ => ⟨trivial, rfl⟩) t options host w).heeds (fun _ he => he.1)
        (fun call _ _ he => absurd he.2 (Option.some_ne_none call)) fun _ _ _ _ hsub => hsub
    refine harguments.bind fun arguments v known₁ _ hsub => ?_
    refine (shared_heeds hplaced options env known₁ host v).bind
      fun environment u known₂ _ hcomes => ?_
    refine Action.heeds_pure fun s hs => ?_
    rcases List.mem_append.1 hs with hs | hs
    · exact (h s hs).mono (List.Subset.trans hsub hcomes.1)
    · obtain rfl := List.mem_singleton.1 hs
      exact hcomes.2

/-- **All toolchains**, one after the other. -/
theorem extendAll_heeds (h : AllCome host options env known entries) {toolchains : Toolchains}
    (hplaced : ∀ entry ∈ toolchains, entry.2.IsPlaced) (w : World) :
    (extendAll options env entries toolchains).Heeds (Event.AsksPrompt host) (Stops host)
      (AllCome host options env) known host w := by
  induction toolchains generalizing known entries w with
  | nil => exact Action.heeds_pure h
  | cons entry rest ih =>
    obtain ⟨hentry, hrest⟩ := List.forall_mem_cons.1 hplaced
    exact (extend_heeds h hentry w).bind fun _ v _ _ hmore => ih hmore hrest v

theorem build_heeds {toolchains : Toolchains} (hplaced : ∀ entry ∈ toolchains, entry.2.IsPlaced)
    (options : Options) (env : Environment) (known : List (Call × Except Fault Outcome))
    (host : Host) (w : World) :
    (build toolchains options env).Heeds (Event.AsksPrompt host) (Stops host)
      (fun known' table => AllCome host options env known' table.shared) known host w :=
  (extendAll_heeds (fun _ hs => absurd hs List.not_mem_nil) hplaced w).bind
    fun _ _ _ _ hall => Action.heeds_pure hall

end Table

/-! ## All calls -/

namespace Invocation

variable {table : Table} {options : Options} {env : Environment} {host : Host}
  {known : List (Call × Except Fault Outcome)} {calls : List Invocation}

/-- The environment of a call is what its compiler's sources share. -/
theorem exists_shared_of_forall₂ {pairs : List (CompileUnit × Toolchain)}
    (h : List.Forall₂ (IsFor table options) pairs calls) :
    ∀ i ∈ calls, ∃ s ∈ table.shared, s.compiler = i.compiler ∧ s.environment = i.environment := by
  induction h with
  | nil => exact fun _ hi => absurd hi List.not_mem_nil
  | cons hpair _ ih =>
    refine List.forall_mem_cons.2 ⟨?_, ih⟩
    obtain ⟨-, -, s, -, -, hs, -, henvironment⟩ := hpair.arguments
    obtain ⟨hmem, hcompiler⟩ := Table.mem_of_find? hs
    exact ⟨s, hmem, hcompiler.trans hpair.compiler.symm, henvironment.symm⟩

/-- **Where the environments of some calls come from.** -/
def AllCome (host : Host) (options : Options) (env : Environment)
    (known : List (Call × Except Fault Outcome)) (calls : List Invocation) : Prop :=
  ∀ i ∈ calls, Comes host options env known i.compiler i.environment

/-- **The calls for some units** start no program. -/
theorem ofUnits_heeds (hcomplete : table.IsComplete)
    (h : Table.AllCome host options env known table.shared) (units : List CompileUnit)
    (w : World) :
    (ofUnits units table options).Heeds (IsStep host) (Stops host)
      (AllCome host options env) known host w := by
  have hdoes : (ofUnits units table options).DoesAt Event.IsOfLog host w :=
    (extend_run hcomplete units fun _ hlog => absurd hlog List.not_mem_nil).doesAt
  refine hdoes.heeds (fun _ he => .inr he) (fun _ _ _ he => he.elim)
    fun calls v known' hrun hsub => ?_
  rcases made_or_refused hcomplete options host units (Since.refl w) with
    ⟨calls', v', hmade, hfor, -⟩ | ⟨fault, v', n, hrefused, -⟩
  · cases hmade.symm.trans hrun
    intro i hi
    obtain ⟨s, hs, hcompiler, henvironment⟩ := exists_shared_of_forall₂ hfor i hi
    rw [← hcompiler, ← henvironment]
    exact (h s hs).mono hsub
  · cases hrefused.symm.trans hrun

/-- **The calls for a build** heed the command prompt. -/
theorem ofBuild_heeds (codemodel : Option Text) {toolchains : Toolchains}
    (hplaced : ∀ entry ∈ toolchains, entry.2.IsPlaced) (options : Options) (env : Environment)
    (known : List (Call × Except Fault Outcome)) (host : Host) (w : World) :
    (ofBuild codemodel toolchains options env).Heeds (IsStep host) (Stops host)
      (AllCome host options env) known host w := by
  refine (Action.heeds_of_silent (Action.does_consult _ host w)).bind fun units v known₁ _ _ => ?_
  refine ((Table.build_heeds hplaced options env known₁ host v).mono fun _ => .inl).bind
    fun table u known₂ hbuild hall => ?_
  exact ofUnits_heeds (Table.build_isComplete hbuild) hall units u

end Invocation

namespace Session

variable {host : Host} {w : World}

theorem synthesize_heeds (s : Session) (index : Index) (known : List (Call × Except Fault Outcome))
    (host : Host) (w : World) :
    (synthesize s index).Heeds (Invocation.IsStep host) (Stops host)
      (fun known' s' => s'.buildDirectory = s.buildDirectory ∧
        Invocation.AllCome host s.options host.environment known' s'.invocations) known host w := by
  refine (Action.heeds_of_silent (Action.does_consult _ host w)).bind
    fun toolchains v known₁ hload _ => ?_
  refine (Action.heeds_of_silent (Action.does_read host v)).bind
    fun host' v' known₂ hread _ => ?_
  cases hread
  have hplaced : ∀ entry ∈ toolchains, entry.2.IsPlaced := fun _ hentry =>
    Toolchains.isPlaced_of_load (Action.consult_eq_ok.1 hload).1 hentry
  exact (Invocation.ofBuild_heeds _ hplaced _ _ known₂ host v).bind fun calls u known₃ _ hall =>
    Action.heeds_pure ⟨rfl, hall⟩

/-- CMake is not the command prompt: it is called with fewer arguments. -/
theorem not_stops_of_asksCMake {buildRoot : Text} {call : Call} {outcome : Except Fault Outcome}
    {fault : Fault} (h : Event.AsksCMake host buildRoot (.launch call)) :
    ¬Stops host (call, outcome) fault := by
  intro hstops
  obtain ⟨path, -, rfl⟩ := h
  exact absurd hstops.length_arguments (Nat.ne_of_lt (by decide : 2 < 4))

/-- **Preparing a session** heeds the command prompt. -/
theorem prepare_heeds (s : Session) (host : Host) (w : World) :
    (prepare s).Heeds (IsPreparation host s.buildDirectory) (Stops host)
      (fun known s' => s'.buildDirectory = s.buildDirectory ∧
        Invocation.AllCome host s.options host.environment known s'.invocations) [] host w := by
  rw [prepare_eq]
  have hrequest : (Index.request s.buildDirectory).Heeds (IsPreparation host s.buildDirectory)
      (Stops host) (fun _ _ => True) [] host w :=
    (Index.request_does s.buildDirectory host w).heeds (fun _ => .inl)
      (fun _ _ _ he => he.elim False.elim not_stops_of_asksCMake) fun _ _ _ _ _ => trivial
  exact hrequest.bind fun index v known _ _ =>
    (synthesize_heeds s index known host v).mono fun _ => .inr

/-- A run whose session cannot be prepared ends there. -/
theorem run_of_prepare_eq_error {directory buildDirectory result : Text} {options : Options}
    {output : Option Text} {fault : Fault} {v : World}
    (hdirectory : buildDirectoryFor w.disk directory options.projectRoot = .ok buildDirectory)
    (hresult : resultPath w.disk buildDirectory options output = .ok result)
    (h : prepare { buildDirectory, options } host w = .error fault v) :
    run directory options output host w = .error fault v :=
  (run_of_use hdirectory hresult).1 fault v (Action.bind_of_eq_error h)

/-- Preparing a session calls no compiler. -/
theorem call_notMem_launched {buildDirectory : Text} {es : List Event}
    (hes : ∀ e ∈ es, IsPreparation host buildDirectory e) (i : Invocation) (directory : Text) :
    i.call directory host.environment ∉ Event.launched es := by
  intro hmem
  obtain ⟨e, he, hlaunch⟩ := List.mem_filterMap.1 hmem
  cases e with
  | launch call =>
    obtain rfl := Option.some.inj hlaunch
    have henvironment : ∀ own : Call, own.environment = none →
        own ≠ i.call directory host.environment := fun own hown heq => by
      rw [heq] at hown
      cases hown
    rcases hes _ he with (hquery | ⟨path, -, hcall⟩) | ⟨t, hcall⟩ | hlog
    · exact hquery
    · exact henvironment _ rfl hcall.symm
    · exact henvironment _ rfl hcall.symm
    · exact hlog
  | _ => cases hlaunch

/-- **The environment of every call.**  However a session is prepared, its events say what the
command prompt has answered.  If it is prepared, its calls are those that it will make, unless one
without an outcome ends them, and each finds in its environment what it should.  If the command
prompt fails, or a call of it has no outcome, a run ends with that failure or that fault, and
without having called a compiler. -/
theorem prepare_environments (buildDirectory : Text) (options : Options) (host : Host)
    (w : World) :
    ∃ es, Event.replay host w es = some ((prepare { buildDirectory, options }).after host w) ∧
      (∀ e ∈ es, IsPreparation host buildDirectory e) ∧
      (∀ s v, prepare { buildDirectory, options } host w = .ok s v →
        (∀ u, (s.analyze.after host u).calls =
          u.calls ++ (s.calls host).take (s.answers host u).made) ∧
        ∀ call ∈ s.calls host, Suits host options (Event.outcomes host w es) call) ∧
      ∀ p ∈ Event.outcomes host w es, ∀ fault, Stops host p fault →
        ∀ directory output result,
          buildDirectoryFor w.disk directory options.projectRoot = .ok buildDirectory →
          resultPath w.disk buildDirectory options output = .ok result →
          ∃ u made, run directory options output host w = .error fault u ∧
            u.calls = w.calls ++ made ∧
            ∀ (i : Invocation) directory, i.call directory host.environment ∉ made := by
  obtain ⟨es, hes, hreplay, hok, herror⟩ := prepare_heeds { buildDirectory, options } host w
  refine ⟨es, hreplay, hes, fun s v h => ?_,
    fun p hp fault hstops directory output result hdirectory hresult => ?_⟩
  · obtain ⟨-, hbuild, hall⟩ := hok s v h
    refine ⟨fun u => (analyzeAndMerge_run s [] host u).1, fun call hcall => ?_⟩
    obtain ⟨i, hi, rfl⟩ := List.mem_map.1 hcall
    exact (hall i hi).suits _
  · cases hprepare : prepare { buildDirectory, options } host w with
    | ok s v => exact absurd hstops ((hok s v hprepare).1 p hp fault)
    | error other v =>
      obtain rfl := herror other v hprepare p hp fault hstops
      rw [Action.after_of_eq_error hprepare] at hreplay
      exact ⟨v, Event.launched es, run_of_prepare_eq_error hdirectory hresult hprepare,
        Event.calls_replay hreplay, call_notMem_launched hes⟩

/-- A host that has CMake, and a command prompt that ends and prints something. -/
def promptHost (exitCode : Int) (printed : Bytes) : Host where
  environment := [("PATH", "p"), ("INCLUDE", "o;")]
  promptScript := "vc"
  executable name := if name = "cmake" then some "cmake" else none
  respond _ call d :=
    if call.arguments.head? = some "vc" then (.ended exitCode printed [], d)
    else (.ended 0 [] [], d)
  decode := Utf8.decode
  logLimit := none

/-- A host whose command prompt knows a directory of headers. -/
def answeringHost : Host := promptHost 0 (Utf8.encode "INCLUDE=i\n")

/-- Whether a session has calls, each of which finds some headers. -/
def findsHeaders (host : Host) (headers : Text) (s : Session) (_ : World) : Bool :=
  !(s.calls host).isEmpty && (s.calls host).all fun call =>
    call.environment.any fun called => called.get? "INCLUDE" == some headers

theorem exists_of_findsHeaders {host : Host} {headers : Text} {x : Action Session} {w : World}
    (h : Action.gives (findsHeaders host headers) (x host w) = true) :
    ∃ s v, x host w = .ok s v ∧ s.calls host ≠ [] ∧ ∀ call ∈ s.calls host, ∃ called,
      call.environment = some called ∧ called.get? "INCLUDE" = some headers := by
  obtain ⟨s, v, hrun, h⟩ := Action.exists_of_gives h
  rw [findsHeaders, Bool.and_eq_true, Bool.not_eq_true', List.isEmpty_eq_false_iff,
    List.all_eq_true] at h
  refine ⟨s, v, hrun, h.1, fun call hcall => ?_⟩
  obtain ⟨called, hcalled, hget⟩ := (Option.any_eq_true _ _).1 (h.2 call hcall)
  exact ⟨called, hcalled, eq_of_beq hget⟩

theorem prepare_environments_smallBuild : ∃ s v,
    prepare { buildDirectory := "/b", options := {} } answeringHost smallWorld = .ok s v ∧
      s.calls answeringHost ≠ [] ∧ ∀ call ∈ s.calls answeringHost, ∃ called,
        call.environment = some called ∧ called.get? "PATH" = some "p" ∧
          directories (called.get "INCLUDE") = ["o", "i"] := by
  obtain ⟨s, v, hprepare, hcalls, hheaders⟩ := exists_of_findsHeaders
    (by decide +kernel : Action.gives (findsHeaders answeringHost "o;;i")
      (prepare { buildDirectory := "/b", options := {} } answeringHost smallWorld) = true)
  obtain ⟨es, -, -, hok, -⟩ := prepare_environments "/b" {} answeringHost smallWorld
  refine ⟨s, v, hprepare, hcalls, fun call hcall => ?_⟩
  obtain ⟨called, hcalled, hget⟩ := hheaders call hcall
  cases (hok s v hprepare).2 call hcall with
  | inherited hload => cases hload
  | extended _ hcalled' hframes =>
    cases hcalled.symm.trans hcalled'
    refine ⟨called, hcalled, (hframes.others "PATH" (by decide)).trans rfl, ?_⟩
    rw [Environment.get, hget]
    rfl

/-- Whether a fault says that something is no text. -/
def isNoText : Fault → World → Bool
  | .notText, _ => true
  | _, _ => false

theorem exists_of_isNoText {x : Action (Text × Report)} {host : Host} {w : World}
    (h : Action.isStopped isNoText (x host w) = true) : ∃ u, x host w = .error .notText u := by
  obtain ⟨fault, u, hrun, h⟩ := Action.exists_of_isStopped h
  cases fault with
  | notText => exact ⟨u, hrun⟩
  | _ => cases h

/-- **What the command prompt prints may be lost.**  If it fails and prints a byte that begins no
sequence, a run does not end with its failure; and a directory with a next-line character in its
name is cut there, because that character ends a line. -/
theorem prepare_loses_output :
    (∃ u, run "/b" {} none (promptHost 1 [0xFF]) smallWorld = .error .notText u) ∧
    ∃ s v, prepare { buildDirectory := "/b", options := {} }
        (promptHost 0 (Utf8.encode "INCLUDE=i\u0085j\n")) smallWorld = .ok s v ∧
      s.calls (promptHost 0 (Utf8.encode "INCLUDE=i\u0085j\n")) ≠ [] ∧
      ∀ call ∈ s.calls (promptHost 0 (Utf8.encode "INCLUDE=i\u0085j\n")), ∃ called,
        call.environment = some called ∧ called.get? "INCLUDE" = some "o;;i" :=
  ⟨exists_of_isNoText (by decide +kernel), exists_of_findsHeaders (by decide +kernel)⟩

end Session

end BuildLint
