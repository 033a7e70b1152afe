import BuildLint.Proofs.Action.Outcomes
import BuildLint.Proofs.Action.Questions
import BuildLint.Proofs.Analysis.Preparation
import BuildLint.Proofs.CMake.Units
import BuildLint.Proofs.Report.FirstPerKey
import BuildLint.Proofs.Toolchain.Placement

/-!
# Proofs/Analysis/Sharing — what one compiler's sources share

A table has one entry for each compiler, worked out for the first toolchain that has it.  The entry
serves every other toolchain with that compiler as well: what is worked out depends on the place of
the compiler alone, and the place decides the rest of the layout.

* `Arguments.shared_onlyAsks`, `CompilerEnvironment.shared_run` — how the two parts of an entry are
  worked out.
* `Table.Covered` — how far a table is, after some toolchains; `extend_run` is a step of it and
  `extendAll_run` all of them.
* `Table.build_shares` — the whole table.
-/

namespace BuildLint

/-! ## Arguments -/

namespace Arguments

variable {t u : Toolchain} {options : Options}

theorem engine_congr {d e : Disk} (h : d.look? = e.look?) (t : Toolchain) :
    engine d t = engine e t := by
  rw [engine, engine, Disk.isThere, Disk.isThere, h]

theorem rulesetDirectory?_congr {d e : Disk} (h : d.look? = e.look?) (t : Toolchain) :
    rulesetDirectory? d t = rulesetDirectory? e t := by
  rw [rulesetDirectory?, rulesetDirectory?, Disk.isDirectory, Disk.isDirectory, h]

theorem findNamedRuleset_onlyAsks (ruleset projectRoot : Text) (directory : Option Text) :
    (findNamedRuleset ruleset projectRoot directory).OnlyAsks := by
  refine .disk_bind (fun d => ?_) fun d e h => ?_
  · dsimp only
    split
    · exact (Action.onlyAsks_tell _ _).bind fun _ => Action.onlyAsks_pure _
    · cases directory with
      | none => exact (Action.onlyAsks_tell _ _).bind fun _ => Action.onlyAsks_fail _
      | some directory =>
        dsimp only
        split
        · exact (Action.onlyAsks_tell _ _).bind fun _ => Action.onlyAsks_pure _
        · exact Action.onlyAsks_fail _
  · have hthere : ∀ p, d.isThere p = e.isThere p := fun p => by rw [Disk.isThere, h]; rfl
    simp only [hthere]

theorem findRuleset_onlyAsks (ruleset : Option Text) (projectRoot : Text)
    (directory : Option Text) : (findRuleset ruleset projectRoot directory).OnlyAsks := by
  rw [findRuleset.eq_def]
  split
  · exact Action.onlyAsks_pure _
  · exact Action.onlyAsks_pure _
  · exact (findNamedRuleset_onlyAsks _ _ _).bind fun _ => Action.onlyAsks_pure _

theorem tellUnused_onlyAsks (ruleset : Option Text) : (tellUnused ruleset).OnlyAsks := by
  rw [tellUnused]
  split
  · exact Action.onlyAsks_tell _ _
  · exact Action.onlyAsks_pure _

theorem tellUnused_result (ruleset : Option Text) (host : Host) (w : World) :
    (tellUnused ruleset).result host w = .ok () := by
  rw [tellUnused]
  split <;> rfl

/-- **The arguments that sources share** are found by looking. -/
theorem shared_onlyAsks (t : Toolchain) (options : Options) : (shared t options).OnlyAsks := by
  rw [shared_eq]
  refine (Action.onlyAsks_consult fun d e h => engine_congr h t).bind fun engine => ?_
  refine .disk_bind (fun d => ?_) fun d e h => ?_
  · exact (findRuleset_onlyAsks _ _ _).bind fun ruleset => (tellUnused_onlyAsks _).bind fun _ =>
      Action.onlyAsks_ofExcept _
  · simp only [rulesetDirectory?_congr h]

/-- **The compiler decides the arguments** that its sources share. -/
theorem shared_congr (ht : t.IsPlaced) (hu : u.IsPlaced) (h : t.compiler = u.compiler) :
    shared t options = shared u options := by
  obtain ⟨-, hhost, -⟩ := ht.layout_eq hu h
  have hengine : ∀ d, engine d t = engine d u := by
    intro d
    rw [engine, engine, enginePath, enginePath, h, hhost]
  have hdirectory : ∀ d, rulesetDirectory? d t = rulesetDirectory? d u := by
    intro d
    rw [rulesetDirectory?, rulesetDirectory?, rulesetDirectoryPath, rulesetDirectoryPath, h]
  simp only [shared, hengine, hdirectory]

end Arguments

/-! ## Environment -/

/-- **The command prompt answers by its arguments**: nothing else decides what comes of a call, and
whatever stands on the disk stands there afterwards. -/
structure Host.PromptAnswers (host : Host) (answer : List Text → Except Fault Outcome) : Prop where
  outcome : ∀ before t d,
    host.outcome before (CompilerEnvironment.promptCall host.promptScript t) d =
      answer (CompilerEnvironment.promptCall host.promptScript t).arguments
  disk : ∀ before t d,
    (host.left before (CompilerEnvironment.promptCall host.promptScript t) d).look? = d.look?

namespace CompilerEnvironment

variable {t u : Toolchain} {options : Options} {env : Environment} {host : Host} {w v : World}
  {answer : List Text → Except Fault Outcome}

/-- The calls of the command prompt for some toolchains, if it is asked at all. -/
def promptCalls (script : Text) (options : Options) (toolchains : List Toolchain) : List Call :=
  if options.loadCompilerEnvironment then toolchains.map (promptCall script) else []

theorem promptCalls_append (script : Text) (options : Options) (ts us : List Toolchain) :
    promptCalls script options (ts ++ us) =
      promptCalls script options ts ++ promptCalls script options us := by
  rw [promptCalls, promptCalls, promptCalls]
  split
  · exact List.map_append
  · rfl

/-- What the command prompt's answer makes of an environment. -/
def ofAnswer (env : Environment) (outcome : Outcome) : Except Fault Environment :=
  if outcome.ok then .ok (extended env (ofOutput outcome.output))
  else .error (.failure (.synthesis .promptFailed))

/-- **Asking the command prompt**, step by step. -/
theorem shared_apply (hload : options.loadCompilerEnvironment = true) (t : Toolchain)
    (env : Environment) (host : Host) (w : World) :
    shared t options env host w =
      Action.ofExcept
        (host.outcome w.calls (promptCall host.promptScript t) w.disk >>= ofAnswer env) host
        { disk := host.left w.calls (promptCall host.promptScript t) w.disk
          logs := w.logs
          calls := w.calls ++ [promptCall host.promptScript t]
          messages :=
            w.messages ++ [⟨.info, "Extracting environment from VS Command Prompt"⟩] } := by
  rw [shared, if_pos hload]
  simp only [prompt, Action.bind_apply, Action.tell_apply, Action.read_apply, Action.launch_apply]
  cases host.outcome w.calls (promptCall host.promptScript t) w.disk with
  | error fault => rfl
  | ok outcome =>
    have hanswer : (Except.ok outcome >>= ofAnswer env) = ofAnswer env outcome := rfl
    rw [hanswer, ofAnswer]
    simp only [Action.ofExcept_ok_apply]
    cases outcome.ok <;> rfl

/-- **The environment that sources share** does not depend on when it is worked out, and working it
out leaves standing what stands. -/
theorem shared_run (h : host.PromptAnswers answer) (t : Toolchain) (options : Options)
    (env : Environment) (w : World) :
    (∀ v, (shared t options env).result host w = (shared t options env).result host v) ∧
      ((shared t options env).after host w).disk.look? = w.disk.look? ∧
      ((shared t options env).after host w).calls =
        w.calls ++ promptCalls host.promptScript options [t] := by
  cases hload : options.loadCompilerEnvironment with
  | false =>
    have hnone : promptCalls host.promptScript options [t] = [] := by
      rw [promptCalls, hload]
      rfl
    have hpure : shared t options env = pure (inherited env) := by
      rw [shared, hload]
      rfl
    rw [hnone, hpure, List.append_nil]
    exact ⟨fun _ => rfl, rfl, rfl⟩
  | true =>
    have hone : promptCalls host.promptScript options [t] = [promptCall host.promptScript t] := by
      rw [promptCalls, if_pos hload]
      rfl
    have hend : ∀ w, (shared t options env).result host w =
          (answer (promptCall host.promptScript t).arguments >>= ofAnswer env) ∧
        ((shared t options env).after host w).disk =
          host.left w.calls (promptCall host.promptScript t) w.disk ∧
        ((shared t options env).after host w).calls =
          w.calls ++ [promptCall host.promptScript t] := by
      intro w
      have hrun := shared_apply hload t env host w
      rw [h.outcome] at hrun
      rw [Action.result, Action.after, hrun]
      cases answer (promptCall host.promptScript t).arguments >>= ofAnswer env <;>
        exact ⟨rfl, rfl, rfl⟩
    obtain ⟨hresult, hdisk, hcalls⟩ := hend w
    refine ⟨fun v => hresult.trans (hend v).1.symm, ?_, hone ▸ hcalls⟩
    rw [hdisk, h.disk]

/-- **The compiler decides the environment** that its sources share. -/
theorem shared_congr (ht : t.IsPlaced) (hu : u.IsPlaced) (h : t.compiler = u.compiler)
    (options : Options) (env : Environment) : shared t options env = shared u options env := by
  obtain ⟨htoolset, hhost, htarget⟩ := ht.layout_eq hu h
  have hcall : ∀ script, promptCall script t = promptCall script u := by
    intro script
    rw [promptCall, promptCall, promptPath, promptPath, architectures, architectures, h, htoolset,
      hhost, htarget]
  simp only [shared, prompt, hcall]

end CompilerEnvironment

/-! ## Entries -/

section

variable (options : Options) (env : Environment) (host : Host) (w : World)

/-- **An entry is what a toolchain needs**: the arguments and the environment that are worked out
for that toolchain in a world. -/
structure Shared.IsFor (t : Toolchain) (s : Shared) : Prop where
  compiler : s.compiler = t.compiler
  arguments : (Arguments.shared t options).result host w = .ok s.arguments
  environment : (CompilerEnvironment.shared t options env).result host w = .ok s.environment

/-- **How far a table is** after some toolchains: it has an entry for the first toolchain of every
compiler, and the command prompt has been asked for each of these. -/
structure Table.Covered (done : List Toolchain) (known : List Shared) (v : World) : Prop where
  shared : List.Forall₂ (Shared.IsFor options env host w)
    (firstPerKey Toolchain.compiler done) known
  look : v.disk.look? = w.disk.look?
  calls : v.calls = w.calls ++ CompilerEnvironment.promptCalls host.promptScript options
    (firstPerKey Toolchain.compiler done)

/-- **The command prompt has been asked at most once** for each compiler of some toolchains, in
their order. -/
def Table.AskedAtMost (ts : List Toolchain) (v : World) : Prop :=
  ∃ asked, asked <+: CompilerEnvironment.promptCalls host.promptScript options
      (firstPerKey Toolchain.compiler ts) ∧ v.calls = w.calls ++ asked

end

variable {options : Options} {env : Environment} {host : Host} {w v : World}
  {answer : List Text → Except Fault Outcome} {t u : Toolchain} {s : Shared}

theorem Shared.exists_isFor_iff : (∃ s, Shared.IsFor options env host w t s) ↔
    (∃ arguments, (Arguments.shared t options).result host w = .ok arguments) ∧
      ∃ environment,
        (CompilerEnvironment.shared t options env).result host w = .ok environment := by
  constructor
  · rintro ⟨s, h⟩
    exact ⟨⟨_, h.arguments⟩, _, h.environment⟩
  · rintro ⟨⟨arguments, harguments⟩, environment, henvironment⟩
    exact ⟨⟨t.compiler, arguments, environment⟩, rfl, harguments, henvironment⟩

/-- **One entry for all toolchains of a compiler.** -/
theorem Shared.IsFor.of_compiler (h : Shared.IsFor options env host w u s) (ht : t.IsPlaced)
    (hu : u.IsPlaced) (hcompiler : t.compiler = u.compiler) :
    Shared.IsFor options env host w t s where
  compiler := h.compiler.trans hcompiler.symm
  arguments := by
    rw [Arguments.shared_congr ht hu hcompiler]
    exact h.arguments
  environment := by
    rw [CompilerEnvironment.shared_congr ht hu hcompiler]
    exact h.environment

namespace Table

variable {done ts : List Toolchain} {known : List Shared} {c : Text}

theorem find?_eq_none_of_forall₂ (h : List.Forall₂ (Shared.IsFor options env host w) ts known)
    (hc : c ∉ ts.map Toolchain.compiler) : find? c known = none := by
  induction h with
  | nil => rfl
  | cons hs _ ih =>
    rw [List.map_cons, List.mem_cons, not_or] at hc
    rw [find?, hs.compiler, if_neg (Ne.symm hc.1)]
    exact ih hc.2

theorem exists_find?_of_forall₂ (h : List.Forall₂ (Shared.IsFor options env host w) ts known)
    (hc : c ∈ ts.map Toolchain.compiler) :
    ∃ t ∈ ts, ∃ s, t.compiler = c ∧ find? c known = some s ∧
      Shared.IsFor options env host w t s := by
  induction h with
  | nil => exact absurd hc List.not_mem_nil
  | @cons t s ts known hs _ ih =>
    by_cases hfirst : t.compiler = c
    · refine ⟨t, List.mem_cons_self, s, hfirst, ?_, hs⟩
      rw [find?, hs.compiler, if_pos hfirst]
    · rw [List.map_cons, List.mem_cons] at hc
      obtain ⟨u, hu, r, hcompiler, hfind, hr⟩ := ih (hc.resolve_left (Ne.symm hfirst))
      refine ⟨u, List.mem_cons_of_mem _ hu, r, hcompiler, ?_, hr⟩
      rw [find?, hs.compiler, if_neg hfirst]
      exact hfind

theorem covered_nil (options : Options) (env : Environment) (host : Host) (w : World) :
    Covered options env host w [] [] w where
  shared := .nil
  look := rfl
  calls := by
    rw [firstPerKey_nil, CompilerEnvironment.promptCalls, List.map_nil, ite_self, List.append_nil]

/-- A toolchain whose compiler is known adds nothing. -/
theorem Covered.concat_known (h : Covered options env host w done known v)
    (hknown : t.compiler ∈ done.map Toolchain.compiler) :
    Covered options env host w (done ++ [t]) known v := by
  have hfirsts : firstPerKey Toolchain.compiler (done ++ [t]) =
      firstPerKey Toolchain.compiler done := by
    rw [firstPerKey_concat, if_pos hknown, List.append_nil]
  exact ⟨hfirsts ▸ h.shared, h.look, hfirsts ▸ h.calls⟩

/-- Any other toolchain adds its entry. -/
theorem Covered.concat_new {v' : World} (h : Covered options env host w done known v)
    (hnew : t.compiler ∉ done.map Toolchain.compiler) (hs : Shared.IsFor options env host w t s)
    (hlook : v'.disk.look? = v.disk.look?)
    (hcalls : v'.calls = w.calls ++ CompilerEnvironment.promptCalls host.promptScript options
      (firstPerKey Toolchain.compiler (done ++ [t]))) :
    Covered options env host w (done ++ [t]) (known ++ [s]) v' := by
  have hfirsts : firstPerKey Toolchain.compiler (done ++ [t]) =
      firstPerKey Toolchain.compiler done ++ [t] := by
    rw [firstPerKey_concat, if_neg hnew]
  refine ⟨?_, hlook.trans h.look, hcalls⟩
  rw [hfirsts]
  exact List.rel_append h.shared (.cons hs .nil)

theorem Covered.askedAtMost (h : Covered options env host w done known v) :
    AskedAtMost options host w done v :=
  ⟨_, List.prefix_rfl, h.calls⟩

theorem AskedAtMost.append (h : AskedAtMost options host w done v) (ts : List Toolchain) :
    AskedAtMost options host w (done ++ ts) v := by
  obtain ⟨asked, hasked, hcalls⟩ := h
  refine ⟨asked, hasked.trans ?_, hcalls⟩
  rw [firstPerKey_append, CompilerEnvironment.promptCalls_append]
  exact List.prefix_append _ _

/-- **One more toolchain**: the table covers it afterwards, unless nothing can be worked out for
it. -/
theorem extend_run (hprompt : host.PromptAnswers answer) (t : Toolchain)
    (h : Covered options env host w done known v) :
    (∃ known' v', extend options env known t host v = .ok known' v' ∧
        Covered options env host w (done ++ [t]) known' v') ∨
      (¬∃ s, Shared.IsFor options env host w t s) ∧
        ∃ fault v', extend options env known t host v = .error fault v' ∧
          AskedAtMost options host w (done ++ [t]) v' := by
  rw [extend]
  by_cases hknown : t.compiler ∈ done.map Toolchain.compiler
  · obtain ⟨-, -, s, -, hfind, -⟩ := exists_find?_of_forall₂ h.shared
      ((mem_map_firstPerKey Toolchain.compiler done t.compiler).2 hknown)
    rw [hfind]
    exact .inl ⟨known, v, rfl, h.concat_known hknown⟩
  have hnone := find?_eq_none_of_forall₂ h.shared
    (mt (mem_map_firstPerKey Toolchain.compiler done t.compiler).1 hknown)
  rw [hnone]
  simp only [Action.bind_apply]
  have harguments := (Arguments.shared_onlyAsks t options).result host v w h.look
  obtain ⟨said, hsaid⟩ := (Arguments.shared_onlyAsks t options).after host v
  cases hrun : Arguments.shared t options host v with
  | error fault v₁ =>
    rw [(Action.run_eq_error_iff.1 hrun).1] at harguments
    rw [Action.after_of_eq_error hrun] at hsaid
    refine .inr ⟨?_, fault, v₁, rfl, ?_⟩
    · rintro ⟨s, hs⟩
      cases harguments.trans hs.arguments
    · rw [hsaid]
      exact h.askedAtMost.append [t]
  | ok arguments v₁ =>
    rw [(Action.run_eq_ok_iff.1 hrun).1] at harguments
    rw [Action.after_of_eq_ok hrun] at hsaid
    obtain ⟨hresult, hlook, hcalls⟩ :=
      CompilerEnvironment.shared_run hprompt t options env v₁
    have henvironment := hresult w
    have hall : v₁.calls ++ CompilerEnvironment.promptCalls host.promptScript options [t] =
        w.calls ++ CompilerEnvironment.promptCalls host.promptScript options
          (firstPerKey Toolchain.compiler (done ++ [t])) := by
      rw [firstPerKey_concat, if_neg hknown, CompilerEnvironment.promptCalls_append,
        ← List.append_assoc, ← h.calls, hsaid]
    dsimp only
    cases hrun' : CompilerEnvironment.shared t options env host v₁ with
    | error fault v₂ =>
      rw [(Action.run_eq_error_iff.1 hrun').1] at henvironment
      rw [Action.after_of_eq_error hrun', hall] at hcalls
      refine .inr ⟨?_, fault, v₂, rfl, _, List.prefix_rfl, hcalls⟩
      rintro ⟨s, hs⟩
      cases henvironment.trans hs.environment
    | ok environment v₂ =>
      rw [(Action.run_eq_ok_iff.1 hrun').1] at henvironment
      rw [Action.after_of_eq_ok hrun'] at hlook hcalls
      have hs : Shared.IsFor options env host w t ⟨t.compiler, arguments, environment⟩ :=
        ⟨rfl, harguments.symm, henvironment.symm⟩
      exact .inl ⟨_, v₂, rfl, h.concat_new hknown hs (by rw [hlook, hsaid]) (hcalls.trans hall)⟩

/-- **All toolchains**, one after the other. -/
theorem extendAll_run (hprompt : host.PromptAnswers answer) (toolchains : Toolchains)
    (h : Covered options env host w done known v) :
    (∃ shared v', extendAll options env known toolchains host v = .ok shared v' ∧
        Covered options env host w (done ++ toolchains.map (·.2)) shared v') ∨
      (∃ entry ∈ toolchains, ¬∃ s, Shared.IsFor options env host w entry.2 s) ∧
        ∃ fault v', extendAll options env known toolchains host v = .error fault v' ∧
          AskedAtMost options host w (done ++ toolchains.map (·.2)) v' := by
  induction toolchains generalizing done known v with
  | nil => exact .inl ⟨known, v, rfl, by rwa [List.map_nil, List.append_nil]⟩
  | cons entry rest ih =>
    have hassoc : done ++ (entry :: rest).map (·.2) = done ++ [entry.2] ++ rest.map (·.2) := by
      rw [List.append_assoc]
      rfl
    rw [extendAll, Action.bind_apply, hassoc]
    rcases extend_run hprompt entry.2 h with
      ⟨known', v', hrun, hcovered⟩ | ⟨hnone, fault, v', hrun, hasked⟩
    · rw [hrun]
      exact (ih hcovered).imp_right fun ⟨⟨e, he, hnone⟩, hrest⟩ =>
        ⟨⟨e, List.mem_cons_of_mem _ he, hnone⟩, hrest⟩
    · rw [hrun]
      exact .inr ⟨⟨entry, List.mem_cons_self, hnone⟩, fault, v', rfl, hasked.append _⟩

/-- **A table for each compiler serves all toolchains.**  It can be built exactly if the arguments
and the environment can be worked out for each toolchain of a build.  Its entry for a compiler then
has what would be worked out for any of the toolchains with that compiler, whichever was the first.
The command prompt is asked once for each compiler if it is to be asked; it is never asked twice for
one compiler, nor at all if it is not to be asked, also if the table cannot be built. -/
theorem build_shares {d : Disk} {path : Option Text} {toolchains : Toolchains}
    (hload : Toolchains.load d path = .ok toolchains) (hprompt : host.PromptAnswers answer)
    (options : Options) (env : Environment) (w : World) :
    ((∃ table v, build toolchains options env host w = .ok table v) ↔
      ∀ entry ∈ toolchains,
        (∃ arguments, (Arguments.shared entry.2 options).result host w = .ok arguments) ∧
        ∃ environment,
          (CompilerEnvironment.shared entry.2 options env).result host w = .ok environment) ∧
    (∀ table v, build toolchains options env host w = .ok table v →
      table.toolchains = toolchains ∧
      (∀ entry ∈ toolchains, ∃ s, find? entry.2.compiler table.shared = some s ∧
        (Arguments.shared entry.2 options).result host w = .ok s.arguments ∧
        (CompilerEnvironment.shared entry.2 options env).result host w = .ok s.environment) ∧
      v.calls = w.calls ++ CompilerEnvironment.promptCalls host.promptScript options
        (firstPerKey Toolchain.compiler (toolchains.map (·.2)))) ∧
    AskedAtMost options host w (toolchains.map (·.2))
      ((build toolchains options env).after host w) := by
  have hplaced : ∀ entry ∈ toolchains, entry.2.IsPlaced := fun entry hentry =>
    Toolchains.isPlaced_of_load hload hentry
  have hrun := extendAll_run hprompt toolchains (covered_nil options env host w)
  rw [List.nil_append] at hrun
  rcases hrun with ⟨shared, v, hrun, hcovered⟩ | ⟨⟨e, he, hnone⟩, fault, v, hrun, hasked⟩
  · have hbuild : build toolchains options env host w = .ok ⟨toolchains, shared⟩ v := by
      rw [build, Action.bind_apply, hrun]
      rfl
    -- The entry was worked out for the first toolchain with the compiler; the place of the compiler
    -- makes that one as good as any other.
    have hfind : ∀ entry ∈ toolchains, ∃ s, find? entry.2.compiler shared = some s ∧
        Shared.IsFor options env host w entry.2 s := by
      intro entry hentry
      have hmem := (mem_map_firstPerKey Toolchain.compiler (toolchains.map (·.2)) _).2
        (List.mem_map_of_mem (List.mem_map_of_mem hentry))
      obtain ⟨t, ht, s, hcompiler, hfind, hs⟩ := exists_find?_of_forall₂ hcovered.shared hmem
      obtain ⟨first, hfirst, rfl⟩ := List.mem_map.1 ((firstPerKey_sublist _ _).subset ht)
      exact ⟨s, hfind, hs.of_compiler (hplaced entry hentry) (hplaced first hfirst) hcompiler.symm⟩
    refine ⟨⟨fun _ entry hentry => ?_, fun _ => ⟨_, v, hbuild⟩⟩, fun table v' h => ?_, ?_⟩
    · obtain ⟨s, -, hs⟩ := hfind entry hentry
      exact Shared.exists_isFor_iff.1 ⟨s, hs⟩
    · cases hbuild.symm.trans h
      refine ⟨rfl, fun entry hentry => ?_, hcovered.calls⟩
      obtain ⟨s, hs, hfor⟩ := hfind entry hentry
      exact ⟨s, hs, hfor.arguments, hfor.environment⟩
    · rw [Action.after_of_eq_ok hbuild]
      exact hcovered.askedAtMost
  · have hbuild : build toolchains options env host w = .error fault v := by
      rw [build, Action.bind_apply, hrun]
    refine ⟨⟨?_, fun hall => ?_⟩, fun table v' h => ?_, ?_⟩
    · rintro ⟨table, v', h⟩
      cases hbuild.symm.trans h
    · exact absurd (Shared.exists_isFor_iff.2 (hall e he)) hnone
    · cases hbuild.symm.trans h
    · rw [Action.after_of_eq_error hbuild]
      exact hasked

/-! ### One compiler for two languages -/

/-- A compiler's entry for a language. -/
def compilerEntry (language : Text) : Json := .object [("language", .string language),
  ("compiler", .object [("id", .string "MSVC"), ("path", .string "/m/T/bin/Hostx64/x64/cl.exe")])]

def bothDocument : Json :=
  .object [("toolchains", .array [compilerEntry "C", compilerEntry "CXX"])]

/-- A disk with the document of one compiler for two languages, and the engine beside it. -/
def bothDisk : Disk := ⟨[], [(["t"], .file (Utf8.encode bothDocument.write)),
  (["m"], .directory), (["m", "T"], .directory), (["m", "T", "bin"], .directory),
  (["m", "T", "bin", "Hostx64"], .directory), (["m", "T", "bin", "Hostx64", "x64"], .directory),
  (["m", "T", "bin", "Hostx64", "x64", "EspXEngine.dll"], .file [])]⟩

/-- The compiler as the toolchain for a language. -/
def compilerFor (language : Text) : Toolchain :=
  ⟨.string language, "/m/T/bin/Hostx64/x64/cl.exe", .string [], "T", "x64", "x64", []⟩

theorem ofReply_compilerEntry (language : Text) :
    Toolchain.ofReply (compilerEntry language) = .ok (compilerFor language) := by
  have hlayout : Layout.ofPath "/m/T/bin/Hostx64/x64/cl.exe" = .ok ⟨"T", "x64", "x64"⟩ := by
    decide +kernel
  rw [Toolchain.ofReply]
  refine Steps.bind_eq_ok.2 ⟨_, rfl, Steps.bind_eq_ok.2 ⟨_, rfl, ?_⟩⟩
  rw [if_neg (by decide)]
  refine Steps.bind_eq_ok.2 ⟨_, rfl, ?_⟩
  rw [hlayout]
  rfl

theorem load_bothDisk : Toolchains.load bothDisk ("/t" : Text) =
    .ok [("C", compilerFor "C"), ("CXX", compilerFor "CXX")] := by
  have hread : ReplyFile.read bothDisk "/t" = .ok bothDocument :=
    CompileUnit.read_of_look? (by simp +decide [bothDocument, compilerEntry])
      (by simp [bothDocument, compilerEntry]) rfl
  have hlanguages : Toolchain.languages.mapM (Toolchains.forLanguage bothDocument) =
      .ok [[("C", compilerFor "C")], [("CXX", compilerFor "CXX")]] := by
    refine Steps.mapM_eq_ok.2 (.cons ?_ (.cons ?_ .nil))
    · exact Steps.bind_eq_ok.2 ⟨_, rfl, Steps.bind_eq_ok.2 ⟨_, rfl,
        Steps.bind_eq_ok.2 ⟨_, ofReply_compilerEntry "C", rfl⟩⟩⟩
    · exact Steps.bind_eq_ok.2 ⟨_, rfl, Steps.bind_eq_ok.2 ⟨_, rfl,
        Steps.bind_eq_ok.2 ⟨_, ofReply_compilerEntry "CXX", rfl⟩⟩⟩
  rw [Toolchains.load, if_neg (by decide)]
  exact Steps.bind_eq_ok.2 ⟨_, hread, Steps.bind_eq_ok.2 ⟨_, hlanguages, rfl⟩⟩

/-- A host whose command prompt knows two directories. -/
def promptingHost : Host where
  environment := []
  promptScript := "vc"
  executable _ := none
  respond _ _ d := (.ended 0 (Utf8.encode "INCLUDE=i\nLIB=l") [], d)
  decode := Utf8.decode
  logLimit := none

theorem promptAnswers_promptingHost :
    promptingHost.PromptAnswers fun _ => .ok ⟨0, "INCLUDE=i\nLIB=l", []⟩ where
  outcome _ _ _ := Host.outcomeOf_encode rfl 0 (Text.isUnicode_ofString _)
  disk _ _ _ := rfl

/-- The environment that this host's command prompt makes of an empty one. -/
theorem environment_promptingHost (t : Toolchain) (w : World) :
    (CompilerEnvironment.shared t {} []).result promptingHost w =
      .ok [("CAEmitSarifLog", "1"), ("CAExcludePath", "i"), ("INCLUDE", "i"), ("LIB", "l")] := by
  rw [Action.result, CompilerEnvironment.shared_apply rfl, promptAnswers_promptingHost.outcome]
  rfl

theorem build_shares_bothLanguages :
    ∃ table v, build [("C", compilerFor "C"), ("CXX", compilerFor "CXX")] {} [] promptingHost
        ⟨bothDisk, [], [], []⟩ = .ok table v ∧
      v.calls = [CompilerEnvironment.promptCall "vc" (compilerFor "C")] ∧
      ∃ s, find? (compilerFor "CXX").compiler table.shared = some s ∧
        s.environment = ([("CAEmitSarifLog", "1"), ("CAExcludePath", "i"), ("INCLUDE", "i"),
          ("LIB", "l")] : Environment) := by
  obtain ⟨hbuilds, hbuilt, -⟩ :=
    build_shares load_bothDisk promptAnswers_promptingHost {} [] ⟨bothDisk, [], [], []⟩
  obtain ⟨table, v, h⟩ := hbuilds.2 fun entry hentry => by
    rcases List.mem_cons.1 hentry with rfl | hentry
    · exact ⟨⟨_, rfl⟩, _, environment_promptingHost _ _⟩
    · obtain rfl := List.mem_singleton.1 hentry
      exact ⟨⟨_, rfl⟩, _, environment_promptingHost _ _⟩
  obtain ⟨-, hshared, hcalls⟩ := hbuilt table v h
  obtain ⟨s, hs, -, henvironment⟩ := hshared _ (List.mem_cons_of_mem _ List.mem_cons_self)
  exact ⟨table, v, h, hcalls, s, hs,
    (Except.ok.inj ((environment_promptingHost _ _).symm.trans henvironment)).symm⟩

end Table

end BuildLint
