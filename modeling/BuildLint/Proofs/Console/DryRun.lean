import BuildLint.Console.Switches
import BuildLint.Proofs.Action.Questions
import BuildLint.Proofs.Analysis.ResultFile
import BuildLint.Proofs.Analysis.Unicode
import BuildLint.Proofs.Console.Commands
import BuildLint.Proofs.Json.RoundTrip

/-!
# Proofs/Console/DryRun — the calls that are shown are the calls that are made

Two commands look at a build: one shows the calls that an analysis makes, the other makes them.
Given the same options in the same world they prepare the same calls, so what the one shows, read
back from its JSON, is what the other makes.

* `Action.IsDry` — an action that only prepares calls and leaves no log.
* `Program.Shows`, `Program.IsUnicodeBuild` — a row shows a call; a build whose rows can be read.
* `Program.prepared`, `Program.shows_rows` — the session of a build, its rows and its calls.
* `Program.dry_run_shows_calls` — the two commands side by side.
-/

namespace BuildLint

/-! ## Dry actions -/

namespace Action

variable {α β : Type} {P : Text → Prop} {x : Action α} {f : α → Action β} {host : Host} {w : World}

/-- **A dry action** tells the user something, does no more than to prepare the calls of certain
builds, and leaves no log. -/
def IsDry (P : Text → Prop) (x : Action α) (host : Host) (w : World) : Prop :=
  ∃ es, Event.Leads host [] w es (x.after host w) ∧
    (∀ e ∈ es, e.IsTold ∨
      ∃ buildDirectory, P buildDirectory ∧ Session.IsPreparation host buildDirectory e) ∧
    ∀ log ∈ Event.allocated es, (x.after host w).disk.isThere log = false

theorem IsDry.of_after_eq {y : Action β} (hx : x.IsDry P host w)
    (h : y.after host w = x.after host w) : y.IsDry P host w := by
  rw [IsDry, h]
  exact hx

/-- What is told beforehand leaves no log. -/
theorem IsDry.bind (hx : x.DoesAt Event.IsTold host w)
    (hf : ∀ a v, x host w = .ok a v → (f a).IsDry P host v) : (x >>= f).IsDry P host w := by
  obtain ⟨es, hleads, hes, hnone⟩ := hx.leads (fun _ => Event.IsTold.keepsLogs) []
  cases hrun : x host w with
  | error fault v =>
    rw [after_of_eq_error hrun] at hleads
    rw [IsDry, after_of_eq_error (bind_of_eq_error hrun)]
    refine ⟨es, hleads, fun e he => .inl (hes e he), ?_⟩
    rw [hnone]
    exact fun _ h => absurd h List.not_mem_nil
  | ok a v =>
    rw [after_of_eq_ok hrun] at hleads
    obtain ⟨fs, hrest, hfs, hgone⟩ := hf a v hrun
    have hend : (x >>= f).after host w = (f a).after host v := by
      rw [after, bind_of_eq_ok hrun, after]
    rw [IsDry, hend]
    refine ⟨es ++ fs, hleads.append ?_, fun e he => ?_, ?_⟩
    · rw [hnone]
      exact hrest
    · exact (List.mem_append.1 he).elim (fun he => .inl (hes e he)) (hfs e)
    · rw [Event.allocated_append, hnone]
      exact hgone

end Action

namespace Program

variable {settings : SettingsReader} {directory : Text} {given given' : Given} {host : Host}
  {w v : World}

/-- **The build directory that is meant**, as the options and the disk have it. -/
def IsMeant (settings : SettingsReader) (directory : Text) (given : Given) (host : Host) (w : World)
    (buildDirectory : Text) : Prop :=
  ∃ options v, optionsFor settings given host w = .ok options v ∧
    Session.buildDirectoryFor v.disk directory options.projectRoot = .ok buildDirectory

/-- **Showing calls is dry.** -/
theorem showCommands_isDry (settings : SettingsReader) (directory : Text) (given : Given)
    (host : Host) (w : World) : (showCommands settings directory given).IsDry
      (IsMeant settings directory given host w) host w := by
  have hplanned : (plannedCalls settings directory given).IsDry
      (IsMeant settings directory given host w) host w := by
    refine .bind (optionsFor_does settings given host w) fun options v hoptions =>
      .bind (Action.does_consult _ host v) fun buildDirectory u hdirectory => ?_
    obtain ⟨es, hleads, hes, hgone⟩ := Session.use_return_run _ buildDirectory options host u
    have hmeant : IsMeant settings directory given host w buildDirectory :=
      ⟨options, v, hoptions, (Action.consult_eq_ok.1 hdirectory).1⟩
    exact ⟨es, hleads, fun e he => .inr ⟨buildDirectory, hmeant, hes e he⟩, hgone⟩
  refine hplanned.of_after_eq ?_
  rw [Action.after, Action.after, showCommands, Action.bind_apply]
  cases plannedCalls settings directory given host w with
  | error fault v => rfl
  | ok calls v => cases given.isSet "json" <;> rfl

/-! ## The calls that are planned -/

/-- **The session that is prepared** for a build, with its calls. -/
def prepared (settings : SettingsReader) (directory : Text) (given : Given) : Action Session := do
  let options ← optionsFor settings given
  let buildDirectory ←
    Action.consult (Session.buildDirectoryFor · directory options.projectRoot)
  Session.prepare { buildDirectory, options }

theorem prepared_eq_ok {options : Options} {w₁ : World} {buildDirectory : Text} {s : Session}
    (hoptions : optionsFor settings given host w = .ok options w₁)
    (hdirectory : Session.buildDirectoryFor w₁.disk directory options.projectRoot =
      .ok buildDirectory)
    (hprepare : Session.prepare { buildDirectory, options } host w₁ = .ok s v) :
    prepared settings directory given host w = .ok s v :=
  Action.bind_eq_ok.2 ⟨options, w₁, hoptions, Action.bind_eq_ok.2 ⟨buildDirectory, w₁,
    Action.consult_eq_ok.2 ⟨hdirectory, rfl⟩, hprepare⟩⟩

/-- **The calls that are planned** are those of a session that can be prepared. -/
theorem plannedCalls_eq_ok {calls : List Invocation}
    (h : plannedCalls settings directory given host w = .ok calls v) :
    ∃ options w₁ buildDirectory s v₁, optionsFor settings given host w = .ok options w₁ ∧
      Session.buildDirectoryFor w₁.disk directory options.projectRoot = .ok buildDirectory ∧
      Session.prepare { buildDirectory, options } host w₁ = .ok s v₁ ∧
      s.invocations ≠ [] ∧ calls = s.invocations ∧ v.calls = v₁.calls := by
  obtain ⟨options, w₁, hoptions, h₁⟩ := Action.bind_eq_ok.1 h
  obtain ⟨buildDirectory, w₂, hdirectory, h₂⟩ := Action.bind_eq_ok.1 h₁
  obtain ⟨hdirectory, rfl⟩ := Action.consult_eq_ok.1 hdirectory
  obtain ⟨s, v₁, hprepare, h₃⟩ := Action.bind_eq_ok.1 h₂
  obtain ⟨u, hbody, hclose⟩ := Action.andFinally_eq_ok.1 h₃
  obtain ⟨worked, u', hworked, hlook⟩ := Action.bind_eq_ok.1 hbody
  cases hlook
  obtain ⟨hworked, rfl⟩ := Action.ofExcept_eq_ok.1 hworked
  have hwork : s.invocations ≠ [] := fun hnone => by
    rw [Session.work, if_pos hnone] at hworked
    cases hworked
  have hcalls : (s.close.after host u).calls = u.calls := Session.calls_discardLogs s.logs host u
  rw [Action.after_of_eq_ok hclose] at hcalls
  exact ⟨options, w₂, buildDirectory, s, u, hoptions, hdirectory, hprepare, hwork, rfl, hcalls⟩

/-- **Where the report of an analysis is to be**, if its options can be loaded and there is a
directory for it. -/
def destination (settings : SettingsReader) (directory : Text) (given : Given) : Action Text := do
  let options ← optionsFor settings given
  let buildDirectory ←
    Action.consult (Session.buildDirectoryFor · directory options.projectRoot)
  Action.consult (Session.resultPath · buildDirectory options (given.value? "output"))

theorem destination_eq_ok {result : Text}
    (h : destination settings directory given host w = .ok result v) :
    ∃ options buildDirectory, optionsFor settings given host w = .ok options v ∧
      Session.buildDirectoryFor v.disk directory options.projectRoot = .ok buildDirectory ∧
      Session.resultPath v.disk buildDirectory options (given.value? "output") = .ok result := by
  obtain ⟨options, w₁, hoptions, h⟩ := Action.bind_eq_ok.1 h
  obtain ⟨buildDirectory, w₂, hdirectory, h⟩ := Action.bind_eq_ok.1 h
  obtain ⟨hresult, rfl⟩ := Action.consult_eq_ok.1 h
  obtain ⟨hdirectory, rfl⟩ := Action.consult_eq_ok.1 hdirectory
  exact ⟨options, buildDirectory, hoptions, hdirectory, hresult⟩

/-- **An analysis makes its calls** once they can be prepared: all of them, unless one has no
outcome. -/
theorem calls_analyze {options : Options} {w₁ : World} {buildDirectory result : Text} {s : Session}
    (hoptions : optionsFor settings given host w = .ok options w₁)
    (hdirectory : Session.buildDirectoryFor w₁.disk directory options.projectRoot =
      .ok buildDirectory)
    (hresult : Session.resultPath w₁.disk buildDirectory options (given.value? "output") =
      .ok result)
    (hprepare : Session.prepare { buildDirectory, options } host w₁ = .ok s v)
    (hwork : s.invocations ≠ []) :
    ((analyze settings directory given).after host w).calls =
      v.calls ++ (s.calls host).take (s.answers host v).made := by
  rw [← Session.calls_run hdirectory hresult hprepare hwork, Action.after, analyze,
    Action.bind_apply, hoptions]
  dsimp only
  rw [Action.bind_apply, Action.after]
  cases Session.run directory options (given.value? "output") host w₁ <;> rfl

/-! ## What is shown and what is made -/

/-- **A row shows a call**: it is the compiler of the row that is called, with the row's
arguments. -/
def Shows (row : Json) (call : Call) : Prop :=
  ∃ compiler arguments, row.field "compiler" = .ok (.string compiler) ∧
    row.field "args" = .ok (.array (arguments.map .string)) ∧
    call.arguments = compiler :: arguments

theorem shows_row (directory : Text) (env : Environment) (i : Invocation) :
    Shows (row i) (i.call directory env) := ⟨i.compiler, i.arguments, rfl, rfl, rfl⟩

theorem isSpellable_row {i : Invocation} (h : i.IsUnicode) : (row i).IsSpellable := by
  have hkeys : ([("source" : Text), "compiler", "args"]).Nodup := by decide
  have harguments : ∀ a ∈ i.arguments, a.Unpaired := fun a ha => (h.arguments a ha).unpaired
  refine .object hkeys ?_ ?_
  · simp
  · simpa [h.source.unpaired, h.compiler.unpaired] using harguments

theorem hasNoFloat_row (i : Invocation) : (row i).HasNoFloat := by
  simp [row]

/-- **What the calls of a build come from**: its options, and the index of CMake's reply. -/
def inputs (settings : SettingsReader) (directory : Text) (given : Given) :
    Action (Options × Index) := do
  let options ← optionsFor settings given
  let buildDirectory ←
    Action.consult (Session.buildDirectoryFor · directory options.projectRoot)
  let index ← Index.request buildDirectory
  return (options, index)

/-- **A build of Unicode text**: neither its options nor the replies that it is read from hold half
of a surrogate pair. -/
def IsUnicodeBuild (settings : SettingsReader) (directory : Text) (given : Given) (host : Host)
    (w : World) : Prop :=
  ∀ options index v, inputs settings directory given host w = .ok (options, index) v →
    options.IsUnicode ∧ ∀ reply, index.Reads v.disk options reply → reply.IsUnicode

/-- The calls of such a build are Unicode text. -/
theorem IsUnicodeBuild.isUnicode {options : Options} {w₁ : World} {buildDirectory : Text}
    {s : Session} (h : IsUnicodeBuild settings directory given host w)
    (hoptions : optionsFor settings given host w = .ok options w₁)
    (hdirectory : Session.buildDirectoryFor w₁.disk directory options.projectRoot =
      .ok buildDirectory)
    (hprepare : Session.prepare { buildDirectory, options } host w₁ = .ok s v) :
    ∀ i ∈ s.invocations, i.IsUnicode := by
  obtain ⟨index, w₂, hrequest, hsynthesize⟩ :=
    Action.bind_eq_ok.1 (Session.prepare_eq _ ▸ hprepare)
  have hinputs : inputs settings directory given host w = .ok (options, index) w₂ :=
    Action.bind_eq_ok.2 ⟨options, w₁, hoptions, Action.bind_eq_ok.2 ⟨buildDirectory, w₁,
      Action.consult_eq_ok.2 ⟨hdirectory, rfl⟩, Action.bind_eq_ok.2 ⟨index, w₂, hrequest, rfl⟩⟩⟩
  obtain ⟨ho, hread⟩ := h options index w₂ hinputs
  exact Session.isUnicode_of_synthesize ho hread hsynthesize

/-- **The rows of a session show the calls that it makes**, and these are as many as the rows if
each has an outcome. -/
theorem shows_rows (s : Session) (host : Host) (w : World) :
    let rows := s.invocations.map row
    let made := (s.calls host).take (s.answers host w).made
    List.Forall₂ Shows (rows.take made.length) made ∧
      ((s.answers host w).fault = none → made.length = rows.length) := by
  intro rows made
  have hall : List.Forall₂ Shows rows (s.calls host) :=
    List.forall₂_map_left_iff.2 (List.forall₂_map_right_iff.2 (List.forall₂_same.2
      fun i _ => shows_row _ _ i))
  refine ⟨?_, fun hfault => ?_⟩
  · rw [List.length_take, ← hall.length_eq, ← List.take_eq_take_min]
    exact List.forall₂_take _ hall
  · rw [Session.answers] at hfault
    rw [hall.length_eq]
    exact congrArg List.length (Host.take_made hfault)

/-- **The dry run shows what the real run executes.**  Given two command lines that differ in
nothing but whether rows are asked for and where the report is to be, the one that shows calls does
no more than to prepare them: it starts CMake and the command prompt only, writes nothing but
CMake's query for the build, and leaves none of its logs.  If it ends with zero, and the other finds
a place for its report, then a session is prepared, and what the one prints is JSON whose rows show,
one by one, the calls that the other makes besides: as many as there are rows, if each has an
outcome.  Both begin in the same world, so a call has the same log in both. -/
theorem dry_run_shows_calls (libraries : Libraries) {listing analysing : List Text} (host : Host)
    (w : World)
    (hlisting : libraries.commandLine w.disk listing = some (.commands directory given))
    (hanalysing : libraries.commandLine w.disk analysing = some (.analyze directory given'))
    (hcommon : given.without "json" = given'.without "output") :
    let shown := run libraries listing host w
    let analysed := run libraries analysing host w
    (∃ es, Event.Leads host [] w es shown.world ∧
      (∀ e ∈ es, e.IsTold ∨ ∃ buildDirectory,
        IsMeant libraries.settings directory given host w buildDirectory ∧
          Session.IsPreparation host buildDirectory e) ∧
      ∀ log ∈ Event.allocated es, shown.world.disk.isThere log = false) ∧
    (given.isSet "json" = true → shown.exitCode = 0 →
      IsUnicodeBuild libraries.settings directory given host w →
      ∀ result v, destination libraries.settings directory given' host w = .ok result v →
        ∃ s u rows calls, prepared libraries.settings directory given host w = .ok s u ∧
          Json.read shown.output = .ok (.array rows) ∧
          analysed.world.calls = shown.world.calls ++ calls ∧
          List.Forall₂ Shows (rows.take calls.length) calls ∧
          ((s.answers host u).fault = none → calls.length = rows.length)) := by
  have hworld : (run libraries listing host w).world =
      ((Command.commands directory given).perform libraries.settings).after host w :=
    world_run hlisting
  refine ⟨?_, fun hjson hzero hunicode result v hdestination => ?_⟩
  · rw [hworld]
    exact showCommands_isDry libraries.settings directory given host w
  -- what is printed is the JSON of the calls that are planned
  obtain ⟨lines, u, hperform, hprinted⟩ := exists_printed_of_exitCode hlisting hzero
  obtain ⟨calls, u', hplanned, hlines⟩ := Action.bind_eq_ok.1 hperform
  rw [hjson, if_pos rfl] at hlines
  cases hlines
  have houtput := printed_singleton hprinted
  -- an analysis has the same options, and so the same session
  obtain ⟨options, w₁, buildDirectory, s, v₁, hoptions, hdirectory, hprepare, hwork, rfl, hcalls⟩ :=
    plannedCalls_eq_ok hplanned
  have hoptions' := hoptions
  rw [optionsFor_congr _ hcommon] at hoptions'
  obtain ⟨options', buildDirectory', hagain, hdirectory', hresult⟩ :=
    destination_eq_ok hdestination
  cases hoptions'.symm.trans hagain
  cases hdirectory.symm.trans hdirectory'
  have hmade := calls_analyze hoptions' hdirectory hresult hprepare hwork
  have hshown : (run libraries listing host w).world.calls = v₁.calls := by
    rw [hworld, Action.after_of_eq_ok hperform, hcalls]
  refine ⟨s, v₁, s.invocations.map row, (s.calls host).take (s.answers host v₁).made,
    prepared_eq_ok hoptions hdirectory hprepare, ?_, ?_, shows_rows s host v₁⟩
  · have hcalls := hunicode.isUnicode hoptions hdirectory hprepare
    have hspellable : (Json.array (s.invocations.map row)).IsSpellable :=
      .array (List.forall_mem_map.2 fun i hi => isSpellable_row (hcalls i hi))
    have hfloat : (Json.array (s.invocations.map row)).HasNoFloat :=
      Json.hasNoFloat_array.2 (List.forall_mem_map.2 fun i _ => hasNoFloat_row i)
    rw [houtput]
    exact Json.read_writeIndented hspellable hfloat (Json.spaces_newLine 0)
  · rw [hshown, world_run hanalysing]
    exact hmade

/-! ### The small build, shown and made -/

/-- The command line that shows the calls of the small build. -/
def smallListing : List Text := ["commands", "--json", "--no-load-implicit-env", "/b"]

/-- The command line that makes them. -/
def smallAnalysis : List Text := ["analyze", "--no-load-implicit-env", "/b"]

/-- What the first of them gives. -/
def smallGiven : Given :=
  ⟨[("json", .bool true), ("load_implicit_compiler_env", .bool false)], ["/b"]⟩

/-- Where CMake leaves a reply for the small build. -/
def smallReplyPath (name : String) : Text := "/b/.cmake/api/v1/reply/" ++ Text.ofString name

/-- Whether the small build is read from its replies, with options that say next to nothing. -/
def readsSmallReply : Options × Index → World → Bool
  | (options, index), w =>
    options.ruleset == none && options.additionalArguments == [] && options.projectRoot == "/" &&
      options.buildConfiguration == none && options.ignoredTargetPaths == [] &&
      index.codemodel == some (smallReplyPath "c") &&
      index.toolchains == some (smallReplyPath "t") &&
      Session.smallReply.all fun p =>
        w.disk.look? (smallReplyPath p.1) == some (Session.documentFile p.2)

theorem isUnicode_of_mem_smallReply : ∀ p ∈ Session.smallReply, p.2.IsUnicode := by
  simp [Session.smallReply, Query.clientName, Query.fileName]

/-- What is read at the place of a reply of the small build is that reply. -/
theorem eq_of_read_smallReply {d : Disk} {path : Text} {reply : Json} {p : String × Json}
    (hstands : ∀ p ∈ Session.smallReply,
      d.look? (smallReplyPath p.1) = some (Session.documentFile p.2))
    (hp : p ∈ Session.smallReply) (hpath : Path.tidy path = smallReplyPath p.1)
    (h : ReplyFile.read d path = .ok reply) : reply = p.2 := by
  have hdocuments : ∀ p ∈ Session.smallReply, p.2.IsSpellable ∧ p.2.HasNoFloat := by
    simp +decide [Session.smallReply, Query.clientName, Query.fileName]
  obtain ⟨hspellable, hfloat⟩ := hdocuments p hp
  have hread := CompileUnit.read_of_look? hspellable hfloat (hpath ▸ hstands p hp)
  exact Except.ok.inj (h.symm.trans hread)

theorem isUnicodeBuild_smallBuild : IsUnicodeBuild libraries.settings "/b" smallGiven
    Session.failingHost Session.smallWorld := by
  intro options index v hinputs
  have hreads : Action.gives readsSmallReply (inputs libraries.settings "/b" smallGiven
      Session.failingHost Session.smallWorld) = true := by decide +kernel
  rw [hinputs, Action.gives] at hreads
  simp only [readsSmallReply, Bool.and_eq_true, beq_iff_eq, List.all_eq_true] at hreads
  obtain ⟨⟨⟨⟨⟨⟨⟨hruleset, harguments⟩, hroot⟩, hconfiguration⟩, hignored⟩, hmodel⟩, htoolchains⟩,
    hstands⟩ := hreads
  have hc : Session.smallReply[1] ∈ Session.smallReply := List.getElem_mem _
  have ha : Session.smallReply[2] ∈ Session.smallReply := List.getElem_mem _
  have ht : Session.smallReply[3] ∈ Session.smallReply := List.getElem_mem _
  refine ⟨⟨by simp [hruleset], by simp [harguments], by simp [hroot]⟩, fun reply hreply => ?_⟩
  cases hreply with
  | toolchains read =>
    rw [htoolchains] at read
    rw [eq_of_read_smallReply hstands ht (by decide +kernel) read]
    exact isUnicode_of_mem_smallReply _ ht
  | codemodel read =>
    rw [hmodel] at read
    rw [eq_of_read_smallReply hstands hc (by decide +kernel) read]
    exact isUnicode_of_mem_smallReply _ hc
  | target selected analysed named read =>
    rw [hmodel, hconfiguration] at selected
    rw [hmodel] at read
    rw [hignored] at analysed
    obtain ⟨document, hdocument, hselection⟩ := selected
    rw [eq_of_read_smallReply hstands hc (by decide +kernel) hdocument] at hselection
    obtain rfl := Except.ok.inj hselection
    obtain rfl := List.mem_singleton.1 analysed
    obtain rfl := Json.string.inj named
    rw [eq_of_read_smallReply hstands ha (by decide +kernel) read]
    exact isUnicode_of_mem_smallReply _ ha

theorem dry_run_shows_calls_smallBuild : ∃ rows calls,
    Json.read (run libraries smallListing Session.failingHost Session.smallWorld).output =
      .ok (.array rows) ∧
    (run libraries smallAnalysis Session.failingHost Session.smallWorld).world.calls =
      (run libraries smallListing Session.failingHost Session.smallWorld).world.calls ++ calls ∧
    List.Forall₂ Shows rows calls ∧ calls.length = 1 := by
  have hlisting : libraries.commandLine Session.smallWorld.disk smallListing =
      some (.commands "/b" smallGiven) := rfl
  have hanalysing : libraries.commandLine Session.smallWorld.disk smallAnalysis =
      some (.analyze "/b" (smallGiven.without "json")) := rfl
  have hcommon : smallGiven.without "json" = (smallGiven.without "json").without "output" := rfl
  have hzero :
      (run libraries smallListing Session.failingHost Session.smallWorld).exitCode = 0 := by
    decide +kernel
  have hpasses : ((destination libraries.settings "/b" (smallGiven.without "json")).result
      Session.failingHost Session.smallWorld).isOk = true := by decide +kernel
  obtain ⟨result, v, hdestination⟩ := Action.exists_run_of_isOk hpasses
  obtain ⟨s, u, rows, calls, hprepared, hread, hcalls, hshow, hlength⟩ :=
    (dry_run_shows_calls libraries Session.failingHost Session.smallWorld hlisting hanalysing
      hcommon).2 rfl hzero isUnicodeBuild_smallBuild result v hdestination
  have hanswered : Action.gives
      (fun (s : Session) u => (s.answers Session.failingHost u).fault.isNone)
      (prepared libraries.settings "/b" smallGiven Session.failingHost Session.smallWorld) =
        true := by decide +kernel
  rw [hprepared] at hanswered
  rw [hlength (Option.isNone_iff_eq_none.1 hanswered), List.take_length] at hshow
  have hone :
      (run libraries smallAnalysis Session.failingHost Session.smallWorld).world.calls.length =
        (run libraries smallListing Session.failingHost Session.smallWorld).world.calls.length +
          1 := by decide +kernel
  rw [hcalls, List.length_append] at hone
  exact ⟨rows, calls, hread, hcalls, hshow, Nat.add_left_cancel hone⟩

/-- Settings that want the report at the place of CMake's query. -/
def settingsText : Text :=
  "[analysis]\nresults_path = '/b/.cmake/api/v1/query/client-msvc-ca-action/query.json'\n"

/-- The world of the small build, with these settings in the project's root. -/
def settledWorld : World :=
  { Session.smallWorld with
    disk := Session.smallDisk.put [Config.fileName] (.file (Utf8.encode settingsText)) }

/-- **Showing calls may leave a file at the place of the report**, where nothing stood: if that is
the place of CMake's query. -/
theorem dry_run_writes_query :
    ((destination libraries.settings "/b" (smallGiven.without "json")).result Session.failingHost
      settledWorld).toOption = some Session.smallQuery ∧
    settledWorld.disk.look? Session.smallQuery = none ∧
    (run libraries smallListing Session.failingHost settledWorld).exitCode = 0 ∧
    (run libraries smallListing Session.failingHost settledWorld).world.disk.look?
      Session.smallQuery = some (Session.documentFile Query.document) := by
  decide +kernel

end Program

end BuildLint
