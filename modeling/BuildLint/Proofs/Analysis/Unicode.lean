import BuildLint.Proofs.Analysis.Preparation
import BuildLint.Proofs.CMake.Exclusion
import BuildLint.Proofs.Json.Unicode
import BuildLint.Proofs.Toolchain.Placement

/-!
# Proofs/Analysis/Unicode — the calls of a Unicode build are Unicode text

The texts of a call come from the replies that a build is read from and from the options.  If
neither holds half of a surrogate pair, no call does.

* `Index.Reads` — the replies that a build is read from.
* `CompileUnit.isUnicode_of_load`, `Toolchains.isUnicode_of_load` — what is read from them.
* `Arguments.isUnicode_of_shared` — what all sources of a compiler share.
* `Session.isUnicode_of_synthesize` — the calls.
-/

namespace BuildLint

open Text

/-! ## Replies -/

/-- **The replies that a build is read from**: the toolchains, the code model, and the reply of
every target that is analysed. -/
inductive Index.Reads (index : Index) (d : Disk) (options : Options) : Json → Prop
  | toolchains {document : Json}
      (read : ReplyFile.read d (index.toolchains.getD []) = .ok document) :
      Reads index d options document
  | codemodel {document : Json}
      (read : ReplyFile.read d (index.codemodel.getD []) = .ok document) :
      Reads index d options document
  | target {s : CompileUnit.Selection} {t : CompileUnit.TargetEntry} {file : Text} {reply : Json}
      (selected : CompileUnit.IsSelected d index.codemodel options.buildConfiguration s)
      (analysed : t ∈ s.analysed options.ignoredTargetPaths) (named : t.file = .string file)
      (read : ReplyFile.read d (Path.below (CompileUnit.replyDirectory index.codemodel) file) =
        .ok reply) : Reads index d options reply

/-! ## Units -/

namespace CompileUnit

/-- **A unit of Unicode text**, as far as its texts reach a call. -/
structure IsUnicode (u : CompileUnit) : Prop where
  source : u.source.IsUnicode
  flags : u.flags.IsUnicode
  includes : ∀ i ∈ u.includes, i.path.IsUnicode
  defines : ∀ d ∈ u.defines, d.IsUnicode

variable {group root path sources target index document entry : Json} {source : Text}
  {u : CompileUnit} {units : List CompileUnit} {d : Disk} {options : Options}

theorem isUnicode_of_listed {v : Json} {key : Text} {items : List Json} (hv : v.IsUnicode)
    (h : listed v key = .ok items) : ∀ w ∈ items, w.IsUnicode := by
  obtain ⟨w, hw, h⟩ := Steps.bind_eq_ok.1 h
  exact ((hv.lookup hw).orElse .empty_array).iterate h

theorem isUnicode_of_includeOf {i : IncludePath} (hentry : entry.IsUnicode)
    (h : includeOf entry = .ok i) : i.path.IsUnicode := by
  obtain ⟨path, hpath, h⟩ := Steps.bind_eq_ok.1 h
  obtain ⟨isSystem, -, h⟩ := Steps.bind_eq_ok.1 h
  obtain rfl := Except.ok.inj h
  exact hentry.field hpath

/-- **The unit of one source.** -/
theorem isUnicode_of_ofGroup (hgroup : group.IsUnicode) (hsource : source.IsUnicode)
    (h : ofGroup group source = .ok u) : u.IsUnicode := by
  obtain ⟨standard, -, h⟩ := Steps.bind_eq_ok.1 h
  obtain ⟨language, -, h⟩ := Steps.bind_eq_ok.1 h
  obtain ⟨version, -, h⟩ := Steps.bind_eq_ok.1 h
  obtain ⟨parts, hparts, h⟩ := Steps.bind_eq_ok.1 h
  obtain ⟨fragments, hfragments, h⟩ := Steps.bind_eq_ok.1 h
  obtain ⟨flags, hflags, h⟩ := Steps.bind_eq_ok.1 h
  obtain ⟨entries, hentries, h⟩ := Steps.bind_eq_ok.1 h
  obtain ⟨includes, hincludes, h⟩ := Steps.bind_eq_ok.1 h
  obtain ⟨items, hitems, h⟩ := Steps.bind_eq_ok.1 h
  obtain ⟨defines, hdefines, h⟩ := Steps.bind_eq_ok.1 h
  obtain rfl := Except.ok.inj h
  have hfragment := Steps.forall_mem_of_mapM hfragments fun v hv _ =>
    (isUnicode_of_listed hgroup hparts v hv).field
  exact {
    source := hsource
    flags := .joinWith (isUnicode_ofString _) (Json.IsUnicode.texts hfragment hflags)
    includes := Steps.forall_mem_of_mapM hincludes fun v hv _ =>
      isUnicode_of_includeOf (isUnicode_of_listed hgroup hentries v hv)
    defines := Steps.forall_mem_of_mapM hdefines fun v hv _ =>
      (isUnicode_of_listed hgroup hitems v hv).field }

theorem isUnicode_of_sourcePath {p : Text} (hroot : root.IsUnicode) (hpath : path.IsUnicode)
    (h : sourcePath root path = .ok p) : p.IsUnicode := by
  obtain ⟨base, hbase, h⟩ := Steps.bind_eq_ok.1 h
  obtain ⟨name, hname, h⟩ := Steps.bind_eq_ok.1 h
  obtain rfl := Except.ok.inj h
  exact Path.isUnicode_join (hroot.text hbase) (hpath.text hname)

theorem isUnicode_of_ofIndex (hroot : root.IsUnicode) (hsources : sources.IsUnicode)
    (hgroup : group.IsUnicode) (h : ofIndex root sources group index = .ok u) : u.IsUnicode := by
  obtain ⟨item, hitem, h⟩ := Steps.bind_eq_ok.1 h
  obtain ⟨path, hpath, h⟩ := Steps.bind_eq_ok.1 h
  obtain ⟨p, hp, h⟩ := Steps.bind_eq_ok.1 h
  have hpath := (hsources.element hitem).field hpath
  exact isUnicode_of_ofGroup hgroup
    (Path.isUnicode_normalize (isUnicode_of_sourcePath hroot hpath hp)) h

theorem isUnicode_of_ofIndexes (hroot : root.IsUnicode) (hsources : sources.IsUnicode)
    (hgroup : group.IsUnicode) (h : ofIndexes root sources group = .ok units) :
    ∀ u ∈ units, u.IsUnicode := by
  obtain ⟨o, -, h⟩ := Steps.bind_eq_ok.1 h
  obtain ⟨indexes, -, h⟩ := Steps.bind_eq_ok.1 h
  exact Steps.forall_mem_of_mapM h fun index _ u => isUnicode_of_ofIndex hroot hsources hgroup

theorem isUnicode_of_ofTarget (hroot : root.IsUnicode) (htarget : target.IsUnicode)
    (h : ofTarget root target = .ok units) : ∀ u ∈ units, u.IsUnicode := by
  obtain ⟨o, ho, h⟩ := Steps.bind_eq_ok.1 h
  obtain ⟨groups, hgroups, h⟩ := Steps.bind_eq_ok.1 h
  obtain ⟨parts, hparts, h⟩ := Steps.bind_eq_ok.1 h
  obtain rfl := Except.ok.inj h
  have hsources := Json.IsUnicode.getD (htarget.lookup? ho) .empty_array
  intro u hu
  obtain ⟨part, hpart, hu⟩ := List.mem_flatten.1 hu
  have hall := Steps.forall_mem_of_mapM hparts fun group hgroup _ =>
    isUnicode_of_ofIndexes hroot hsources (isUnicode_of_listed htarget hgroups group hgroup)
  exact hall part hpart u hu

theorem isUnicode_of_selection {configuration : Option Text} {s : Selection}
    (hdocument : document.IsUnicode) (h : selection document configuration = .ok s) :
    s.root.IsUnicode := by
  obtain ⟨root, hroot, h⟩ := Steps.bind_eq_ok.1 (Steps.ok_of_mapError.1 h)
  obtain ⟨configurations, -, h⟩ := Steps.bind_eq_ok.1 h
  obtain ⟨selected, -, h⟩ := Steps.bind_eq_ok.1 h
  obtain ⟨directories, -, h⟩ := Steps.bind_eq_ok.1 h
  obtain ⟨targets, -, h⟩ := Steps.bind_eq_ok.1 h
  obtain rfl := Except.ok.inj h
  obtain ⟨paths, hpaths, hsource⟩ := Steps.bind_eq_ok.1 (Steps.ok_of_mapError.1 hroot)
  exact (hdocument.field hpaths).field hsource

/-- **The units of a build** whose replies are Unicode text. -/
theorem isUnicode_of_load {index : Index} (hread : ∀ v, index.Reads d options v → v.IsUnicode)
    (h : load d index.codemodel options.buildConfiguration options.ignoredTargetPaths =
      .ok units) : ∀ u ∈ units, u.IsUnicode := by
  obtain ⟨s, items, parts, hs, hitems, hparts, rfl⟩ := load_eq_ok_iff.1 h
  have hroot : s.root.IsUnicode := by
    obtain ⟨document, hdocument, hselection⟩ := hs
    exact isUnicode_of_selection (hread document (.codemodel hdocument)) hselection
  intro u hu
  obtain ⟨part, hpart, hu⟩ := List.mem_flatten.1 hu
  obtain ⟨v, hv, hentry⟩ := Steps.exists_of_mem_mapM hparts hpart
  obtain ⟨t, ht, hunits⟩ := ofEntry_eq_ok_iff.1 hentry
  split at hunits
  · subst hunits
    exact absurd hu List.not_mem_nil
  · rename_i hcovered
    have hanalysed := Selection.mem_analysed hitems hv ht (Bool.eq_false_iff.2 hcovered)
    obtain ⟨file, reply, hfile, hreply, hunits⟩ := hunits
    exact isUnicode_of_ofTarget hroot (hread reply (.target hs hanalysed hfile hreply)) hunits u hu

end CompileUnit

/-! ## Toolchains -/

/-- **A toolchain of Unicode text**, as far as its texts reach a call. -/
structure Toolchain.IsUnicode (t : Toolchain) : Prop where
  compiler : t.compiler.IsUnicode
  host : t.host.IsUnicode
  includes : ∀ i ∈ t.implicitIncludes, i.path.IsUnicode

theorem Layout.isUnicode_of_hostOf? {directory host : Text} (h : hostOf? directory = some host) :
    host.IsUnicode := by
  rw [hostOf?] at h
  split_ifs at h <;> exact Option.some.inj h ▸ isUnicode_ofString _

theorem Layout.isUnicode_of_ofPath {p : Text} {layout : Layout} (h : ofPath p = .ok layout) :
    layout.host.IsUnicode := by
  rw [ofPath.eq_def] at h
  split at h
  · split at h
    · obtain rfl := Except.ok.inj h
      exact isUnicode_of_hostOf? ‹_›
    · cases h
  · cases h

namespace Toolchain

variable {t : Toolchain} {entry compiler : Json}

theorem isUnicode_of_ofParts {path : Text} {layout : Layout} (hcompiler : compiler.IsUnicode)
    (hpath : path.IsUnicode) (hhost : layout.host.IsUnicode)
    (h : ofParts entry compiler path layout = .ok t) : t.IsUnicode := by
  obtain ⟨implicit, himplicit, h⟩ := Steps.bind_eq_ok.1 h
  obtain ⟨directories, hdirectories, h⟩ := Steps.bind_eq_ok.1 h
  obtain ⟨language, -, h⟩ := Steps.bind_eq_ok.1 h
  obtain ⟨version, -, h⟩ := Steps.bind_eq_ok.1 h
  obtain ⟨includes, hincludes, h⟩ := Steps.bind_eq_ok.1 h
  obtain rfl := Except.ok.inj h
  have hlist := ((hcompiler.lookup himplicit).orElse .empty_object).lookup hdirectories
  refine ⟨hpath, hhost, fun i hi => ?_⟩
  obtain ⟨directory, hdirectory, rfl⟩ := List.mem_map.1 hi
  exact (hlist.orElse .empty_array).iterate hincludes directory hdirectory

/-- **The toolchain of an entry.** -/
theorem isUnicode_of_ofReply (hentry : entry.IsUnicode) (h : ofReply entry = .ok t) :
    t.IsUnicode := by
  obtain ⟨compiler, path, layout, hcompiler, hpath, hlayout, h⟩ := parts_of_ofReply h
  obtain ⟨v, hv, hor⟩ := Steps.bind_eq_ok.1 hcompiler
  obtain rfl := Except.ok.inj hor
  have hcompiler := (hentry.lookup hv).orElse .empty_object
  exact isUnicode_of_ofParts hcompiler (Json.isUnicode_string.1 (hcompiler.lookup hpath))
    (Layout.isUnicode_of_ofPath hlayout) h

end Toolchain

/-- **The toolchains of a build** whose replies are Unicode text. -/
theorem Toolchains.isUnicode_of_load {index : Index} {d : Disk} {options : Options}
    {toolchains : Toolchains} (hread : ∀ v, index.Reads d options v → v.IsUnicode)
    (h : load d index.toolchains = .ok toolchains) : ∀ t ∈ toolchains, t.2.IsUnicode := by
  intro t ht
  obtain ⟨document, hdocument, h⟩ := exists_document_of_load h
  obtain ⟨entries, hentries, entry, hentry, ht⟩ := exists_entry_of_ofReply h ht
  obtain ⟨o, ho, hentries⟩ := Steps.bind_eq_ok.1 hentries
  have hall := (hread document (.toolchains hdocument)).lookup? ho
  exact Toolchain.isUnicode_of_ofReply
    ((Json.IsUnicode.getD hall .empty_array).iterate hentries entry hentry) ht

/-! ## What the sources of a compiler share -/

/-- **Options of Unicode text**, as far as their texts reach a call. -/
structure Options.IsUnicode (options : Options) : Prop where
  ruleset : ∀ name ∈ options.ruleset, name.IsUnicode
  additionalArguments : options.additionalArguments.IsUnicode
  projectRoot : options.projectRoot.IsUnicode

namespace Arguments

variable {t : Toolchain} {options : Options} {host : Host} {w v : World}

theorem isUnicode_enginePath (ht : t.IsUnicode) : (enginePath t).IsUnicode :=
  Path.isUnicode_join (Path.isUnicode_join (Path.isUnicode_levelsUp ht.compiler 2) ht.host)
    (isUnicode_ofString _)

theorem isUnicode_of_rulesetDirectory? {d : Disk} (ht : t.IsUnicode) :
    ∀ directory ∈ rulesetDirectory? d t, directory.IsUnicode := by
  intro directory h
  rw [rulesetDirectory?, Option.mem_ite_none_right] at h
  obtain rfl := Option.some.inj h.2
  exact Path.isUnicode_join (Path.isUnicode_levelsUp ht.compiler 8) (isUnicode_ofString _)

theorem isUnicode_of_findNamedRuleset {name root path : Text} {directory : Option Text}
    (hname : name.IsUnicode) (hroot : root.IsUnicode) (hdirectory : ∀ d ∈ directory, d.IsUnicode)
    (h : findNamedRuleset name root directory host w = .ok path v) : path.IsUnicode := by
  obtain ⟨d, w₁, -, h⟩ := Action.bind_eq_ok.1 h
  split at h
  · obtain ⟨_, w₂, -, h⟩ := Action.bind_eq_ok.1 h
    cases h
    exact Path.isUnicode_resolve hroot hname
  · cases directory with
    | none =>
      obtain ⟨_, w₂, -, h⟩ := Action.bind_eq_ok.1 h
      cases h
    | some directory =>
      dsimp only at h
      split at h
      · obtain ⟨_, w₂, -, h⟩ := Action.bind_eq_ok.1 h
        cases h
        exact Path.isUnicode_join (hdirectory directory rfl) hname
      · cases h

theorem isUnicode_of_findRuleset {ruleset directory path : Option Text} {root : Text}
    (hruleset : ∀ name ∈ ruleset, name.IsUnicode) (hroot : root.IsUnicode)
    (hdirectory : ∀ d ∈ directory, d.IsUnicode)
    (h : findRuleset ruleset root directory host w = .ok path v) : ∀ p ∈ path, p.IsUnicode := by
  rw [findRuleset.eq_def] at h
  split at h
  · cases h
    rintro _ ⟨⟩
  · cases h
    rintro _ ⟨⟩
  · obtain ⟨p, w₁, hp, h⟩ := Action.bind_eq_ok.1 h
    cases h
    rintro _ ⟨⟩
    exact isUnicode_of_findNamedRuleset (hruleset _ rfl) hroot hdirectory hp

theorem isUnicode_of_mem_ofRuleset {ruleset directory : Option Text}
    (hruleset : ∀ p ∈ ruleset, p.IsUnicode) (hdirectory : ∀ d ∈ directory, d.IsUnicode) :
    ∀ a ∈ ofRuleset ruleset directory, a.IsUnicode := by
  cases ruleset with
  | none => exact fun _ h => absurd h List.not_mem_nil
  | some path =>
    refine List.forall_mem_cons.2 ⟨by simp [hruleset path rfl], fun a ha => ?_⟩
    obtain ⟨d, hd, rfl⟩ := List.mem_map.1 ha
    simp [hdirectory d (Option.mem_toList.1 hd)]

/-- What the shared arguments are made of. -/
theorem shared_eq_ok {arguments : List Text} (h : shared t options host w = .ok arguments v) :
    ∃ d ruleset additional w₁ v₁,
      findRuleset options.ruleset options.projectRoot (rulesetDirectory? d t) host w₁ =
        .ok ruleset v₁ ∧
      Tokens.split? options.additionalArguments = some additional ∧
      arguments = base ++ ["/analyze:plugin" ++ enginePath t] ++
        ofRuleset ruleset (rulesetDirectory? d t) ++
        ofSystemHeaders options.ignoreSystemHeaders ++ additional := by
  rw [shared_eq] at h
  obtain ⟨path, w₁, hengine, h⟩ := Action.bind_eq_ok.1 h
  obtain ⟨d, w₂, -, h⟩ := Action.bind_eq_ok.1 h
  obtain ⟨ruleset, w₃, hruleset, h⟩ := Action.bind_eq_ok.1 h
  obtain ⟨_, w₄, -, h⟩ := Action.bind_eq_ok.1 h
  obtain ⟨hengine, -⟩ := Action.consult_eq_ok.1 hengine
  obtain ⟨hassembled, -⟩ := Action.ofExcept_eq_ok.1 h
  rw [engine] at hengine
  rw [assembled] at hassembled
  split at hengine <;> split at hassembled <;> cases hengine <;> cases hassembled
  exact ⟨d, ruleset, _, w₂, w₃, hruleset, ‹_›, rfl⟩

theorem isUnicode_of_mem_ofSystemHeaders (ignored : Bool) :
    ∀ a ∈ ofSystemHeaders ignored, a.IsUnicode := by
  cases ignored <;> simp [ofSystemHeaders]

/-- **The arguments shared by all sources of a compiler.** -/
theorem isUnicode_of_shared {arguments : List Text} (ht : t.IsUnicode) (ho : options.IsUnicode)
    (h : shared t options host w = .ok arguments v) : ∀ a ∈ arguments, a.IsUnicode := by
  obtain ⟨d, ruleset, additional, w₁, v₁, hruleset, hsplit, rfl⟩ := shared_eq_ok h
  have hdirectory := isUnicode_of_rulesetDirectory? (d := d) ht
  have hfound := isUnicode_of_findRuleset ho.ruleset ho.projectRoot hdirectory hruleset
  have hadditional := Tokens.isUnicode_of_mem_split hsplit ho.additionalArguments
  have hbase : ∀ a ∈ base, a.IsUnicode := by simp [base]
  have hengine : Text.IsUnicode ("/analyze:plugin" ++ enginePath t) := by
    simp [isUnicode_enginePath ht]
  simp only [List.forall_mem_append, List.forall_mem_singleton]
  exact ⟨⟨⟨⟨hbase, hengine⟩, isUnicode_of_mem_ofRuleset hfound hdirectory⟩,
    isUnicode_of_mem_ofSystemHeaders _⟩, hadditional⟩

theorem isUnicode_ofInclude (options : Options) {i : IncludePath} (hi : i.path.IsUnicode) :
    (ofInclude options i).IsUnicode := by
  rw [ofInclude]
  split <;> simp [hi.plain]

/-- **The arguments of a source.** -/
theorem isUnicode_of_ofUnit {u : CompileUnit} {arguments : List Text} (hu : u.IsUnicode)
    (ht : t.IsUnicode) (h : ofUnit u t options = .ok arguments) : ∀ a ∈ arguments, a.IsUnicode := by
  rw [ofUnit] at h
  split at h
  · cases h
  · obtain rfl := Except.ok.inj h
    have hflags := Tokens.isUnicode_of_mem_split ‹_› hu.flags
    have hincludes : ∀ a ∈ (u.includes ++ t.implicitIncludes).map (ofInclude options),
        a.IsUnicode := by
      intro a ha
      obtain ⟨i, hi, rfl⟩ := List.mem_map.1 ha
      exact isUnicode_ofInclude options
        ((List.mem_append.1 hi).elim (hu.includes i) (ht.includes i))
    have hdefines : ∀ a ∈ u.defines.map (fun d => Text.ofString "/D" ++ d.plain),
        a.IsUnicode := by
      intro a ha
      obtain ⟨d, hd, rfl⟩ := List.mem_map.1 ha
      simp [(hu.defines d hd).plain]
    simp only [List.forall_mem_append, List.forall_mem_singleton]
    exact ⟨⟨⟨hflags, hincludes⟩, hdefines⟩, hu.source⟩

end Arguments

/-! ## Calls -/

namespace Table

variable {options : Options} {env : Environment} {host : Host} {w v : World}

/-- **What is shared** is worked out for one of the toolchains. -/
theorem exists_shared_of_extendAll {known shared : List Shared} {toolchains : Toolchains}
    (h : extendAll options env known toolchains host w = .ok shared v) :
    ∀ s ∈ shared, s ∈ known ∨ ∃ t ∈ toolchains, ∃ w₁ v₁,
      Arguments.shared t.2 options host w₁ = .ok s.arguments v₁ := by
  induction toolchains generalizing known w with
  | nil =>
    cases h
    exact fun s hs => .inl hs
  | cons entry rest ih =>
    obtain ⟨known', v', hfirst, hrest⟩ := Action.bind_eq_ok.1 h
    intro s hs
    rcases ih hrest s hs with hknown' | ⟨t, ht, hshared⟩
    · rcases extend_eq_ok hfirst with ⟨-, rfl⟩ | ⟨arguments, environment, v₁, harguments, rfl⟩
      · exact .inl hknown'
      · rcases List.mem_append.1 hknown' with hknown | hnew
        · exact .inl hknown
        · obtain rfl := List.mem_singleton.1 hnew
          exact .inr ⟨entry, List.mem_cons_self, _, _, harguments⟩
    · exact .inr ⟨t, List.mem_cons_of_mem entry ht, hshared⟩

/-- **The table of Unicode toolchains** shares Unicode text. -/
theorem isUnicode_of_build {toolchains : Toolchains} {table : Table}
    (ht : ∀ t ∈ toolchains, t.2.IsUnicode) (ho : options.IsUnicode)
    (h : build toolchains options env host w = .ok table v) :
    table.toolchains = toolchains ∧ ∀ s ∈ table.shared, ∀ a ∈ s.arguments, a.IsUnicode := by
  obtain ⟨shared, v₁, hshared, h⟩ := Action.bind_eq_ok.1 h
  cases h
  refine ⟨rfl, fun s hs => ?_⟩
  obtain ⟨t, hmem, w₁, v₁, harguments⟩ :=
    (exists_shared_of_extendAll hshared s hs).resolve_left List.not_mem_nil
  exact Arguments.isUnicode_of_shared (ht t hmem) ho harguments

end Table

namespace Invocation

/-- **A call of Unicode text.** -/
structure IsUnicode (i : Invocation) : Prop where
  source : i.source.IsUnicode
  compiler : i.compiler.IsUnicode
  arguments : ∀ a ∈ i.arguments, a.IsUnicode

variable {table : Table} {options : Options} {host : Host} {w v : World} {u : CompileUnit}
  {t : Toolchain} {i : Invocation} {units : List CompileUnit} {before calls : List Invocation}

/-- **The call for a unit** and its toolchain. -/
theorem isUnicode_of_ofUnit (hu : u.IsUnicode) (ht : t.IsUnicode)
    (hshared : ∀ s ∈ table.shared, ∀ a ∈ s.arguments, a.IsUnicode)
    (h : ofUnit table options u t host w = .ok i v) : i.IsUnicode := by
  obtain ⟨arguments, w₁, harguments, h⟩ := Action.bind_eq_ok.1 h
  obtain ⟨log, w₂, hlog, h⟩ := Action.bind_eq_ok.1 h
  obtain ⟨shared, w₃, hfound, h⟩ := Action.bind_eq_ok.1 h
  cases h
  have hown := Arguments.isUnicode_of_ofUnit hu ht (Action.ofExcept_eq_ok.1 harguments).1
  have hplace : Text.IsUnicode ("/analyze:log" ++ log) := by
    rcases Action.allocateLog_cases host w₁ with ⟨fault, hrun⟩ | ⟨path, w', hrun, ⟨n, rfl⟩, -⟩
    · cases hrun.symm.trans hlog
    · cases hrun.symm.trans hlog
      simp [Action.logPath, Decimal.isUnicode_ofNat]
  have hcommon : ∀ a ∈ shared.arguments, a.IsUnicode := by
    have hfound := Steps.ok_of_mapError.1 (Action.ofExcept_eq_ok.1 hfound).1
    rw [sharedOf] at hfound
    split at hfound
    · obtain rfl := Except.ok.inj hfound
      exact hshared _ (Table.mem_of_find? ‹_›).1
    · cases hfound
  refine ⟨hu.source, ht.compiler, ?_⟩
  simp only [List.forall_mem_append, List.forall_mem_singleton]
  exact ⟨⟨hown, hplace⟩, hcommon⟩

/-- **The calls for Unicode units** and toolchains. -/
theorem isUnicode_of_extend (hunits : ∀ u ∈ units, u.IsUnicode)
    (ht : ∀ t ∈ table.toolchains, t.2.IsUnicode)
    (hshared : ∀ s ∈ table.shared, ∀ a ∈ s.arguments, a.IsUnicode)
    (hbefore : ∀ i ∈ before, i.IsUnicode)
    (h : extend table options before units host w = .ok calls v) : ∀ i ∈ calls, i.IsUnicode := by
  induction units generalizing before w with
  | nil =>
    cases h
    exact hbefore
  | cons u rest ih =>
    obtain ⟨hu, hrest⟩ := List.forall_mem_cons.1 hunits
    rw [extend_cons_apply] at h
    split at h
    · exact ih hrest hbefore h
    · rename_i t w₁ hchoose
      split at h
      · rename_i i w₂ hunit
        have hchosen := (Action.ofExcept_eq_ok.1 (Action.orElseUndo_eq_ok.1 hchoose)).1
        obtain ⟨language, hget⟩ := toolchainFor?_eq_ok_some hchosen
        have hi := isUnicode_of_ofUnit hu (ht (language, t) (Keyed.mem_of_get? hget)) hshared
          (Action.orElseUndo_eq_ok.1 hunit)
        exact ih hrest (List.forall_mem_append.2 ⟨hbefore, List.forall_mem_singleton.2 hi⟩) h
      · cases h
    · cases h

end Invocation

/-- **The calls of a session** whose replies and options are Unicode text. -/
theorem Session.isUnicode_of_synthesize {s s' : Session} {index : Index} {host : Host}
    {w v : World} (ho : s.options.IsUnicode)
    (hread : ∀ v, index.Reads w.disk s.options v → v.IsUnicode)
    (h : synthesize s index host w = .ok s' v) : ∀ i ∈ s'.invocations, i.IsUnicode := by
  obtain ⟨toolchains, w₁, hload, h₁⟩ := Action.bind_eq_ok.1 h
  obtain ⟨host', w₂, hhost, h₂⟩ := Action.bind_eq_ok.1 h₁
  obtain ⟨invocations, w₃, hbuild, h₃⟩ := Action.bind_eq_ok.1 h₂
  cases hhost
  cases h₃
  obtain ⟨units, w₄, hunits, hbuild⟩ := Action.bind_eq_ok.1 hbuild
  obtain ⟨table, w₅, htable, hcalls⟩ := Action.bind_eq_ok.1 hbuild
  obtain ⟨htoolchains, rfl⟩ := Action.consult_eq_ok.1 hload
  have ht := Toolchains.isUnicode_of_load hread htoolchains
  obtain ⟨hsame, hshared⟩ := Table.isUnicode_of_build ht ho htable
  have hu := CompileUnit.isUnicode_of_load hread (Action.consult_eq_ok.1 hunits).1
  exact Invocation.isUnicode_of_extend hu (hsame ▸ ht) hshared
    (fun _ h => absurd h List.not_mem_nil) hcalls

end BuildLint
