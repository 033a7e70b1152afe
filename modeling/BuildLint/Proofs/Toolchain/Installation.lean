import BuildLint.Analysis.CompilerEnvironment
import BuildLint.Proofs.Action.Events
import BuildLint.Proofs.Path.Levels
import BuildLint.Proofs.Toolchain.Separators

/-!
# Proofs/Toolchain/Installation — what is found around a compiler

The place of a compiler is read in two ways.  Its layout comes off the end of the path, name by
name; its engine, the command prompt's setup and the official rulesets are looked for some levels
above it.  Both read the names of the path's normal form, so they agree, however the path is
spelled and wherever the installation lies.

* `Layout.components_eq`, `Layout.ofPath_eq_ok_iff` — which paths have which layout.
* `Installation` — a compiler's place in an installation, and what belongs to it.
* `Installation.enginePath_eq`, `promptPath_eq`, `rulesetDirectoryPath_eq` — each is looked for
  where the installation has it.
* `Layout.lookups_agree` — the two ways to read a compiler's place agree.
-/

namespace BuildLint

namespace Layout

variable {path : Text} {layout : Layout}

/-- The host architectures that a directory can be named for. -/
def hosts : List Text := ["x86", "x64"]

/-- The directory that is named for a host architecture. -/
def hostDirectory (host : Text) : Text := "Host" ++ host

theorem hostOf?_eq_some {directory host : Text} :
    hostOf? directory = some host ↔ host ∈ hosts ∧ directory = hostDirectory host := by
  constructor
  · intro h
    rw [hostOf?] at h
    split at h
    · obtain rfl := Option.some.inj h
      exact ⟨by decide, ‹_›⟩
    · split at h
      · obtain rfl := Option.some.inj h
        exact ⟨by decide, ‹_›⟩
      · cases h
  · rintro ⟨hhost, rfl⟩
    have hall : ∀ host ∈ hosts, hostOf? (hostDirectory host) = some host := by decide
    exact hall host hhost

/-- **The names of a path without backslashes** are those of its normal form. -/
theorem components_eq (h : ('\\' : CodePoint) ∉ path) :
    components path = (Path.normalNames path).reverse := by
  have hspelling : Path.Spelling.ofPath path = .slashes := by
    refine if_neg fun hholds => ?_
    obtain ⟨c, hc, hback⟩ := List.any_eq_true.1 hholds
    exact h (of_decide_eq_true hback ▸ hc)
  rw [components, hspelling]
  exact Path.namesFromEnd_normalize path

/-- **Which paths have which layout.** -/
theorem ofPath_eq_ok_iff : ofPath path = .ok layout ↔ layout.host ∈ hosts ∧
    ∃ compiler bin rest, components path =
      compiler :: layout.target :: hostDirectory layout.host :: bin :: layout.toolset :: rest := by
  rw [ofPath]
  constructor
  · intro h
    split at h
    · rename_i compiler target directory bin toolset rest hnames
      split at h
      · rename_i host hhost
        obtain rfl := Except.ok.inj h
        obtain ⟨hmem, rfl⟩ := hostOf?_eq_some.1 hhost
        exact ⟨hmem, compiler, bin, rest, hnames⟩
      · cases h
    · cases h
  · rintro ⟨hmem, compiler, bin, rest, hnames⟩
    simp only [hnames, hostOf?_eq_some.2 ⟨hmem, rfl⟩]

/-- **A path has a layout** if it has five names and the third from the end is the directory of a
host. -/
theorem exists_ofPath_eq_ok_iff : (∃ layout, ofPath path = .ok layout) ↔
    toolsetLevels < (components path).length ∧
      ∃ host ∈ hosts, (components path)[2]? = some (hostDirectory host) := by
  constructor
  · rintro ⟨layout, hlayout⟩
    obtain ⟨hmem, compiler, bin, rest, hnames⟩ := ofPath_eq_ok_iff.1 hlayout
    rw [hnames]
    exact ⟨Nat.le_add_left _ rest.length, layout.host, hmem, rfl⟩
  · rintro ⟨hlong, host, hmem, hhost⟩
    obtain ⟨compiler, target, directory, bin, toolset, rest, hnames⟩ :=
      exists_of_toolsetLevels_lt hlong
    rw [hnames] at hhost
    obtain rfl := Option.some.inj hhost
    exact ⟨⟨toolset, host, target⟩, ofPath_eq_ok_iff.2 ⟨hmem, compiler, bin, rest, hnames⟩⟩

/-- **The names of a layout** are the last names some levels up. -/
theorem lastName_levelsUp (h : ('\\' : CodePoint) ∉ path) (hlayout : ofPath path = .ok layout) :
    Path.lastName (Path.levelsUp 1 path) = layout.target ∧
      Path.lastName (Path.levelsUp 2 path) = hostDirectory layout.host ∧
      Path.lastName (Path.levelsUp toolsetLevels path) = layout.toolset := by
  obtain ⟨-, compiler, bin, rest, hnames⟩ := ofPath_eq_ok_iff.1 hlayout
  have hnames : Path.normalNames path = rest.reverse ++
      [layout.toolset, bin, hostDirectory layout.host, layout.target, compiler] := by
    rw [← List.reverse_inj, ← components_eq h, hnames, List.reverse_append, List.reverse_reverse]
    rfl
  have htarget : Path.normalNames path =
      (rest.reverse ++ [layout.toolset, bin, hostDirectory layout.host]) ++
        layout.target :: [compiler] := by rw [hnames, List.append_assoc]; rfl
  have hhost : Path.normalNames path =
      (rest.reverse ++ [layout.toolset, bin]) ++
        hostDirectory layout.host :: [layout.target, compiler] := by
    rw [hnames, List.append_assoc]; rfl
  have htarget := Path.lastName_levelsUp htarget
  have hhost := Path.lastName_levelsUp hhost
  have htoolset := Path.lastName_levelsUp hnames
  exact ⟨htarget, hhost, htoolset⟩

end Layout

/-! ## The installation around a compiler -/

/-- **A compiler's place in an installation**: the directory of the installation, and the names
that are not the same in all of them. -/
structure Installation where
  root : Text
  toolset : Text
  host : Text
  target : Text
  compiler : Text
  isHost : host ∈ Layout.hosts
  isWhole : Path.AreWhole [toolset, target, compiler]

namespace Installation

variable (i : Installation) {p : Text}

/-- A path below the directory of the installation. -/
def below (names : List Text) : Text := i.root ++ "/" ++ Text.joinWith "/" names

/-- The names down to the directory of the compilers that run on the host architecture. -/
def hostNames : List Text :=
  ["VC", "Tools", "MSVC", i.toolset, "bin", Layout.hostDirectory i.host]

/-- The compiler. -/
def compilerPath : Text := i.below (i.hostNames ++ [i.target, i.compiler])

/-- What the place of the compiler says. -/
def layout : Layout := ⟨i.toolset, i.host, i.target⟩

/-- The engine of the analysis, with the compilers for the host architecture. -/
def enginePath : Text := i.below (i.hostNames ++ [i.host, "EspXEngine.dll"])

/-- The setup of the command prompt. -/
def promptPath : Text := i.below ["VC", "Auxiliary", "Build", "vcvarsall.bat"]

/-- The architectures as the command prompt wants them. -/
def architectures : Text := if i.target = i.host then i.host else i.host ++ "_" ++ i.target

/-- The directory of the official rulesets. -/
def rulesetPath : Text := i.below ["Team Tools", "Static Analysis Tools", "Rule Sets"]

theorem areWhole_names : Path.AreWhole (i.hostNames ++ [i.target, i.compiler]) := by
  obtain ⟨htoolset, hrest⟩ := List.forall_mem_cons.1 i.isWhole
  have hdirectory : ∀ host ∈ Layout.hosts, Layout.hostDirectory host ≠ [] ∧
      ('/' : CodePoint) ∉ Layout.hostDirectory host := by decide
  have hfixed : ∀ name ∈ (["VC", "Tools", "MSVC", "bin"] : List Text),
      name ≠ [] ∧ ('/' : CodePoint) ∉ name := by decide
  simp only [List.forall_mem_cons, ← Path.isWhole_iff] at hfixed
  obtain ⟨hvc, htools, hmsvc, hbin, hnil⟩ := hfixed
  refine List.forall_mem_append.2 ⟨?_, hrest⟩
  simp only [hostNames, List.forall_mem_cons]
  exact ⟨hvc, htools, hmsvc, htoolset, hbin, Path.isWhole_iff.2 (hdirectory _ i.isHost), hnil⟩

/-- **The layout of a compiler** is that of its place in the installation. -/
theorem ofPath_eq (hp : Path.normalize p = i.compilerPath) (h : ('\\' : CodePoint) ∉ p) :
    Layout.ofPath p = .ok i.layout := by
  obtain ⟨front, hnames, -⟩ := Path.spell_below (List.cons_ne_nil _ _) i.areWhole_names hp
  have hcomponents : Layout.components p =
      (i.hostNames ++ [i.target, i.compiler]).reverse ++ front.reverse := by
    rw [Layout.components_eq h, hnames]
    exact List.reverse_append
  exact Layout.ofPath_eq_ok_iff.2 ⟨i.isHost, i.compiler, "bin", _, hcomponents⟩

/-- **The engine** is looked for where the installation has it. -/
theorem enginePath_eq {t : Toolchain} (ht : Path.normalize t.compiler = i.compilerPath)
    (hhost : t.host = i.host) : Arguments.enginePath t = i.enginePath := by
  obtain ⟨above, habove, hup, hdown⟩ :=
    Path.exists_levelsUp_below (List.cons_ne_nil _ _) i.areWhole_names ht
  have hhosts : ∀ host ∈ Layout.hosts, Path.isAbsolute host = false ∧
      host ≠ [] ∧ ('/' : CodePoint) ∉ host := by decide
  obtain ⟨hrelative, hwhole⟩ := hhosts _ i.isHost
  have hhostPath : Path.AreWhole (above ++ [i.host]) :=
    List.forall_mem_append.2 ⟨habove, List.forall_mem_singleton.2 (Path.isWhole_iff.2 hwhole)⟩
  calc Path.join (Path.join (Path.levelsUp 2 t.compiler) t.host) "EspXEngine.dll"
    _ = Path.join (Path.Form.spell ⟨_, above ++ [i.host]⟩) "EspXEngine.dll" := by
      rw [hhost, ← Path.join_spell habove hrelative, ← hup]
      rfl
    _ = Path.Form.spell ⟨_, above ++ [i.host] ++ [("EspXEngine.dll" : Text)]⟩ :=
      Path.join_spell hhostPath (by decide)
    _ = i.enginePath := by
      rw [List.append_assoc]
      exact hdown _ (List.cons_ne_nil _ _)

/-- **What is looked for some levels above a compiler**, where only names that lead to the compiler
are left out. -/
theorem join_levelsUp {before after : List Text} (hp : Path.normalize p = i.compilerPath)
    (hcut : i.hostNames ++ [i.target, i.compiler] = before ++ after) (hafter : after ≠ [])
    {q : Text} (hq : Path.isAbsolute q = false) :
    Path.join (Path.levelsUp after.length p) q = i.below (before ++ [q]) := by
  obtain ⟨above, habove, hup, hdown⟩ := Path.exists_levelsUp_below hafter
    (hcut ▸ i.areWhole_names) (hp.trans (congrArg i.below hcut))
  rw [hup, Path.join_spell habove hq]
  exact hdown _ (List.cons_ne_nil _ _)

/-- **The setup of the command prompt** is looked for where the installation has it. -/
theorem promptPath_eq {t : Toolchain} (ht : Path.normalize t.compiler = i.compilerPath) :
    CompilerEnvironment.promptPath t = i.promptPath :=
  have hcut : i.hostNames ++ [i.target, i.compiler] = [("VC" : Text)] ++ [("Tools" : Text), "MSVC",
    i.toolset, "bin", Layout.hostDirectory i.host, i.target, i.compiler] := rfl
  i.join_levelsUp ht hcut (List.cons_ne_nil _ _) (by decide)

/-- **The official rulesets** are looked for where the installation has them. -/
theorem rulesetDirectoryPath_eq {t : Toolchain} (ht : Path.normalize t.compiler = i.compilerPath) :
    Arguments.rulesetDirectoryPath t = i.rulesetPath :=
  i.join_levelsUp ht (List.nil_append _).symm (List.cons_ne_nil _ _) (by decide)

end Installation

/-- **The command prompt** is started once, whatever comes of it. -/
theorem CompilerEnvironment.calls_prompt (t : Toolchain) (host : Host) (w : World) :
    ((prompt t).after host w).calls = w.calls ++ [promptCall host.promptScript t] := by
  rw [Action.after]
  simp only [prompt, Action.bind_apply, Action.tell_apply, Action.read_apply, Action.launch_apply]
  cases host.outcome w.calls (promptCall host.promptScript t) w.disk with
  | error fault => rfl
  | ok outcome =>
    simp only [Action.ofExcept_ok_apply]
    cases outcome.ok <;> rfl

/-- **The two ways to read a compiler's place agree.**  A path without backslashes has a layout if
it has five names and the third from the end is a host's directory; it is too short if it has fewer
names; and the names of its layout are the last names one, two and four levels up.  However the
path of a compiler in an installation is spelled, its layout is that of its place, and the engine,
the setup of the command prompt and the official rulesets are looked for where the installation has
them. -/
theorem Layout.lookups_agree (p : Text) :
    (('\\' : CodePoint) ∉ p →
      ((∃ layout, ofPath p = .ok layout) ↔ 5 ≤ (Path.normalNames p).length ∧
        ∃ host ∈ hosts, (Path.normalNames p).reverse[2]? = some (hostDirectory host)) ∧
      (ofPath p = .error .pathTooShort ↔ (Path.normalNames p).length < 5) ∧
      ∀ layout, ofPath p = .ok layout →
        Path.lastName (Path.levelsUp 1 p) = layout.target ∧
        Path.lastName (Path.levelsUp 2 p) = hostDirectory layout.host ∧
        Path.lastName (Path.levelsUp 4 p) = layout.toolset) ∧
    ∀ i : Installation, Path.normalize p = i.compilerPath →
      (('\\' : CodePoint) ∉ p → ofPath p = .ok i.layout) ∧
      ∀ t : Toolchain, t.compiler = p → Layout.mk t.toolset t.host t.target = i.layout →
        (∀ d, Arguments.engine d t = if d.isThere i.enginePath then .ok i.enginePath
          else .error (.failure (.synthesis (.noEngine i.enginePath)))) ∧
        (∀ host w, ((CompilerEnvironment.prompt t).after host w).calls = w.calls ++
          [⟨[host.promptScript, i.promptPath, i.architectures, i.toolset], none, none⟩]) ∧
        ∀ d, Arguments.rulesetDirectory? d t =
          if d.isDirectory i.rulesetPath then some i.rulesetPath else none := by
  refine ⟨fun h => ⟨?_, ?_, fun layout hlayout => lastName_levelsUp h hlayout⟩, ?_⟩
  · rw [exists_ofPath_eq_ok_iff, components_eq h, List.length_reverse]
    rfl
  · rw [ofPath_eq_pathTooShort_iff, components_eq h, List.length_reverse]
    exact Nat.lt_succ_iff.symm
  · intro i hp
    refine ⟨i.ofPath_eq hp, ?_⟩
    rintro t rfl hlayout
    obtain ⟨htoolset, hhost, htarget⟩ := Layout.mk.inj hlayout
    refine ⟨fun d => ?_, fun host w => ?_, fun d => ?_⟩
    · rw [Arguments.engine, i.enginePath_eq hp hhost]
    · have harchitectures : CompilerEnvironment.architectures t = i.architectures := by
        rw [CompilerEnvironment.architectures, Installation.architectures, hhost, htarget]
        simp only [eq_comm]
      rw [CompilerEnvironment.calls_prompt, CompilerEnvironment.promptCall, i.promptPath_eq hp,
        harchitectures, htoolset]
    · rw [Arguments.rulesetDirectory?, i.rulesetDirectoryPath_eq hp]

/-- A compiler for another architecture than its own. -/
def crossCompiler : Installation where
  root := "C:/VS"
  toolset := "14.30"
  host := "x64"
  target := "x86"
  compiler := "cl.exe"
  isHost := by decide
  isWhole := by
    simp only [Path.AreWhole, Path.isWhole_iff]
    decide

/-- The toolchain of that compiler, whose path is not spelled normally. -/
def crossToolchain : Toolchain where
  language := .string "CXX"
  compiler := "C:/VS/VC/./Tools/MSVC/14.30/bin/../bin/Hostx64//x86/cl.exe"
  version := .string "19.30"
  toolset := "14.30"
  host := "x64"
  target := "x86"
  implicitIncludes := []

theorem Layout.lookups_agree_crossCompiler :
    ofPath crossToolchain.compiler = .ok ⟨"14.30", "x64", "x86"⟩ ∧
      ∀ host w, ((CompilerEnvironment.prompt crossToolchain).after host w).calls = w.calls ++
        [⟨[host.promptScript, "C:/VS/VC/Auxiliary/Build/vcvarsall.bat", "x64_x86", "14.30"],
          none, none⟩] :=
  have hagree := (lookups_agree crossToolchain.compiler).2 crossCompiler (by decide +kernel)
  ⟨hagree.1 (by decide +kernel), (hagree.2 crossToolchain rfl rfl).2.1⟩

end BuildLint
