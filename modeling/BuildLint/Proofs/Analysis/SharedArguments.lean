import BuildLint.Proofs.Analysis.Sharing
import BuildLint.Proofs.CommandLine.Tokens

/-!
# Proofs/Analysis/SharedArguments — which arguments the sources of a compiler share

Four things can stand on the disk or not: the engine, the project's own ruleset, the directory of
the official ones, and the official ruleset in it.  These, three of the options, and whether the
additional arguments can be cut decide between two failures and a list of arguments.

* `LacksEngine`, `LacksRuleset`, `IsLacking` — what can be missing.
* `AreShared` — the list, part by part.
* `shared_result` — the three questions that are asked, one after the other.
* `shared_decides` — which failure it is, and what the list is if there is none.
-/

namespace BuildLint

namespace Arguments

/-! ## What is asked for -/

/-- **The ruleset that is asked for**; one without a name is none. -/
def requested (options : Options) : Option Text := options.ruleset.filter (· != [])

/-- Where a ruleset of the project has to be. -/
def ownPath (options : Options) (name : Text) : Text := Path.resolve options.projectRoot name

/-- Where an official ruleset has to be. -/
def officialPath (t : Toolchain) (name : Text) : Text := Path.join (rulesetDirectoryPath t) name

section

variable (d : Disk) (t : Toolchain) (options : Options)

/-- **The engine is missing** from its place. -/
def LacksEngine : Prop := ¬d.isThere (enginePath t)

/-- A ruleset is among the official ones. -/
def IsOfficial (name : Text) : Prop :=
  d.isDirectory (rulesetDirectoryPath t) ∧ d.isThere (officialPath t name)

instance (name : Text) : Decidable (IsOfficial d t name) := inferInstanceAs (Decidable (_ ∧ _))

/-- **The ruleset that is asked for is missing**: it is neither in the project nor official. -/
def LacksRuleset : Prop :=
  ∃ name ∈ requested options, ¬d.isThere (ownPath options name) ∧ ¬IsOfficial d t name

/-- **Something is missing**: the engine, or the ruleset that is asked for. -/
def IsLacking : Prop := LacksEngine d t ∨ LacksRuleset d t options

/-- The path of a ruleset: that of the project if it is there, else the official one. -/
def rulesetPath (name : Text) : Text :=
  if d.isThere (ownPath options name) then ownPath options name else officialPath t name

/-- **The arguments for the ruleset that is asked for**, if any; wherever it is, its siblings are
looked for in the directory of the official ones if that is there. -/
def rulesetArguments : List Text :=
  match requested options with
  | none => []
  | some name =>
    ("/analyze:ruleset" ++ rulesetPath d t options name) ::
      if d.isDirectory (rulesetDirectoryPath t) then
        ["/analyze:rulesetdirectory" ++ rulesetDirectoryPath t]
      else []

/-- The arguments that leave system headers out, if the user wants that. -/
def systemHeaderArguments : List Text :=
  if options.ignoreSystemHeaders then ["/external:W0", "/analyze:external-"] else []

/-- **The arguments that sources share**: four flags, the engine, the ruleset, two flags about
system headers, and last whatever the user adds. -/
def AreShared (arguments : List Text) : Prop :=
  ∃ additional, Tokens.split? options.additionalArguments = some additional ∧
    arguments = (["/analyze:only", "/analyze:quiet", "/analyze:log:format:sarif", "/nologo",
      "/analyze:plugin" ++ enginePath t] : List Text) ++ rulesetArguments d t options ++
        systemHeaderArguments options ++ additional

end

variable {d : Disk} {t : Toolchain} {options : Options} {w : World} {name : Text}

/-! ## The questions -/

/-- **What looking for a ruleset gives.** -/
theorem findNamedRuleset_result (name : Text) (t : Toolchain) (options : Options) (host : Host)
    (w : World) :
    (findNamedRuleset name options.projectRoot (rulesetDirectory? w.disk t)).result host w =
      if w.disk.isThere (ownPath options name) ∨ IsOfficial w.disk t name then
        .ok (rulesetPath w.disk t options name)
      else .error (.failure (.synthesis (.noRuleset name))) := by
  rw [findNamedRuleset, Action.result_disk_bind, rulesetDirectory?, rulesetPath, ← ownPath]
  dsimp only
  split
  · rename_i hown
    rw [if_pos (.inl hown)]
    rfl
  · rename_i hown
    by_cases hdirectory : w.disk.isDirectory (rulesetDirectoryPath t) = true
    · rw [if_pos hdirectory]
      dsimp only
      rw [← officialPath]
      split
      · rename_i hofficial
        rw [if_pos (.inr ⟨hdirectory, hofficial⟩)]
        rfl
      · rename_i hofficial
        rw [if_neg (not_or.2 ⟨hown, fun h => hofficial h.2⟩)]
        rfl
    · rw [if_neg hdirectory, if_neg (not_or.2 ⟨hown, fun h => hdirectory h.1⟩)]
      rfl

/-- A ruleset is looked for if one is asked for. -/
theorem findRuleset_eq (options : Options) (directory : Option Text) :
    findRuleset options.ruleset options.projectRoot directory = match requested options with
      | none => pure none
      | some name => findNamedRuleset name options.projectRoot directory >>= fun path =>
          pure (some path) := by
  rw [requested]
  cases options.ruleset with
  | none => rfl
  | some name => cases name <;> rfl

/-- **What the arguments name** is found unless something is missing; the engine is looked for
first. -/
theorem shared_result (t : Toolchain) (options : Options) (host : Host) (w : World) :
    (shared t options).result host w = (do
      let engine ← engine w.disk t
      let ruleset ← (findRuleset options.ruleset options.projectRoot
        (rulesetDirectory? w.disk t)).result host w
      assembled options engine ruleset (rulesetDirectory? w.disk t)) := by
  rw [shared_eq, Action.result_consult_bind]
  refine Steps.bind_congr fun engine _ => ?_
  have htold : ∀ ruleset directory, (tellUnused ruleset >>= fun _ =>
      Action.ofExcept (assembled options engine ruleset directory)).OnlyAsks :=
    fun ruleset directory => (tellUnused_onlyAsks ruleset).bind fun _ => Action.onlyAsks_ofExcept _
  rw [Action.result_disk_bind, Action.OnlyAsks.result_bind (findRuleset_onlyAsks _ _ _) fun _ =>
    htold _ _]
  refine Steps.bind_congr fun ruleset _ => ?_
  rw [(tellUnused_onlyAsks ruleset).result_bind fun _ => Action.onlyAsks_ofExcept _,
    tellUnused_result, Action.result_ofExcept]
  rfl

/-! ## What is missing, and what is found -/

theorem lacksRuleset_iff (h : requested options = some name) : LacksRuleset d t options ↔
    ¬(d.isThere (ownPath options name) ∨ IsOfficial d t name) := by
  rw [LacksRuleset, h, not_or]
  simp

/-- **The ruleset that is asked for** is found where it is, and not found if it is missing. -/
theorem findRuleset_result (t : Toolchain) (options : Options) (host : Host) (w : World) :
    (LacksRuleset w.disk t options ∧ ∃ name, (findRuleset options.ruleset options.projectRoot
        (rulesetDirectory? w.disk t)).result host w =
          .error (.failure (.synthesis (.noRuleset name)))) ∨
      (¬LacksRuleset w.disk t options ∧ (findRuleset options.ruleset options.projectRoot
        (rulesetDirectory? w.disk t)).result host w =
          .ok ((requested options).map (rulesetPath w.disk t options))) := by
  rw [findRuleset_eq]
  cases hrequested : requested options with
  | none => exact .inr ⟨by simp [LacksRuleset, hrequested], rfl⟩
  | some name =>
    dsimp only
    rw [(findNamedRuleset_onlyAsks _ _ _).result_bind fun _ => Action.onlyAsks_pure _,
      findNamedRuleset_result, lacksRuleset_iff hrequested]
    by_cases hfound : w.disk.isThere (ownPath options name) ∨ IsOfficial w.disk t name
    · rw [if_pos hfound]
      exact .inr ⟨not_not.2 hfound, rfl⟩
    · rw [if_neg hfound]
      exact .inl ⟨hfound, name, rfl⟩

theorem shared_of_isLacking (h : IsLacking w.disk t options) (host : Host) :
    ∃ cause, (shared t options).result host w = .error (.failure (.synthesis cause)) := by
  rw [shared_result, engine]
  split
  · rename_i hengine
    have hruleset : LacksRuleset w.disk t options := h.resolve_left fun h => h hengine
    obtain ⟨-, name, hfound⟩ | ⟨hnot, -⟩ := findRuleset_result t options host w
    · rw [hfound]
      exact ⟨_, rfl⟩
    · exact absurd hruleset hnot
  · exact ⟨_, rfl⟩

theorem shared_of_not_isLacking (h : ¬IsLacking w.disk t options) (host : Host) :
    (shared t options).result host w = assembled options (enginePath t)
      ((requested options).map (rulesetPath w.disk t options)) (rulesetDirectory? w.disk t) := by
  obtain ⟨hengine, hruleset⟩ := not_or.1 h
  obtain ⟨hlacks, -⟩ | ⟨-, hfound⟩ := findRuleset_result t options host w
  · exact absurd hlacks hruleset
  · rw [shared_result, engine, if_pos (not_not.1 hengine), hfound]
    rfl

/-- The ruleset that is found, as arguments. -/
theorem ofRuleset_found (d : Disk) (t : Toolchain) (options : Options) :
    ofRuleset ((requested options).map (rulesetPath d t options)) (rulesetDirectory? d t) =
      rulesetArguments d t options := by
  rw [rulesetArguments, rulesetDirectory?]
  cases requested options with
  | none => rfl
  | some name =>
    dsimp only [Option.map_some, ofRuleset]
    split <;> rfl

/-- **The shared arguments**: something is missing, or the additional ones cannot be cut, or they
are what they have to be; that is the order in which it is found out, and nothing else can be. -/
theorem shared_decides (t : Toolchain) (options : Options) (host : Host) (w : World) :
    ((∃ cause, (shared t options).result host w = .error (.failure (.synthesis cause))) ↔
      IsLacking w.disk t options) ∧
    ((∃ cause, (shared t options).result host w = .error (.failure (.configuration cause))) ↔
      ¬IsLacking w.disk t options ∧
        Odd (options.additionalArguments.count ('"' : CodePoint))) ∧
    ((∃ arguments, (shared t options).result host w = .ok arguments) ↔
      ¬IsLacking w.disk t options ∧
        ¬Odd (options.additionalArguments.count ('"' : CodePoint))) ∧
    ∀ arguments, (shared t options).result host w = .ok arguments →
      AreShared w.disk t options arguments := by
  by_cases hlacking : IsLacking w.disk t options
  · obtain ⟨cause, hresult⟩ := shared_of_isLacking hlacking host
    simp [hresult, hlacking]
  · have hresult := shared_of_not_isLacking hlacking host
    rw [hresult, ← Tokens.split?_eq_none_iff, assembled, ofRuleset_found]
    cases hsplit : Tokens.split? options.additionalArguments with
    | none => simp [hlacking]
    | some additional =>
      refine ⟨by simp [hlacking], by simp, by simp [hlacking], ?_⟩
      rintro arguments ⟨⟩
      exact ⟨additional, hsplit, rfl⟩

end Arguments

end BuildLint
