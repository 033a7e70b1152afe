import BuildLint.Proofs.Json.Reading
import BuildLint.Proofs.Text.Cutting
import BuildLint.Settings.Config

/-!
# Proofs/Settings/Options — the options that a file and the command line give together

An option's **effective** value is the one of the command line unless that is null, and otherwise
the one of the file.  Options combine unless a known one has an effective value of another kind
than its own, and what they combine to depends on nothing but the effective values of the known
ones (`combine_spec`).

* `OptionKind.Accepts`, `PathList.Entries` — which values an option takes, and which paths a list
  of paths holds.
* `Config.effective`, `Config.IsOptionsOf` — the values that count, and the options they stand for.
* `get?_overlay` — overlaying the file's options computes the effective values.
-/

namespace BuildLint

/-! ## Values of options -/

/-- **The values that an option takes**, by its kind: a list of paths is one text or an array of
texts. -/
inductive OptionKind.Accepts : OptionKind → Json → Prop
  | flag (b : Bool) : Accepts .flag (.bool b)
  | text (s : Text) : Accepts .text (.string s)
  | path (s : Text) : Accepts .paths (.string s)
  | paths (entries : List Text) : Accepts .paths (.array (entries.map .string))

/-- **The entries of a list of paths**: none if it is not given, the pieces of a text between its
semicolons, or the items of an array. -/
inductive PathList.Entries : Option Json → List Text → Prop
  | absent : Entries none []
  | text {pieces : List Text} (given : pieces ≠ [])
      (whole : ∀ piece ∈ pieces, (';' : CodePoint) ∉ piece) :
      Entries (some (.string (Text.joinWith ";" pieces))) pieces
  | items (entries : List Text) : Entries (some (.array (entries.map .string))) entries

namespace Config

theorem isText_iff {v : Json} : isText v = true ↔ ∃ s, v = .string s := by
  cases v <;> simp [isText]

theorem all_isText_iff {items : List Json} :
    items.all isText = true ↔ ∃ entries : List Text, items = entries.map .string := by
  rw [List.all_eq_true]
  constructor
  · intro h
    induction items with
    | nil => exact ⟨[], rfl⟩
    | cons v rest ih =>
      obtain ⟨s, rfl⟩ := isText_iff.1 (h v List.mem_cons_self)
      obtain ⟨entries, rfl⟩ := ih fun w hw => h w (List.mem_cons_of_mem _ hw)
      exact ⟨s :: entries, rfl⟩
  · rintro ⟨entries, rfl⟩ v hv
    obtain ⟨s, -, rfl⟩ := List.mem_map.1 hv
    rfl

/-- **The check of a value** passes what its kind of option takes. -/
theorem fits_iff {kind : OptionKind} {v : Json} : fits kind v = true ↔ kind.Accepts v := by
  constructor
  · intro h
    cases kind with
    | flag =>
      cases v with
      | bool b => exact .flag b
      | _ => cases h
    | text =>
      obtain ⟨s, rfl⟩ := isText_iff.1 h
      exact .text s
    | paths =>
      cases v with
      | string s => exact .path s
      | array items =>
        obtain ⟨entries, rfl⟩ := all_isText_iff.1 h
        exact .paths entries
      | _ => cases h
  · rintro (b | s | s | entries)
    · rfl
    · rfl
    · rfl
    · exact all_isText_iff.2 ⟨entries, rfl⟩

theorem kind?_eq_some {name : Text} {kind : OptionKind} :
    kind? name = some kind ↔ (name, kind) ∈ kinds := by
  constructor
  · intro h
    obtain ⟨⟨found, _⟩, hfind, rfl⟩ := Option.map_eq_some_iff.1 h
    have hfound := List.find?_some hfind
    obtain rfl : found = name := of_decide_eq_true hfound
    exact List.mem_of_find?_eq_some hfind
  · have hall : ∀ k ∈ kinds, kind? k.1 = some k.2 := by decide
    exact hall (name, kind)

/-! ## The values that count -/

/-- **The value of an option that counts**: the one of the command line unless it is null, and
otherwise the one of the file. -/
def effective (file given : Json.Members) (name : Text) : Option Json :=
  ((Keyed.get? given name).filter fun v => !isNull v).or (Keyed.get? file name)

/-- Every known option with a value has one that it takes. -/
def WellTyped (value : Text → Option Json) : Prop :=
  ∀ known ∈ kinds, ∀ v, value known.1 = some v → known.2.Accepts v

/-- **The options that values stand for**, with paths taken from a root.  What is not given is as
if it were empty, flags apart, which are then set; and paths to ignore are ignored both as targets
and as places of includes, before the paths that are to be ignored as only one of them. -/
structure IsOptionsOf (root : Text) (value : Text → Option Json) (o : Options) : Prop where
  buildConfiguration : ∀ s, o.buildConfiguration = some s ↔
    value "build_configuration" = some (.string s) ∧ s ≠ []
  ruleset : ∀ s, o.ruleset = some s ↔ value "ruleset" = some (.string s) ∧ s ≠ []
  resultsPath : ∀ s, o.resultsPath = some s ↔ value "results_path" = some (.string s) ∧ s ≠ []
  additionalArguments : (value "additional_args").getD (.string []) =
    .string o.additionalArguments
  ignoreSystemHeaders : (value "ignore_system_headers").getD (.bool true) =
    .bool o.ignoreSystemHeaders
  loadCompilerEnvironment : (value "load_implicit_compiler_env").getD (.bool true) =
    .bool o.loadCompilerEnvironment
  ignoredPaths : ∃ both targets includes, PathList.Entries (value "ignored_paths") both ∧
    PathList.Entries (value "ignored_target_paths") targets ∧
    PathList.Entries (value "ignored_include_paths") includes ∧
    o.ignoredTargetPaths =
      PathList.resolveAll root both ++ PathList.resolveAll root targets ∧
    o.ignoredIncludePaths =
      PathList.resolveAll root both ++ PathList.resolveAll root includes
  projectRoot : o.projectRoot = root

variable {root name : Text} {file given options : Json.Members} {o : Options}

/-- **Overlaying computes the effective values.** -/
theorem get?_overlay (hgiven : (given.map Prod.fst).Nodup) :
    Keyed.get? (overlay file given) name = effective file given name := by
  have hlayer : ((given.filter fun m => !isNull m.2).map Prod.fst).Nodup :=
    hgiven.sublist (List.filter_sublist.map Prod.fst)
  rw [overlay, Keyed.get?_overlay hlayer, Keyed.get?_filter hgiven fun v => !isNull v]
  rfl

theorem nodup_keys_overlay (hfile : (file.map Prod.fst).Nodup) :
    ((overlay file given).map Prod.fst).Nodup :=
  Keyed.nodup_keys_overlay hfile

/-! ## The check -/

theorem check_eq_ok : check options = .ok () ↔
    ∀ m ∈ options, ∀ kind, (m.1, kind) ∈ kinds → kind.Accepts m.2 := by
  induction options with
  | nil => exact ⟨fun _ _ h => absurd h List.not_mem_nil, fun _ => rfl⟩
  | cons m rest ih =>
    obtain ⟨name, v⟩ := m
    rw [List.forall_mem_cons, ← ih, check]
    cases hkind : kind? name with
    | none =>
      refine (and_iff_right fun kind hmem => ?_).symm
      rw [kind?_eq_some.2 hmem] at hkind
      cases hkind
    | some kind =>
      have hone : (∀ k, (name, k) ∈ kinds → k.Accepts v) ↔ fits kind v = true := by
        rw [fits_iff]
        refine ⟨fun h => h kind (kind?_eq_some.1 hkind), fun h k hk => ?_⟩
        obtain rfl := Option.some.inj (hkind.symm.trans (kind?_eq_some.2 hk))
        exact h
      rw [hone]
      dsimp only
      split
      · rename_i hfits
        exact (and_iff_right hfits).symm
      · rename_i hfits
        exact ⟨fun h => (nomatch h), fun h => absurd h.1 hfits⟩

/-- **The check fails for an option it names**, with a value of another kind. -/
theorem exists_of_check_eq_error {cause : ConfigurationCause} (h : check options = .error cause) :
    ∃ m ∈ options, ∃ kind, (m.1, kind) ∈ kinds ∧ ¬kind.Accepts m.2 ∧
      cause = misfit m.1 kind := by
  induction options with
  | nil => cases h
  | cons m rest ih =>
    obtain ⟨name, v⟩ := m
    rw [check] at h
    cases hkind : kind? name with
    | none =>
      rw [hkind] at h
      obtain ⟨m, hm, hcause⟩ := ih h
      exact ⟨m, List.mem_cons_of_mem _ hm, hcause⟩
    | some kind =>
      simp only [hkind] at h
      split at h
      · obtain ⟨m, hm, hcause⟩ := ih h
        exact ⟨m, List.mem_cons_of_mem _ hm, hcause⟩
      · rename_i hfits
        exact ⟨(name, v), List.mem_cons_self, kind, kind?_eq_some.1 hkind,
          fun h => hfits (fits_iff.2 h), (Except.error.inj h).symm⟩

/-- The check asks whether every known option has a value that it takes. -/
theorem check_eq_ok_iff_wellTyped (hn : (options.map Prod.fst).Nodup) :
    check options = .ok () ↔ WellTyped fun name => Keyed.get? options name := by
  rw [check_eq_ok]
  constructor
  · exact fun h known hknown v hv => h (known.1, v) ((Keyed.get?_eq_some hn).1 hv) known.2 hknown
  · exact fun h m hm kind hkind => h (m.1, kind) hkind m.2 ((Keyed.get?_eq_some hn).2 hm)

/-! ## Each option by itself -/

theorem text?_eq_some (s : Text) :
    text? options name = some s ↔ Keyed.get? options name = some (.string s) ∧ s ≠ [] := by
  rw [text?]
  split
  · rename_i h
    rw [h]
    refine (iff_false_left (Option.some_ne_none s).symm).2 ?_
    rintro ⟨h, hne⟩
    obtain rfl := Json.string.inj (Option.some.inj h)
    exact hne rfl
  · rename_i t hne h
    rw [h]
    constructor
    · intro ht
      obtain rfl := Option.some.inj ht
      exact ⟨rfl, hne⟩
    · rintro ⟨ht, -⟩
      exact congrArg some (Json.string.inj (Option.some.inj ht))
  · rename_i hempty hother
    refine (iff_false_left (Option.some_ne_none s).symm).2 ?_
    rintro ⟨h, -⟩
    exact hother s h

theorem getD_text?_eq {s : Text}
    (h : (Keyed.get? options name).getD (.string []) = .string s) :
    (text? options name).getD [] = s := by
  rw [text?]
  cases hm : Keyed.get? options name with
  | none =>
    rw [hm] at h
    exact Json.string.inj h
  | some v =>
    rw [hm] at h
    obtain rfl : v = .string s := h
    cases s <;> rfl

theorem flag_eq {default b : Bool}
    (h : (Keyed.get? options name).getD (.bool default) = .bool b) :
    flag options name default = b := by
  rw [flag]
  cases hm : Keyed.get? options name with
  | none =>
    rw [hm] at h
    exact Json.bool.inj h
  | some v =>
    rw [hm] at h
    obtain rfl : v = .bool b := h
    rfl

/-- **The paths of a list** are its entries, taken from the root. -/
theorem paths_eq {entries : List Text}
    (h : PathList.Entries (Keyed.get? options name) entries) :
    paths options root name = PathList.resolveAll root entries := by
  rw [paths]
  cases hm : Keyed.get? options name with
  | none =>
    rw [hm] at h
    cases h
    rfl
  | some v =>
    rw [hm] at h
    cases h with
    | text hne hwhole =>
      exact congrArg (PathList.resolveAll root) (Text.splitOn_joinWith hne hwhole)
    | items entries =>
      exact congrArg (PathList.resolveAll root) (List.filterMap_map.trans List.filterMap_some)

/-! ## All of them -/

section WellTyped

variable {value : Option Json}

theorem exists_text (h : ∀ v, value = some v → OptionKind.Accepts .text v) :
    ∃ s, value.getD (.string []) = .string s := by
  cases value with
  | none => exact ⟨[], rfl⟩
  | some v =>
    cases h v rfl with
    | text s => exact ⟨s, rfl⟩

theorem exists_flag (h : ∀ v, value = some v → OptionKind.Accepts .flag v) (default : Bool) :
    ∃ b, value.getD (.bool default) = .bool b := by
  cases value with
  | none => exact ⟨default, rfl⟩
  | some v =>
    cases h v rfl with
    | flag b => exact ⟨b, rfl⟩

theorem exists_entries (h : ∀ v, value = some v → OptionKind.Accepts .paths v) :
    ∃ entries, PathList.Entries value entries := by
  cases value with
  | none => exact ⟨[], .absent⟩
  | some v =>
    cases h v rfl with
    | path s =>
      obtain ⟨pieces, hne, hwhole, rfl⟩ := Text.exists_joinWith_eq ';' s
      exact ⟨pieces, .text hne hwhole⟩
    | paths entries => exact ⟨entries, .items entries⟩

end WellTyped

/-- Values of the right kinds stand for the options that are made of them. -/
theorem isOptionsOf_toOptions (h : WellTyped fun name => Keyed.get? options name) :
    IsOptionsOf root (fun name => Keyed.get? options name) (toOptions root options) := by
  obtain ⟨arguments, harguments⟩ := exists_text (h ("additional_args", .text) (by simp [kinds]))
  obtain ⟨ignore, hignore⟩ :=
    exists_flag (h ("ignore_system_headers", .flag) (by simp [kinds])) true
  obtain ⟨load, hload⟩ :=
    exists_flag (h ("load_implicit_compiler_env", .flag) (by simp [kinds])) true
  obtain ⟨both, hboth⟩ := exists_entries (h ("ignored_paths", .paths) (by simp [kinds]))
  obtain ⟨targets, htargets⟩ :=
    exists_entries (h ("ignored_target_paths", .paths) (by simp [kinds]))
  obtain ⟨includes, hincludes⟩ :=
    exists_entries (h ("ignored_include_paths", .paths) (by simp [kinds]))
  exact {
    buildConfiguration := text?_eq_some
    ruleset := text?_eq_some
    resultsPath := text?_eq_some
    additionalArguments := harguments.trans (congrArg _ (getD_text?_eq harguments).symm)
    ignoreSystemHeaders := hignore.trans (congrArg _ (flag_eq hignore).symm)
    loadCompilerEnvironment := hload.trans (congrArg _ (flag_eq hload).symm)
    ignoredPaths := ⟨both, targets, includes, hboth, htargets, hincludes,
      congrArg₂ _ (paths_eq hboth) (paths_eq htargets),
      congrArg₂ _ (paths_eq hboth) (paths_eq hincludes)⟩
    projectRoot := rfl }

theorem WellTyped.congr {value value' : Text → Option Json}
    (h : ∀ known ∈ kinds, value' known.1 = value known.1) :
    WellTyped value' ↔ WellTyped value :=
  forall₂_congr fun known hknown => by rw [h known hknown]

/-- What values stand for does not depend on unknown options. -/
theorem IsOptionsOf.congr {value value' : Text → Option Json}
    (h : ∀ known ∈ kinds, value' known.1 = value known.1) (ho : IsOptionsOf root value o) :
    IsOptionsOf root value' o := by
  have hof (name : Text) (kind : OptionKind) (hmem : (name, kind) ∈ kinds) :
      value' name = value name := h (name, kind) hmem
  constructor
  · rw [hof "build_configuration" .text (by simp [kinds])]
    exact ho.buildConfiguration
  · rw [hof "ruleset" .text (by simp [kinds])]
    exact ho.ruleset
  · rw [hof "results_path" .text (by simp [kinds])]
    exact ho.resultsPath
  · rw [hof "additional_args" .text (by simp [kinds])]
    exact ho.additionalArguments
  · rw [hof "ignore_system_headers" .flag (by simp [kinds])]
    exact ho.ignoreSystemHeaders
  · rw [hof "load_implicit_compiler_env" .flag (by simp [kinds])]
    exact ho.loadCompilerEnvironment
  · rw [hof "ignored_paths" .paths (by simp [kinds]),
      hof "ignored_target_paths" .paths (by simp [kinds]),
      hof "ignored_include_paths" .paths (by simp [kinds])]
    exact ho.ignoredPaths
  · exact ho.projectRoot

/-- Values stand for no other options. -/
theorem IsOptionsOf.eq_toOptions
    (h : IsOptionsOf root (fun name => Keyed.get? options name) o) :
    toOptions root options = o := by
  obtain rfl := h.projectRoot
  obtain ⟨both, targets, includes, hboth, htargets, hincludes, hout, hin⟩ := h.ignoredPaths
  have hconfiguration : text? options "build_configuration" = o.buildConfiguration :=
    Option.ext fun s => (text?_eq_some s).trans (h.buildConfiguration s).symm
  have hruleset : text? options "ruleset" = o.ruleset :=
    Option.ext fun s => (text?_eq_some s).trans (h.ruleset s).symm
  have hresults : text? options "results_path" = o.resultsPath :=
    Option.ext fun s => (text?_eq_some s).trans (h.resultsPath s).symm
  simp only [toOptions, hconfiguration, hruleset, hresults, getD_text?_eq h.additionalArguments,
    flag_eq h.ignoreSystemHeaders, flag_eq h.loadCompilerEnvironment, paths_eq hboth,
    paths_eq htargets, paths_eq hincludes, ← hout, ← hin]

theorem combine_eq_ok : combine root file given = .ok o ↔
    check (overlay file given) = .ok () ∧
      toOptions (Path.tidy root) (overlay file given) = o := by
  rw [combine, Steps.bind_eq_ok]
  exact ⟨fun ⟨(), hcheck, ho⟩ => ⟨hcheck, Except.ok.inj ho⟩,
    fun ⟨hcheck, ho⟩ => ⟨(), hcheck, congrArg Except.ok ho⟩⟩

theorem combine_eq_error {cause : ConfigurationCause} : combine root file given = .error cause ↔
    check (overlay file given) = .error cause := by
  rw [combine, Steps.bind_eq_error]
  exact ⟨fun h => h.elim id fun ⟨_, _, h⟩ => (nomatch h), .inl⟩

variable (hfile : (file.map Prod.fst).Nodup) (hgiven : (given.map Prod.fst).Nodup)

include hfile hgiven

/-- **Options combine** to what the effective values stand for, if these are of the right kinds. -/
theorem combine_eq_ok_iff : combine root file given = .ok o ↔
    WellTyped (effective file given) ∧ IsOptionsOf (Path.tidy root) (effective file given) o := by
  have hvalue : (fun name => Keyed.get? (overlay file given) name) = effective file given :=
    funext fun name => get?_overlay hgiven
  rw [combine_eq_ok, check_eq_ok_iff_wellTyped (nodup_keys_overlay hfile), ← hvalue]
  refine and_congr_right fun htyped => ⟨?_, IsOptionsOf.eq_toOptions⟩
  rintro rfl
  exact isOptionsOf_toOptions htyped

/-- **Options that do not combine** fail for one that the failure names. -/
theorem exists_of_combine_eq_error {cause : ConfigurationCause}
    (h : combine root file given = .error cause) :
    ∃ known ∈ kinds, ∃ v, effective file given known.1 = some v ∧ ¬known.2.Accepts v ∧
      cause = misfit known.1 known.2 := by
  obtain ⟨m, hm, kind, hkind, hv, hcause⟩ := exists_of_check_eq_error (combine_eq_error.1 h)
  have hvalue : Keyed.get? (overlay file given) m.1 = some m.2 :=
    (Keyed.get?_eq_some (nodup_keys_overlay hfile)).2 hm
  exact ⟨(m.1, kind), hkind, m.2, (get?_overlay hgiven).symm.trans hvalue, hv, hcause⟩

/-- **The options of a file and of the command line.**  They combine unless the effective value of a
known option is not one that it takes, and then it is for such an option that they fail.  Otherwise
they combine to the options that the effective values stand for.  So two pairs of a file and a
command line that agree on the effective values of the known options give the same options, or
none. -/
theorem combine_spec (root : Text) :
    ((∃ cause, combine root file given = .error cause) ↔
      ∃ known ∈ kinds, ∃ v, effective file given known.1 = some v ∧ ¬known.2.Accepts v) ∧
    (∀ cause, combine root file given = .error cause →
      ∃ known ∈ kinds, ∃ v, effective file given known.1 = some v ∧ ¬known.2.Accepts v ∧
        cause = misfit known.1 known.2) ∧
    (∀ o, combine root file given = .ok o ↔ WellTyped (effective file given) ∧
      IsOptionsOf (Path.tidy root) (effective file given) o) ∧
    (∀ file' given' : Json.Members, (file'.map Prod.fst).Nodup → (given'.map Prod.fst).Nodup →
      (∀ known ∈ kinds, effective file' given' known.1 = effective file given known.1) →
      (combine root file' given').toOption = (combine root file given).toOption) := by
  have hiff (o : Options) : combine root file given = .ok o ↔ _ := combine_eq_ok_iff hfile hgiven
  refine ⟨⟨?_, ?_⟩, fun cause h => exists_of_combine_eq_error hfile hgiven h, hiff, ?_⟩
  · rintro ⟨cause, h⟩
    obtain ⟨known, hknown, v, hv, hnot, -⟩ := exists_of_combine_eq_error hfile hgiven h
    exact ⟨known, hknown, v, hv, hnot⟩
  · rintro ⟨known, hknown, v, hv, hnot⟩
    cases h : combine root file given with
    | error cause => exact ⟨cause, rfl⟩
    | ok o => exact absurd (((hiff o).1 h).1 known hknown v hv) hnot
  · intro file' given' hfile' hgiven' hsame
    refine Option.ext fun o => ?_
    rw [Steps.toOption_eq_some, Steps.toOption_eq_some, combine_eq_ok_iff hfile' hgiven', hiff,
      WellTyped.congr hsame]
    exact and_congr_right fun _ => ⟨IsOptionsOf.congr fun known hknown => (hsame known hknown).symm,
      IsOptionsOf.congr hsame⟩

omit hfile hgiven

/-- A file whose ruleset is not a text, with an option that is not known. -/
def looseFile : Json.Members :=
  [("ruleset", .int 3), ("parallel", .int 4), ("ignored_paths", .string "deps;;")]

/-- A command line that takes the ruleset back, and leaves the arguments open. -/
def resettingLine : Json.Members :=
  [("ruleset", .string ""), ("ignored_target_paths", .array [.string " tests "]),
    ("additional_args", .null)]

/-- What the command line gives hides what the file gives, even a value of the wrong kind. -/
theorem combine_spec_looseFile :
    (looseFile.map Prod.fst).Nodup ∧ (resettingLine.map Prod.fst).Nodup ∧
    WellTyped (effective looseFile resettingLine) ∧
    IsOptionsOf (Path.tidy "/p") (effective looseFile resettingLine)
      { ignoredTargetPaths := ["/p/deps", "/p/tests"], ignoredIncludePaths := ["/p/deps"],
        projectRoot := "/p" } := by
  have hfile : (looseFile.map Prod.fst).Nodup := by decide
  have hgiven : (resettingLine.map Prod.fst).Nodup := by decide
  obtain ⟨-, -, hok, -⟩ := combine_spec hfile hgiven "/p"
  exact ⟨hfile, hgiven, (hok _).1 rfl⟩

end Config

end BuildLint
