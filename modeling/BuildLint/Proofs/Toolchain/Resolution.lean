import Mathlib.Logic.Relation
import BuildLint.Proofs.CMake.CodeModel
import BuildLint.Proofs.Toolchain.Installation
import BuildLint.Proofs.Toolchain.Shapes

/-!
# Proofs/Toolchain/Resolution — which entries of a reply a build uses

CMake documents the toolchains of a build as a list of entries of known types; here is that list,
apart from its spelling.  For each language that can be analysed the first entry counts that is for
it and whose compiler can analyse.  What else is listed, and where, does not matter.

* `ToolchainEntry`, `CompilerEntry` — the documented data, and what describes it.
* `ToolchainEntry.Yields`, `ToolchainEntry.Fails` — what becomes of an entry that counts.
* `search_eq_ok_iff`, `search_eq_error_iff` — the search for one language.
* `Rearranged` — two lists whose entries count alike.
* `load_resolves` — what is loaded from a reply, and when it is refused.
-/

namespace BuildLint

/-! ## Documented entries -/

/-- **A compiler in a reply**, with whatever is said of its version. -/
structure CompilerEntry where
  id : Option Text := none
  path : Option Text := none
  version : Option Json := none
  headers : List Text := []

/-- **An entry of a toolchains reply.** -/
structure ToolchainEntry where
  language : Option Text
  compiler : CompilerEntry

/-- A value has a text under a key; the text may be missing, or null. -/
def Json.MayName (v : Json) (key : Text) (text : Option Text) : Prop :=
  v.lookup key = .ok ((text.map .string).getD .null)

/-- **The headers that a compiler includes by itself**, each step to them may be missing, or null. -/
inductive CompilerEntry.ListsHeaders (v : Json) : List Text → Prop
  | silent (h : v.lookup "implicit" = .ok .null) : ListsHeaders v []
  | unlisted {w : Json} (h : v.field "implicit" = .ok w)
      (hw : w.lookup "includeDirectories" = .ok .null) : ListsHeaders v []
  | listed {w : Json} {headers : List Text} (h : v.field "implicit" = .ok w)
      (hw : w.field "includeDirectories" = .ok (.array (headers.map .string))) :
      ListsHeaders v headers

structure CompilerEntry.DescribedBy (v : Json) (c : CompilerEntry) : Prop where
  id : v.MayName "id" c.id
  path : v.MayName "path" c.path
  version : v.lookup? "version" = .ok c.version
  headers : ListsHeaders v c.headers

/-- An entry without a compiler is one of whose compiler nothing is known. -/
structure ToolchainEntry.DescribedBy (v : Json) (e : ToolchainEntry) : Prop where
  language : v.MayName "language" e.language
  compiler : (v.lookup "compiler" = .ok .null ∧ e.compiler = {}) ∨
    ∃ w, v.field "compiler" = .ok w ∧ e.compiler.DescribedBy w

namespace ToolchainEntry

variable {language : Text} {e : ToolchainEntry} {entries others : List ToolchainEntry}
  {t u : Toolchain} {cause : ToolchainCause}

/-- **An entry is for a language** if it says so and its compiler can analyse. -/
def IsFor (language : Text) (e : ToolchainEntry) : Prop :=
  e.language = some language ∧ e.compiler.id = some Toolchain.analysingCompiler

instance (language : Text) (e : ToolchainEntry) : Decidable (e.IsFor language) :=
  inferInstanceAs (Decidable (_ ∧ _))

/-- **The entry that counts** for a language is the first that is for it. -/
def first? (language : Text) (entries : List ToolchainEntry) : Option ToolchainEntry :=
  entries.find? fun e => e.IsFor language

/-- **The toolchain that an entry yields** for a language. -/
structure Yields (language : Text) (e : ToolchainEntry) (t : Toolchain) : Prop where
  language : t.language = .string language
  compiler : e.compiler.path = some t.compiler
  layout : Layout.ofPath t.compiler = .ok ⟨t.toolset, t.host, t.target⟩
  version : t.version = e.compiler.version.getD (.string [])
  headers : t.implicitIncludes = e.compiler.headers.map fun header => ⟨.string header, true⟩

/-- **Why an entry fails** to yield one: its compiler has no path, or none with a layout. -/
inductive Fails (language : Text) (e : ToolchainEntry) : ToolchainCause → Prop
  | path (h : ∀ path, e.compiler.path = some path → path = []) :
      Fails language e (.noCompilerPath (.string language))
  | layout {path : Text} {error : LayoutError} (h : e.compiler.path = some path) (hp : path ≠ [])
      (hl : Layout.ofPath path = .error error) : Fails language e (.unknownLayout error path)

/-- **An entry yields a toolchain or fails**, and not both. -/
theorem exists_yields_or_fails (language : Text) (e : ToolchainEntry) :
    (∃ t, e.Yields language t) ∨ ∃ cause, e.Fails language cause := by
  cases hpath : e.compiler.path with
  | none => exact .inr ⟨_, .path fun path h => by simp [hpath] at h⟩
  | some path =>
    by_cases hp : path = []
    · exact .inr ⟨_, .path fun other h => (Option.some.inj (hpath.symm.trans h)) ▸ hp⟩
    cases hlayout : Layout.ofPath path with
    | error error => exact .inr ⟨_, .layout hpath hp hlayout⟩
    | ok layout =>
      exact .inl ⟨⟨.string language, path, e.compiler.version.getD (.string []), layout.toolset,
        layout.host, layout.target, e.compiler.headers.map fun header => ⟨.string header, true⟩⟩,
        rfl, hpath, hlayout, rfl, rfl⟩

theorem Fails.not_yields (h : e.Fails language cause) : ¬e.Yields language t := by
  intro hyields
  have hlayout := hyields.layout
  cases h with
  | path hnone =>
    rw [hnone _ hyields.compiler, Toolchain.ofPath_nil] at hlayout
    cases hlayout
  | layout hpath _ hl =>
    obtain rfl := Option.some.inj (hpath.symm.trans hyields.compiler)
    cases hl.symm.trans hlayout

theorem first?_eq_none_iff : first? language entries = none ↔ ∀ e ∈ entries, ¬e.IsFor language := by
  simp only [first?, List.find?_eq_none, decide_eq_true_eq]

theorem isSome_first?_iff : (first? language entries).isSome = true ↔
    ∃ e ∈ entries, e.IsFor language := by
  simp only [first?, List.find?_isSome, decide_eq_true_eq]

theorem first?_cons (language : Text) (e : ToolchainEntry) (rest : List ToolchainEntry) :
    first? language (e :: rest) =
      if e.IsFor language then some e else first? language rest := by
  rw [first?, List.find?_cons]
  by_cases h : e.IsFor language
  · rw [if_pos h, decide_eq_true h]
  · rw [if_neg h, decide_eq_false h]
    rfl

/-! ## Reading described entries -/

variable {v : Json}

/-- **The compiler of an entry** is read as what describes it. -/
theorem DescribedBy.exists_compiler (h : e.DescribedBy v) :
    ∃ w, Toolchain.compilerOf v = .ok w ∧ e.compiler.DescribedBy w := by
  rcases h.compiler with ⟨hnull, hcompiler⟩ | ⟨w, hw, hcompiler⟩
  · refine ⟨.object [], ?_, hcompiler ▸ ⟨rfl, rfl, rfl, .silent rfl⟩⟩
    rw [Toolchain.compilerOf, hnull]
    rfl
  · refine ⟨w, ?_, hcompiler⟩
    rw [Toolchain.compilerOf, Json.lookup_of_lookup? (Json.lookup?_of_field hw)]
    exact congrArg Except.ok (Json.isObject_of_lookup hcompiler.id).orElse_nil

/-- **The search asks of an entry** whether it is for the language. -/
theorem DescribedBy.serves_eq_ok (h : e.DescribedBy v) (language : Text) :
    Toolchain.serves language v = .ok (decide (e.IsFor language)) := by
  obtain ⟨w, hw, hcompiler⟩ := h.exists_compiler
  rw [Toolchain.serves, h.language, hw]
  cases hl : e.language with
  | none => exact congrArg Except.ok (decide_eq_false fun hfor => by simp [IsFor, hl] at hfor).symm
  | some l =>
    change (if l = language then w.lookup "id" >>= _ else _) = _
    rw [hcompiler.id]
    by_cases hlanguage : l = language
    · rw [if_pos hlanguage]
      cases hid : e.compiler.id with
      | none =>
        exact congrArg Except.ok (decide_eq_false fun hfor => by simp [IsFor, hid] at hfor).symm
      | some id =>
        refine congrArg Except.ok (decide_eq_decide.2 ?_)
        rw [IsFor, hl, hid, hlanguage]
        simp
    · rw [if_neg hlanguage]
      refine congrArg Except.ok (decide_eq_false fun hfor => hlanguage ?_).symm
      exact Option.some.inj (hl.symm.trans hfor.1)

theorem exists_headers {headers : List Text} (h : CompilerEntry.ListsHeaders v headers) :
    ∃ implicit, v.lookup "implicit" = .ok implicit ∧
      CompileUnit.listed (implicit.orElse (.object [])) "includeDirectories" =
        .ok (headers.map .string) := by
  cases h with
  | silent h => exact ⟨.null, h, rfl⟩
  | @unlisted w h hw =>
    refine ⟨w, Json.lookup_of_lookup? (Json.lookup?_of_field h), ?_⟩
    rw [(Json.isObject_of_lookup hw).orElse_nil, CompileUnit.listed, hw]
    rfl
  | @listed w headers h hw =>
    have hlookup := Json.lookup_of_lookup? (Json.lookup?_of_field hw)
    refine ⟨w, Json.lookup_of_lookup? (Json.lookup?_of_field h), ?_⟩
    rw [(Json.isObject_of_lookup hlookup).orElse_nil, CompileUnit.listed, hlookup]
    cases headers <;> rfl

/-- **An entry without a path** is refused. -/
theorem DescribedBy.ofReply_of_no_path (h : e.DescribedBy v) (hl : e.language = some language)
    (hp : ∀ path, e.compiler.path = some path → path = []) :
    Toolchain.ofReply v = .error (.failure (.toolchain (.noCompilerPath (.string language)))) := by
  obtain ⟨w, hw, hcompiler⟩ := h.exists_compiler
  have hfalsy : ((e.compiler.path.map Json.string).getD .null).isTruthy = false := by
    cases hpath : e.compiler.path with
    | none => rfl
    | some path =>
      rw [hp path hpath]
      rfl
  have hlanguage : v.lookup "language" = .ok (.string language) := by
    rw [h.language, hl]
    rfl
  rw [Toolchain.ofReply, hw]
  change (Configuration.step (w.lookup "path") >>= _) = _
  rw [hcompiler.path]
  change (if !((e.compiler.path.map Json.string).getD .null).isTruthy then _ else _) = _
  rw [hfalsy, hlanguage]
  rfl

/-- **An entry with a path** is read as far as the layout of that path. -/
theorem DescribedBy.ofReply_of_path (h : e.DescribedBy v) (hl : e.language = some language)
    {path : Text} (hpath : e.compiler.path = some path) (hp : path ≠ []) :
    Toolchain.ofReply v = match Layout.ofPath path with
      | .error error => .error (.failure (.toolchain (.unknownLayout error path)))
      | .ok layout => .ok ⟨.string language, path, e.compiler.version.getD (.string []),
          layout.toolset, layout.host, layout.target,
          e.compiler.headers.map fun header => ⟨.string header, true⟩⟩ := by
  obtain ⟨w, hw, hcompiler⟩ := h.exists_compiler
  obtain ⟨implicit, himplicit, hheaders⟩ := exists_headers hcompiler.headers
  have hlanguage : v.field "language" = .ok (.string language) := by
    rw [← Json.lookup_eq_ok (by simp), h.language, hl]
    rfl
  have htruthy : (Json.string path).isTruthy = true := by
    obtain ⟨c, rest, rfl⟩ := List.exists_cons_of_ne_nil hp
    rfl
  have hparts : ∀ layout, Toolchain.ofParts v w path layout =
      .ok ⟨.string language, path, e.compiler.version.getD (.string []), layout.toolset,
        layout.host, layout.target,
        e.compiler.headers.map fun header => ⟨.string header, true⟩⟩ := by
    intro layout
    obtain ⟨directories, hdirectories, hlisted⟩ := Steps.bind_eq_ok.1 hheaders
    rw [Toolchain.ofParts]
    simp only [Steps.bind_eq_ok]
    refine ⟨_, himplicit, _, hdirectories, _, hlanguage, _, hcompiler.version, _, hlisted, ?_⟩
    rw [List.map_map]
    rfl
  rw [Toolchain.ofReply, hw]
  change (Configuration.step (w.lookup "path") >>= _) = _
  rw [hcompiler.path, hpath]
  change (if !(Json.string path).isTruthy then _ else _) = _
  rw [htruthy]
  change (match Layout.ofPath path with
    | .error error => _
    | .ok layout => Configuration.step (Toolchain.ofParts v w path layout)) = _
  cases Layout.ofPath path with
  | error error => rfl
  | ok layout =>
    change Configuration.step (Toolchain.ofParts v w path layout) = _
    rw [hparts]
    rfl

/-- **What an entry for a language is read as.** -/
theorem DescribedBy.ofReply_eq_ok_iff (h : e.DescribedBy v) (hl : e.language = some language) :
    Toolchain.ofReply v = .ok t ↔ e.Yields language t := by
  by_cases hp : ∀ path, e.compiler.path = some path → path = []
  · rw [h.ofReply_of_no_path hl hp]
    exact iff_of_false (fun h => nomatch h) (Fails.path hp).not_yields
  · push Not at hp
    obtain ⟨path, hpath, hp⟩ := hp
    rw [h.ofReply_of_path hl hpath hp]
    constructor
    · intro hread
      split at hread
      · cases hread
      · obtain rfl := Except.ok.inj hread
        exact ⟨rfl, hpath, ‹_›, rfl, rfl⟩
    · rintro ⟨hlanguage, hcompiler, hlayout, hversion, hheaders⟩
      obtain rfl := Option.some.inj (hpath.symm.trans hcompiler)
      rw [hlayout]
      cases t
      simp_all

theorem DescribedBy.ofReply_eq_error_iff (h : e.DescribedBy v) (hl : e.language = some language)
    {fault : Fault} : Toolchain.ofReply v = .error fault ↔
      ∃ cause, e.Fails language cause ∧ fault = .failure (.toolchain cause) := by
  by_cases hp : ∀ path, e.compiler.path = some path → path = []
  · rw [h.ofReply_of_no_path hl hp]
    constructor
    · rintro ⟨⟩
      exact ⟨_, .path hp, rfl⟩
    · rintro ⟨cause, hfails, rfl⟩
      cases hfails with
      | path => rfl
      | layout hpath hne => exact absurd (hp _ hpath) hne
  · push Not at hp
    obtain ⟨path, hpath, hp⟩ := hp
    rw [h.ofReply_of_path hl hpath hp]
    constructor
    · intro hread
      split at hread
      · obtain rfl := Except.error.inj hread
        exact ⟨_, .layout hpath hp ‹_›, rfl⟩
      · cases hread
    · rintro ⟨cause, hfails, rfl⟩
      cases hfails with
      | path hnone => exact absurd (hnone path hpath) hp
      | layout hpath' _ hlayout =>
        obtain rfl := Option.some.inj (hpath.symm.trans hpath')
        rw [hlayout]

/-! ## The search for one language -/

variable {items : List Json} {found : Toolchains} {fault : Fault}

theorem search_eq_ok_iff (h : List.Forall₂ DescribedBy items entries) :
    Toolchain.search language items = .ok found ↔
      (first? language entries = none ∧ found = []) ∨
        ∃ e t, first? language entries = some e ∧ e.Yields language t ∧
          found = [(language, t)] := by
  induction h with
  | nil =>
    constructor
    · rintro ⟨⟩
      exact .inl ⟨rfl, rfl⟩
    · rintro (⟨-, rfl⟩ | ⟨e, t, h, -⟩)
      · rfl
      · cases h
  | @cons v e rest entries hv _ ih =>
    rw [Toolchain.search_cons, hv.serves_eq_ok, first?_cons]
    by_cases hfor : e.IsFor language
    · rw [decide_eq_true hfor, if_pos hfor]
      change (Toolchain.ofReply v >>= fun t => .ok [(language, t)]) = _ ↔ _
      rw [Steps.bind_eq_ok]
      constructor
      · rintro ⟨t, ht, ⟨⟩⟩
        exact .inr ⟨e, t, rfl, (hv.ofReply_eq_ok_iff hfor.1).1 ht, rfl⟩
      · rintro (⟨⟨⟩, -⟩ | ⟨e', t, he, ht, rfl⟩)
        obtain rfl := Option.some.inj he
        exact ⟨t, (hv.ofReply_eq_ok_iff hfor.1).2 ht, rfl⟩
    · rw [decide_eq_false hfor, if_neg hfor]
      exact ih

theorem search_eq_error_iff (h : List.Forall₂ DescribedBy items entries) :
    Toolchain.search language items = .error fault ↔
      ∃ e cause, first? language entries = some e ∧ e.Fails language cause ∧
        fault = .failure (.toolchain cause) := by
  induction h with
  | nil =>
    refine iff_of_false (fun h => nomatch h) ?_
    rintro ⟨e, cause, ⟨⟩, -⟩
  | @cons v e rest entries hv _ ih =>
    rw [Toolchain.search_cons, hv.serves_eq_ok, first?_cons]
    by_cases hfor : e.IsFor language
    · rw [decide_eq_true hfor, if_pos hfor]
      change (Toolchain.ofReply v >>= fun t => .ok [(language, t)]) = _ ↔ _
      rw [Steps.bind_eq_error, or_iff_left (by rintro ⟨_, -, ⟨⟩⟩), hv.ofReply_eq_error_iff hfor.1]
      constructor
      · rintro ⟨cause, hfails, hfault⟩
        exact ⟨e, cause, rfl, hfails, hfault⟩
      · rintro ⟨e', cause, he, hfails, hfault⟩
        obtain rfl := Option.some.inj he
        exact ⟨cause, hfails, hfault⟩
    · rw [decide_eq_false hfor, if_neg hfor]
      exact ih

/-- **The search depends only on the entry that counts.** -/
theorem search_congr {items' : List Json} (h : List.Forall₂ DescribedBy items entries)
    (h' : List.Forall₂ DescribedBy items' others)
    (hfirst : first? language entries = first? language others) :
    Toolchain.search language items = Toolchain.search language items' := by
  cases hsearch : Toolchain.search language items with
  | ok found =>
    have hfound := (search_eq_ok_iff h).1 hsearch
    rw [hfirst] at hfound
    exact ((search_eq_ok_iff h').2 hfound).symm
  | error fault =>
    have hfault := (search_eq_error_iff h).1 hsearch
    rw [hfirst] at hfault
    exact ((search_eq_error_iff h').2 hfault).symm

/-! ## Lists whose entries count alike -/

/-- **One step of rearranging a list**: to insert an entry that counts for no language, since it is
for none or another one for that language stands before it; or to swap two neighbours that are not
for the same language. -/
inductive Rearranged : List ToolchainEntry → List ToolchainEntry → Prop
  | insert {before after : List ToolchainEntry} {e : ToolchainEntry}
      (h : ∀ language ∈ Toolchain.languages, e.IsFor language →
        ∃ other ∈ before, other.IsFor language) :
      Rearranged (before ++ after) (before ++ e :: after)
  | swap {before after : List ToolchainEntry} {e other : ToolchainEntry}
      (h : ∀ language ∈ Toolchain.languages, e.IsFor language → ¬other.IsFor language) :
      Rearranged (before ++ e :: other :: after) (before ++ other :: e :: after)

theorem Rearranged.first?_eq (h : Rearranged entries others)
    (hl : language ∈ Toolchain.languages) : first? language entries = first? language others := by
  cases h with
  | @insert before after e h =>
    by_cases hfor : e.IsFor language
    · obtain ⟨other, hother, hserves⟩ := h language hl hfor
      have hbefore : (first? language before).isSome := isSome_first?_iff.2 ⟨other, hother, hserves⟩
      rw [first?, List.find?_append, first?, List.find?_append]
      exact (Option.or_of_isSome hbefore).trans (Option.or_of_isSome hbefore).symm
    · rw [first?, List.find?_append, first?, List.find?_append]
      refine congrArg _ ?_
      change first? language after = first? language (e :: after)
      rw [first?_cons, if_neg hfor]
  | @swap before after e other h =>
    rw [first?, List.find?_append, first?, List.find?_append]
    refine congrArg _ ?_
    change first? language (e :: other :: after) = first? language (other :: e :: after)
    simp only [first?_cons]
    by_cases hfor : e.IsFor language
    · rw [if_pos hfor, if_neg (h language hl hfor), if_pos hfor]
    · rw [if_neg hfor, if_neg hfor]

/-- **Rearranging a list** changes no entry that counts. -/
theorem first?_eq_of_eqvGen (h : Relation.EqvGen Rearranged entries others)
    (hl : language ∈ Toolchain.languages) : first? language entries = first? language others := by
  induction h with
  | rel _ _ h => exact h.first?_eq hl
  | refl => rfl
  | symm _ _ _ ih => exact ih.symm
  | trans _ _ _ _ _ hxy hyz => exact hxy.trans hyz

end ToolchainEntry

/-! ## The toolchains of a reply -/

namespace Toolchains

open ToolchainEntry

variable {d : Disk} {path : Text} {document : Json} {entries : List ToolchainEntry}
  {found : Toolchains} {fault : Fault}

/-- **The toolchains of listed entries**: one for each language that an entry is for, and that is
the one which the entry that counts yields. -/
structure Resolves (entries : List ToolchainEntry) (toolchains : Toolchains) : Prop where
  nonempty : toolchains ≠ []
  languages : toolchains.map Prod.fst =
    Toolchain.languages.filter fun language => ∃ e ∈ entries, e.IsFor language
  yields : ∀ t ∈ toolchains, ∃ e, first? t.1 entries = some e ∧ e.Yields t.1 t.2

/-- **Why listed entries are refused**: none is for a language, or the one that counts fails, at the
first language for which it does. -/
inductive Refuses (entries : List ToolchainEntry) : ToolchainCause → Prop
  | noneUsable (h : ∀ language ∈ Toolchain.languages, ∀ e ∈ entries, ¬e.IsFor language) :
      Refuses entries .noneUsable
  | entry {cause : ToolchainCause}
      (h : Steps.First
        (fun language => ∀ e, first? language entries = some e → ∃ t, e.Yields language t)
        (fun language => ∃ e, first? language entries = some e ∧ e.Fails language cause)
        Toolchain.languages) : Refuses entries cause

/-- **The host of a toolchain** is one that a directory can be named for. -/
theorem Resolves.host_mem (h : Resolves entries found) {t : Text × Toolchain} (ht : t ∈ found) :
    t.2.host ∈ Layout.hosts := by
  obtain ⟨e, -, hyields⟩ := h.yields t ht
  exact (Layout.ofPath_eq_ok_iff.1 hyields.layout).1

/-- The entry that counts for a language, if any, yields a toolchain or fails. -/
theorem passes_or_stops (language : Text) :
    (∀ e, first? language entries = some e → ∃ t, e.Yields language t) ∨
      ∃ cause e, first? language entries = some e ∧ e.Fails language cause := by
  rw [or_iff_not_imp_left]
  intro hnot
  push Not at hnot
  obtain ⟨e, he, hnot⟩ := hnot
  rcases e.exists_yields_or_fails language with ⟨t, ht⟩ | ⟨cause, hfails⟩
  · exact absurd ht (hnot t)
  · exact ⟨cause, e, he, hfails⟩

/-- **Listed entries are refused** if none is for a language, or one that counts fails. -/
theorem exists_refuses_iff : (∃ cause, Refuses entries cause) ↔
    (∀ language ∈ Toolchain.languages, ∀ e ∈ entries, ¬e.IsFor language) ∨
      ∃ language ∈ Toolchain.languages, ∃ e, first? language entries = some e ∧
        ∃ cause, e.Fails language cause := by
  constructor
  · rintro ⟨cause, h | h⟩
    · exact .inl ‹_›
    · obtain ⟨language, hl, e, he, hfails⟩ := h.exists
      exact .inr ⟨language, hl, e, he, cause, hfails⟩
  · rintro (h | ⟨language, hl, e, he, cause, hfails⟩)
    · exact ⟨_, .noneUsable h⟩
    · -- a language before it may stop the search already
      obtain ⟨cause, h⟩ := Steps.exists_first passes_or_stops hl
        fun hpasses => hfails.not_yields (hpasses e he).choose_spec
      exact ⟨cause, .entry h⟩

variable {items : List Json} {languages : List Text}

/-- The toolchains for languages are those for the first, and those for the rest. -/
theorem flatten_mapM_cons_eq_ok {f : Text → Except Fault Toolchains} {l : Text} :
    ((l :: languages).mapM f).map List.flatten = .ok found ↔
      ∃ part, f l = .ok part ∧ ∃ rest, (languages.mapM f).map List.flatten = .ok rest ∧
        found = part ++ rest := by
  simp only [List.mapM_cons, Steps.map_eq_ok, Steps.bind_eq_ok]
  constructor
  · rintro ⟨_, ⟨part, hpart, parts, hparts, ⟨⟩⟩, rfl⟩
    exact ⟨part, hpart, _, ⟨parts, hparts, rfl⟩, List.flatten_cons⟩
  · rintro ⟨part, hpart, _, ⟨parts, hparts, rfl⟩, rfl⟩
    exact ⟨_, ⟨part, hpart, parts, hparts, rfl⟩, List.flatten_cons⟩

theorem flatten_mapM_search_eq_ok_iff (h : List.Forall₂ DescribedBy items entries) :
    (languages.mapM fun l => Toolchain.search l items).map List.flatten = .ok found ↔
      found.map Prod.fst = languages.filter (fun l => ∃ e ∈ entries, e.IsFor l) ∧
        ∀ t ∈ found, ∃ e, first? t.1 entries = some e ∧ e.Yields t.1 t.2 := by
  induction languages generalizing found with
  | nil =>
    constructor
    · rintro ⟨⟩
      exact ⟨rfl, fun t ht => absurd ht List.not_mem_nil⟩
    · rintro ⟨hkeys, -⟩
      rw [List.filter_nil, List.map_eq_nil_iff] at hkeys
      rw [hkeys]
      rfl
  | cons l ls ih =>
    rw [flatten_mapM_cons_eq_ok]
    simp only [search_eq_ok_iff h]
    by_cases hfor : ∃ e ∈ entries, e.IsFor l
    · rw [List.filter_cons_of_pos (by simpa using hfor)]
      constructor
      · rintro ⟨part, ⟨hnone, -⟩ | ⟨e, t, he, ht, rfl⟩, rest, hrest, rfl⟩
        · obtain ⟨e, he, hfor⟩ := hfor
          exact absurd hfor (first?_eq_none_iff.1 hnone e he)
        · obtain ⟨hkeys, hyields⟩ := ih.1 hrest
          exact ⟨congrArg (l :: ·) hkeys, List.forall_mem_cons.2 ⟨⟨e, he, ht⟩, hyields⟩⟩
      · rintro ⟨hkeys, hyields⟩
        obtain ⟨⟨l', t⟩, rest, rfl, rfl, hrest⟩ := List.map_eq_cons_iff.1 hkeys
        obtain ⟨⟨e, he, ht⟩, hyields⟩ := List.forall_mem_cons.1 hyields
        exact ⟨_, .inr ⟨e, t, he, ht, rfl⟩, rest, ih.2 ⟨hrest, hyields⟩, rfl⟩
    · rw [List.filter_cons_of_neg (by simpa using hfor), ← ih]
      have hnone : first? l entries = none :=
        first?_eq_none_iff.2 fun e he h => hfor ⟨e, he, h⟩
      constructor
      · rintro ⟨part, ⟨-, rfl⟩ | ⟨e, t, he, -⟩, rest, hrest, rfl⟩
        · exact hrest
        · cases hnone.symm.trans he
      · intro hrest
        exact ⟨[], .inl ⟨hnone, rfl⟩, found, hrest, rfl⟩

theorem ofReply_eq_of_mayList (h : document.MayList "toolchains" DescribedBy entries) :
    ∃ items, List.Forall₂ DescribedBy items entries ∧
      ofReply document = (Toolchain.languages.mapM fun l => Toolchain.search l items) >>=
        fun parts => match parts.flatten with
          | [] => .error (.failure (.toolchain .noneUsable))
          | toolchains => .ok toolchains := by
  obtain ⟨o, items, hlookup, hitems, -, hall⟩ := h.exists_items
  refine ⟨items, hall, ?_⟩
  have hentries : entriesOf document = .ok items := by
    rw [entriesOf, hlookup]
    change (o.getD (.array [])).iterate = _
    rw [hitems]
    rfl
  have hsearch : forLanguage document = fun l => Toolchain.search l items := by
    funext l
    rw [forLanguage_eq, hentries]
    rfl
  rw [ofReply, hsearch]
  refine Steps.bind_congr fun parts _ => ?_
  cases parts.flatten <;> rfl

/-- **What a reply resolves to.** -/
theorem ofReply_eq_ok_iff (h : document.MayList "toolchains" DescribedBy entries) :
    ofReply document = .ok found ↔ Resolves entries found := by
  obtain ⟨items, hitems, hreply⟩ := ofReply_eq_of_mayList h
  rw [hreply, Steps.bind_eq_ok]
  constructor
  · rintro ⟨parts, hparts, hfound⟩
    obtain ⟨hlanguages, hyields⟩ :=
      (flatten_mapM_search_eq_ok_iff hitems).1 (Steps.map_eq_ok.2 ⟨parts, hparts, rfl⟩)
    split at hfound
    · cases hfound
    · obtain rfl := Except.ok.inj hfound
      exact ⟨‹_›, hlanguages, hyields⟩
  · rintro ⟨hnonempty, hlanguages, hyields⟩
    obtain ⟨parts, hparts, rfl⟩ :=
      Steps.map_eq_ok.1 ((flatten_mapM_search_eq_ok_iff hitems).2 ⟨hlanguages, hyields⟩)
    refine ⟨parts, hparts, ?_⟩
    split
    · exact absurd ‹_› hnonempty
    · rfl

/-- **Why a reply is refused.** -/
theorem ofReply_eq_error_iff (h : document.MayList "toolchains" DescribedBy entries) :
    ofReply document = .error fault ↔
      ∃ cause, Refuses entries cause ∧ fault = .failure (.toolchain cause) := by
  obtain ⟨items, hitems, hreply⟩ := ofReply_eq_of_mayList h
  rw [hreply, Steps.bind_eq_error, Steps.mapM_eq_error]
  constructor
  · rintro (hfirst | ⟨parts, hparts, hempty⟩)
    · obtain ⟨l, -, hstops⟩ := hfirst.exists
      obtain ⟨_, cause, -, -, rfl⟩ := (search_eq_error_iff hitems).1 hstops
      refine ⟨cause, .entry (hfirst.mono (fun l => ?_) fun l hstops => ?_), rfl⟩
      · rintro ⟨part, hpart⟩ e he
        rcases (search_eq_ok_iff hitems).1 hpart with ⟨hnone, -⟩ | ⟨e', t, he', ht, -⟩
        · cases hnone.symm.trans he
        · obtain rfl := Option.some.inj (he'.symm.trans he)
          exact ⟨t, ht⟩
      · obtain ⟨e, cause', he, hfails, hsame⟩ := (search_eq_error_iff hitems).1 hstops
        cases hsame
        exact ⟨e, he, hfails⟩
    · split at hempty
      · obtain ⟨hlanguages, -⟩ := (flatten_mapM_search_eq_ok_iff hitems).1
          (Steps.map_eq_ok.2 ⟨parts, hparts, ‹_›⟩)
        refine ⟨_, .noneUsable fun l hl e he hfor => ?_, (Except.error.inj hempty).symm⟩
        exact List.filter_eq_nil_iff.1 hlanguages.symm l hl (decide_eq_true ⟨e, he, hfor⟩)
      · cases hempty
  · rintro ⟨cause, h | hfirst, rfl⟩
    · right
      have hlanguages : Toolchain.languages.filter (fun l => ∃ e ∈ entries, e.IsFor l) = [] :=
        List.filter_eq_nil_iff.2 fun l hl hsome => by
          obtain ⟨e, he, hfor⟩ := of_decide_eq_true hsome
          exact h l hl e he hfor
      have hnone : (Toolchain.languages.mapM fun l => Toolchain.search l items).map List.flatten =
          .ok [] :=
        (flatten_mapM_search_eq_ok_iff hitems).2
          ⟨hlanguages.symm, fun t ht => absurd ht List.not_mem_nil⟩
      obtain ⟨parts, hparts, hempty⟩ := Steps.map_eq_ok.1 hnone
      refine ⟨parts, hparts, ?_⟩
      rw [hempty]
    · refine .inl (hfirst.mono (fun l hyields => ?_) fun l => ?_)
      · cases he : first? l entries with
        | none => exact ⟨[], (search_eq_ok_iff hitems).2 (.inl ⟨he, rfl⟩)⟩
        | some e =>
          obtain ⟨t, ht⟩ := hyields e he
          exact ⟨_, (search_eq_ok_iff hitems).2 (.inr ⟨e, t, he, ht, rfl⟩)⟩
      · rintro ⟨e, he, hfails⟩
        exact (search_eq_error_iff hitems).2 ⟨e, cause, he, hfails, rfl⟩

theorem load_of_read (hread : ReplyFile.read d path = .ok document) :
    load d (some path) = ofReply document := by
  obtain ⟨hpath, hthere⟩ := CompileUnit.isThere_of_read hread
  rw [load, Option.getD_some, if_neg (by simp [hpath, hthere]), hread]
  rfl

/-- **Entries that count alike** resolve to the same, and are refused alike. -/
theorem ofReply_congr {document' : Json} {others : List ToolchainEntry}
    (h : document.MayList "toolchains" DescribedBy entries)
    (h' : document'.MayList "toolchains" DescribedBy others)
    (hfirst : ∀ l ∈ Toolchain.languages, first? l entries = first? l others) :
    ofReply document = ofReply document' := by
  obtain ⟨items, hitems, hreply⟩ := ofReply_eq_of_mayList h
  obtain ⟨items', hitems', hreply'⟩ := ofReply_eq_of_mayList h'
  rw [hreply, hreply', Steps.mapM_congr fun l hl => search_congr hitems hitems' (hfirst l hl)]

/-- **The toolchains of a build** are those that the listed entries resolve to: for each language
the one that the first entry for it yields.  They are refused if no entry is for a language, or the
first one for it has no path, or none with a layout.  Nothing else in the list matters. -/
theorem load_resolves (hread : ReplyFile.read d path = .ok document)
    (h : document.MayList "toolchains" DescribedBy entries) :
    ((∀ found, load d (some path) = .ok found ↔ Resolves entries found) ∧
      ∀ found, Resolves entries found → ∀ t ∈ found, t.2.host ∈ Layout.hosts) ∧
    ((∀ fault, load d (some path) = .error fault ↔
        ∃ cause, Refuses entries cause ∧ fault = .failure (.toolchain cause)) ∧
      ((∃ cause, Refuses entries cause) ↔
        (∀ language ∈ Toolchain.languages, ∀ e ∈ entries, ¬e.IsFor language) ∨
          ∃ language ∈ Toolchain.languages, ∃ e, first? language entries = some e ∧
            ∃ cause, e.Fails language cause)) ∧
    ∀ (d' : Disk) (path' : Text) (document' : Json) (others : List ToolchainEntry),
      ReplyFile.read d' path' = .ok document' →
      document'.MayList "toolchains" DescribedBy others →
      Relation.EqvGen Rearranged entries others →
      load d' (some path') = load d (some path) := by
  rw [load_of_read hread]
  refine ⟨⟨fun found => ofReply_eq_ok_iff h, fun found hfound t ht => hfound.host_mem ht⟩,
    ⟨fun fault => ofReply_eq_error_iff h, exists_refuses_iff⟩, ?_⟩
  intro d' path' document' others hread' h' hrearranged
  rw [load_of_read hread']
  exact (ofReply_congr h h' fun l hl => first?_eq_of_eqvGen hrearranged hl).symm

/-! ### A reply with entries that do not count -/

/-- An entry for a compiler with some members. -/
def listedEntry (language id : Text) (members : Json.Members) : Json :=
  .object [("language", .string language), ("compiler", .object (("id", .string id) :: members))]

/-- A reply whose entry for C stands between one for another compiler and one that comes too
late. -/
def mixedDocument : Json := .object [("toolchains", .array [listedEntry "CXX" "GNU" [],
  listedEntry "C" "MSVC" [("path", .string "/m/T/bin/Hostx64/x64/cl.exe"),
    ("implicit", .object [("includeDirectories", .array [.string "i"])])],
  listedEntry "C" "MSVC" []])]

/-- What it lists. -/
def mixedEntries : List ToolchainEntry := [⟨some "CXX", { id := some "GNU" }⟩,
  ⟨some "C", { id := some "MSVC", path := some "/m/T/bin/Hostx64/x64/cl.exe", headers := ["i"] }⟩,
  ⟨some "C", { id := some "MSVC" }⟩]

def mixedDisk : Disk := ⟨[], [(["t"], .file (Utf8.encode mixedDocument.write))]⟩

theorem mayList_mixedDocument :
    mixedDocument.MayList "toolchains" DescribedBy mixedEntries :=
  .inr ⟨_, rfl, .cons ⟨rfl, .inr ⟨_, rfl, rfl, rfl, rfl, .silent rfl⟩⟩
    (.cons ⟨rfl, .inr ⟨_, rfl, rfl, rfl, rfl, .listed rfl rfl⟩⟩
    (.cons ⟨rfl, .inr ⟨_, rfl, rfl, rfl, rfl, .silent rfl⟩⟩ .nil))⟩

/-- The entry that stands between the others is the one that is used. -/
theorem load_resolves_mixedDisk :
    load mixedDisk (some "/t") = .ok [("C", ⟨.string "C", "/m/T/bin/Hostx64/x64/cl.exe",
      .string [], "T", "x64", "x64", [⟨.string "i", true⟩]⟩)] := by
  have hread : ReplyFile.read mixedDisk "/t" = .ok mixedDocument :=
    CompileUnit.read_of_look? (by simp +decide [mixedDocument, listedEntry])
      (by simp [mixedDocument, listedEntry]) rfl
  obtain ⟨⟨hload, -⟩, -⟩ := load_resolves hread mayList_mixedDocument
  refine (hload _).2 ⟨List.cons_ne_nil _ _, by decide, List.forall_mem_singleton.2 ?_⟩
  exact ⟨_, rfl, rfl, rfl, by decide +kernel, rfl, rfl⟩

end Toolchains

end BuildLint
