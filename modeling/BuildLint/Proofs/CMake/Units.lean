import BuildLint.Proofs.CMake.Configuration
import BuildLint.Proofs.Disk.Paths
import BuildLint.Proofs.Json.RoundTrip

/-!
# Proofs/CMake/Units — the units of a build

One configuration is chosen by name before any target is looked at; if the name fits none, the
choice fails and no reply of a target matters (`selection_cases`).  Then the targets are gone
through in order, those in excluded directories without a look at their replies
(`ofEntry_of_isCovered`), and each of the others adds its units (`ofEntry_of_read`).

* `load_spec` — which failure a name leads to, and which units a build has otherwise.
-/

namespace BuildLint

namespace CompileUnit

open BuildConfiguration

variable {d : Disk} {doc v : Json} {m : CodeModel} {root path : Text} {excluded : List Text}

/-! ## The choice in a code model -/

/-- **The selected configuration of a code model**: there is none, none fits the name, or the one
that fits is selected with its directories and targets. -/
theorem selection_cases (h : m.DescribedBy doc) (name : Option Text) :
    (m.configurations = [] ∧
      selection doc name = .error (.failure (.metadata .noConfigurations))) ∨
    (NoneFits (name.getD []) m.configurations ∧
      ∃ cause, selection doc name = .error (.failure (.configuration cause))) ∨
    ∃ c directories targets, Fits (name.getD []) m.configurations c ∧
      selection doc name = .ok ⟨.string m.root, .array directories, .array targets⟩ ∧
      List.Forall₂ (Json.Names "source") directories c.directories ∧
      List.Forall₂ TargetReference.DescribedBy targets c.targets := by
  obtain ⟨paths, hpaths, hroot⟩ := h.root
  obtain ⟨items, hitems, hall⟩ := h.configurations
  have hselection : selection doc name = Except.mapError codemodelFault do
      let selected ← Configuration.select (.array items) name
      let directories ← Configuration.step (selected.field "directories")
      let targets ← Configuration.step (selected.field "targets")
      return ⟨.string m.root, directories, targets⟩ := by
    rw [Json.Names] at hroot
    simp only [selection, hpaths, hroot, hitems, bind, Except.bind]
    rfl
  rcases Configuration.select_cases hall name with
    ⟨hnil, hselect⟩ | ⟨hnone, cause, hselect⟩ | ⟨c, v, hfits, hc, hselect⟩
  · rw [hselection, hselect]
    exact .inl ⟨hnil, rfl⟩
  · rw [hselection, hselect]
    exact .inr (.inl ⟨hnone, cause, rfl⟩)
  · obtain ⟨directories, hdirectories, hdirs⟩ := hc.directories
    obtain ⟨targets, htargets, hrefs⟩ := hc.targets
    refine .inr (.inr ⟨c, directories, targets, hfits, ?_, hdirs, hrefs⟩)
    simp only [hselection, hselect, hdirectories, htargets, bind, Except.bind]
    rfl

/-! ## One target -/

/-- **A target in an excluded directory** has no units, whatever its reply is. -/
theorem ofEntry_of_isCovered {dirs : List Text} {directories : List Json}
    (hdirs : List.Forall₂ (Json.Names "source") directories dirs)
    {t : TargetReference dirs.length} (h : t.DescribedBy v)
    (hcovered : Path.isCovered excluded (t.directoryPath root) = true) (base : Text) :
    ofEntry d base excluded (.string root) (.array directories) v = .ok [] := by
  rw [ofEntry, targetEntry_eq_ok hdirs h]
  exact if_pos hcovered

/-- **Any other target** has the units of its reply. -/
theorem ofEntry_of_read {dirs : List Text} {directories : List Json}
    (hdirs : List.Forall₂ (Json.Names "source") directories dirs)
    {t : TargetReference dirs.length} (h : t.DescribedBy v)
    (hcovered : Path.isCovered excluded (t.directoryPath root) = false)
    {base : Text} {w : Json} (hread : ReplyFile.read d (Path.below base t.file) = .ok w)
    {reply : TargetReply} (hreply : reply.DescribedBy w) :
    ofEntry d base excluded (.string root) (.array directories) v = .ok (reply.units root) := by
  rw [ofEntry, targetEntry_eq_ok hdirs h]
  simp only [hcovered, Bool.false_eq_true, if_false, hread, bind, Except.bind,
    ofTarget_eq_ok hreply]
  rfl

/-- A fault in a reply file is one of the build data, unless the file holds no text or a number is
too long. -/
theorem fault_of_read {fault : Fault} (h : ReplyFile.read d path = .error fault) :
    (∃ cause, fault = .failure (.metadata cause)) ∨ fault = .notText ∨ fault = .badNumber := by
  rw [ReplyFile.read] at h
  split at h
  · cases h
    exact .inl ⟨_, rfl⟩
  split at h
  · cases h
    exact .inl ⟨_, rfl⟩
  · cases h
    exact .inr (.inl rfl)
  split at h
  · cases h
  split at h
  · cases h
    exact .inr (.inr rfl)
  · cases h
    exact .inl ⟨_, rfl⟩

/-- No failure of the settings comes from a target. -/
theorem ofEntry_ne_configuration (base : Text) (root directories entry : Json)
    (cause : ConfigurationCause) :
    ofEntry d base excluded root directories entry ≠ .error (.failure (.configuration cause)) := by
  rw [ofEntry]
  split
  · exact fun h => nomatch h
  split
  · exact fun h => nomatch h
  split
  · intro h
    rename_i file _
    cases hread : ReplyFile.read d (Path.below base file) with
    | error fault =>
      rw [hread] at h
      cases h
      rcases fault_of_read hread with ⟨_, h⟩ | h | h <;> cases h
    | ok document =>
      simp only [hread, bind, Except.bind] at h
      split at h <;> cases h
  · exact fun h => nomatch h

/-! ## All targets -/

/-- A code model that is read from a file has a path, and the file is there. -/
theorem isThere_of_read (h : ReplyFile.read d path = .ok doc) :
    path ≠ [] ∧ d.isThere (Path.tidy path) = true := by
  rw [ReplyFile.read] at h
  split at h
  · cases h
  · have hthere : d.isThere (Path.tidy path) = true := by simpa using ‹¬(!_) = true›
    refine ⟨?_, hthere⟩
    rintro rfl
    have htidy : Path.tidy [] = "." := rfl
    rw [htidy, Disk.readText] at h
    cases hbytes : d.readBytes "." with
    | error fault =>
      rw [hbytes] at h
      cases h
    | ok content => exact Disk.readBytes_dot_ne_ok d content hbytes

/-- **Loading units** from a code model that can be read: the choice, and then target by target. -/
theorem load_of_read (h : ReplyFile.read d path = .ok doc) (name : Option Text) :
    load d path name excluded = do
      let chosen ← selection doc name
      let entries ← Configuration.step chosen.targets.iterate
      let units ← entries.mapM
        (ofEntry d (Path.tidyParent path) excluded chosen.root chosen.directories)
      return units.flatten := by
  obtain ⟨hpath, hthere⟩ := isThere_of_read h
  simp [load, hpath, hthere, h, bind, Except.bind]

end CompileUnit

namespace BuildConfiguration

/-- The targets that are analysed: those whose directory is neither excluded nor below an excluded
one. -/
def analysed (root : Text) (excluded : List Text) (c : BuildConfiguration) :
    List (TargetReference c.directories.length) :=
  c.targets.filter fun t => !Path.isCovered excluded (t.directoryPath root)

/-- **The units of a configuration**, by the replies of its targets: target by target, group by
group, source by source. -/
def units (root : Text) (excluded : List Text) (reply : Text → TargetReply)
    (c : BuildConfiguration) : List CompileUnit :=
  (c.analysed root excluded).flatMap fun t => (reply t.file).units root

end BuildConfiguration

namespace CompileUnit

open BuildConfiguration

variable {d : Disk} {doc : Json} {m : CodeModel} {path : Text}

/-- Going through a list with nothing for some entries is leaving these out. -/
theorem flatten_map_ite {α β : Type} (skip : α → Bool) (f : α → List β) (l : List α) :
    (l.map fun a => if skip a then [] else f a).flatten =
      (l.filter fun a => !skip a).flatMap f := by
  induction l with
  | nil => rfl
  | cons a l ih => cases h : skip a <;> simp [h, ih]

/-- The choice decides what loading fails with, before any target. -/
theorem load_of_selection_eq_error {name : Option Text} {fault : Fault}
    (hread : ReplyFile.read d path = .ok doc) (h : selection doc name = .error fault)
    (excluded : List Text) : load d path name excluded = .error fault := by
  rw [load_of_read hread, h]
  rfl

section

variable {name : Option Text} {excluded : List Text} {c : BuildConfiguration}
  {directories targets : List Json} (hread : ReplyFile.read d path = .ok doc)
  (hselection : selection doc name = .ok ⟨.string m.root, .array directories, .array targets⟩)

include hread hselection

/-- Once a configuration is chosen, the targets follow in order. -/
theorem load_of_selection : load d path name excluded = do
    let units ← targets.mapM
      (ofEntry d (Path.tidyParent path) excluded (.string m.root) (.array directories))
    return units.flatten := by
  rw [load_of_read hread, hselection]
  rfl

/-- Once a configuration is chosen, the settings do not fail. -/
theorem load_ne_configuration (cause : ConfigurationCause) :
    load d path name excluded ≠ .error (.failure (.configuration cause)) := by
  intro h
  rw [load_of_selection hread hselection] at h
  cases hunits : targets.mapM
      (ofEntry d (Path.tidyParent path) excluded (.string m.root) (.array directories)) with
  | error fault =>
    rw [hunits] at h
    cases h
    obtain ⟨entry, -, hentry⟩ := Steps.exists_of_mapM_eq_error hunits
    exact ofEntry_ne_configuration _ _ _ _ _ hentry
  | ok units =>
    rw [hunits] at h
    cases h

/-- **The targets add their units** in order, except those in excluded directories. -/
theorem load_eq_ok (hdirs : List.Forall₂ (Json.Names "source") directories c.directories)
    (htargets : List.Forall₂ TargetReference.DescribedBy targets c.targets)
    {reply : Text → TargetReply} (hreply : ∀ t ∈ c.analysed m.root excluded, ∃ v,
      ReplyFile.read d (Path.below (Path.tidyParent path) t.file) = .ok v ∧
        (reply t.file).DescribedBy v) :
    load d path name excluded = .ok (c.units m.root excluded reply) := by
  let covered (t : TargetReference c.directories.length) : Bool :=
    Path.isCovered excluded (t.directoryPath m.root)
  have hentries : targets.mapM
      (ofEntry d (Path.tidyParent path) excluded (.string m.root) (.array directories)) =
      .ok (c.targets.map fun t => if covered t then [] else (reply t.file).units m.root) := by
    refine Steps.mapM_eq_ok_of_forall₂ htargets ?_
    intro v t ht hv
    cases hcovered : covered t with
    | true => exact ofEntry_of_isCovered hdirs hv hcovered _
    | false =>
      have hanalysed : t ∈ c.analysed m.root excluded :=
        List.mem_filter.2 ⟨ht, by simpa [covered] using hcovered⟩
      obtain ⟨w, hw, hdescribed⟩ := hreply t hanalysed
      exact ofEntry_of_read hdirs hv hcovered hw hdescribed
  rw [load_of_selection hread hselection, hentries]
  exact congrArg Except.ok (flatten_map_ite covered _ _)

end

/-- **The units of a build.**  A code model without configurations is unusable build data.  The
settings fail exactly if no configuration fits the given name, and they fail so on every disk that
holds the same code model, whatever the replies of the targets are.  Otherwise the configuration
that fits is chosen, and if the analysed targets have replies as documented, the build has the units
of these replies. -/
theorem load_spec (hread : ReplyFile.read d path = .ok doc) (hmodel : m.DescribedBy doc)
    (name : Option Text) (excluded : List Text) :
    (m.configurations = [] →
      load d path name excluded = .error (.failure (.metadata .noConfigurations))) ∧
    ((∃ cause, load d path name excluded = .error (.failure (.configuration cause))) ↔
      NoneFits (name.getD []) m.configurations) ∧
    (NoneFits (name.getD []) m.configurations → ∀ e, ReplyFile.read e path = .ok doc →
      load e path name excluded = load d path name excluded) ∧
    (m.configurations ≠ [] → ¬NoneFits (name.getD []) m.configurations →
      ∃ c, Fits (name.getD []) m.configurations c ∧ ∀ reply : Text → TargetReply,
        (∀ t ∈ c.analysed m.root excluded, ∃ v,
          ReplyFile.read d (Path.below (Path.tidyParent path) t.file) = .ok v ∧
            (reply t.file).DescribedBy v) →
        load d path name excluded = .ok (c.units m.root excluded reply)) := by
  rcases selection_cases hmodel name with
    ⟨hnil, hselection⟩ | ⟨hnone, cause, hselection⟩ |
      ⟨c, directories, targets, hfits, hselection, hdirs, htargets⟩
  · -- there is no configuration
    have hload := load_of_selection_eq_error hread hselection excluded
    have hfit : ¬NoneFits (name.getD []) m.configurations := hnil ▸ not_noneFits_nil
    refine ⟨fun _ => hload, iff_of_false ?_ hfit, fun h => absurd h hfit, fun h => absurd hnil h⟩
    rintro ⟨cause, h⟩
    rw [hload] at h
    cases h
  · -- none fits the name
    have hload := load_of_selection_eq_error hread hselection excluded
    refine ⟨fun h => absurd hnone (h ▸ not_noneFits_nil), iff_of_true ⟨cause, hload⟩ hnone, ?_,
      fun _ h => absurd hnone h⟩
    intro _ e he
    rw [hload, load_of_selection_eq_error he hselection excluded]
  · -- one is chosen
    refine ⟨fun h => absurd h (List.ne_nil_of_mem hfits.mem), iff_of_false ?_ hfits.not_noneFits,
      fun h => absurd h hfits.not_noneFits, ?_⟩
    · rintro ⟨cause, h⟩
      exact load_ne_configuration hread hselection cause h
    · intro _ _
      exact ⟨c, hfits, fun reply hreply => load_eq_ok hread hselection hdirs htargets hreply⟩

/-! ### A build of two configurations -/

/-- **A document that a file holds** is read from it. -/
theorem read_of_look? (hspellable : doc.IsSpellable) (hfloat : doc.HasNoFloat)
    (h : d.look? (Path.tidy path) = some (.file (Utf8.encode doc.write))) :
    ReplyFile.read d path = .ok doc := by
  have htext : d.readText (Path.tidy path) = .ok doc.write :=
    Disk.readText_of_isPlain (Json.isPlain_write doc hfloat) (Disk.readBytes_of_look? h)
  simp [ReplyFile.read, Disk.isThere, h, htext, Json.read_write hspellable hfloat]

/-- A configuration of two targets, the second of them in a directory `z`. -/
def release : BuildConfiguration := ⟨"Release", [".", "z"], [⟨0, "a"⟩, ⟨1, "b"⟩]⟩

/-- A code model of two configurations. -/
def twoModel : CodeModel := ⟨"/s", [⟨"Debug", [], []⟩, release]⟩

/-- Its document. -/
def twoDocument : Json := .object [
  ("paths", .object [("source", .string "/s")]),
  ("configurations", .array [
    .object [("name", .string "Debug"), ("directories", .array []), ("targets", .array [])],
    .object [("name", .string "Release"),
      ("directories", .array [
        .object [("source", .string ".")], .object [("source", .string "z")]]),
      ("targets", .array [
        .object [("directoryIndex", .int 0), ("jsonFile", .string "a")],
        .object [("directoryIndex", .int 1), ("jsonFile", .string "b")]])]])]

/-- The reply of the first target: two sources, the second compiled first. -/
def twoReply : TargetReply where
  sources := ["x.c", "y.c"]
  groups := [⟨some "C", some "11", ["/O2", "/W4"], [⟨"/i", none⟩], ["D"], [1, 0]⟩]

/-- The document of that reply. -/
def twoReplyDocument : Json := .object [
  ("sources", .array [.object [("path", .string "x.c")], .object [("path", .string "y.c")]]),
  ("compileGroups", .array [.object [
    ("language", .string "C"), ("languageStandard", .object [("standard", .string "11")]),
    ("compileCommandFragments", .array [
      .object [("fragment", .string "/O2")], .object [("fragment", .string "/W4")]]),
    ("includes", .array [.object [("path", .string "/i")]]),
    ("defines", .array [.object [("define", .string "D")]]),
    ("sourceIndexes", .array [.int 1, .int 0])]])]

/-- A disk with both documents; the reply of the second target is missing. -/
def twoDisk : Disk := ⟨[], [(["r"], .directory),
  (["r", "c"], .file (Utf8.encode twoDocument.write)),
  (["r", "a"], .file (Utf8.encode twoReplyDocument.write))]⟩

theorem describedBy_twoDocument : twoModel.DescribedBy twoDocument where
  root := ⟨_, rfl, rfl⟩
  configurations := ⟨_, rfl, .cons ⟨rfl, ⟨_, rfl, .nil⟩, ⟨_, rfl, .nil⟩⟩
    (.cons ⟨rfl, ⟨_, rfl, .cons rfl (.cons rfl .nil)⟩,
      ⟨_, rfl, .cons ⟨rfl, rfl⟩ (.cons ⟨rfl, rfl⟩ .nil)⟩⟩ .nil)⟩

theorem describedBy_twoReplyDocument : twoReply.DescribedBy twoReplyDocument where
  sources := .inr ⟨_, rfl, .cons rfl (.cons rfl .nil)⟩
  groups := .inr ⟨_, rfl, .cons
    { language := rfl
      standard := .inr ⟨_, rfl, rfl⟩
      fragments := .inr ⟨_, rfl, .cons rfl (.cons rfl .nil)⟩
      includes := .inr ⟨_, rfl, .cons ⟨rfl, rfl⟩ .nil⟩
      defines := .inr ⟨_, rfl, .cons rfl .nil⟩
      indexes := .inr ⟨_, rfl, .cons rfl (.cons rfl .nil)⟩ } .nil⟩

theorem load_spec_twoDisk :
    (∃ cause, load twoDisk ("/r/c" : Text) none ["/s/z"] =
      .error (.failure (.configuration cause))) ∧
    load twoDisk ("/r/c" : Text) (some "Release") ["/s/z"] =
      .ok [⟨"/s/y.c", .string "C", "/O2 /W4", .string "11", [⟨.string "/i", false⟩], [.string "D"]⟩,
        ⟨"/s/x.c", .string "C", "/O2 /W4", .string "11", [⟨.string "/i", false⟩],
          [.string "D"]⟩] := by
  have hread : ReplyFile.read twoDisk "/r/c" = .ok twoDocument :=
    read_of_look? (by simp +decide [twoDocument]) (by simp [twoDocument]) rfl
  have hreply : ReplyFile.read twoDisk "/r/a" = .ok twoReplyDocument :=
    read_of_look? (by simp +decide [twoReplyDocument]) (by simp [twoReplyDocument]) rfl
  constructor
  · exact (load_spec hread describedBy_twoDocument none ["/s/z"]).2.1.2
      (.inl ⟨by decide, .inl rfl⟩)
  · have hrelease : Fits "Release" ([⟨"Debug", [], []⟩] ++ release :: []) release :=
      .first (by decide) (by decide) rfl (by decide)
    obtain ⟨c, hfits, hunits⟩ := (load_spec hread describedBy_twoDocument (some "Release")
      ["/s/z"]).2.2.2 (List.ne_nil_of_mem hrelease.mem) hrelease.not_noneFits
    obtain rfl := hfits.unique hrelease
    have hanalysed : release.analysed twoModel.root ["/s/z"] = release.targets.take 1 := by rfl
    refine (hunits (fun _ => twoReply) ?_).trans ?_
    · rw [hanalysed]
      intro t ht
      obtain rfl := List.mem_singleton.1 ht
      exact ⟨_, hreply, describedBy_twoReplyDocument⟩
    · rfl

end CompileUnit

end BuildLint
