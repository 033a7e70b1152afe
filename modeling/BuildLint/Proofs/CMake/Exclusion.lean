import BuildLint.Proofs.CMake.Units
import Mathlib.Data.List.Flatten

/-!
# Proofs/CMake/Exclusion — excluded targets leave no trace

Whether a target is analysed is decided by the code model alone, before the target's reply is looked
at.  So the units of a build depend on no other replies than those of the analysed targets, and
whoever excludes more directories loses whole targets and changes nothing about the others.

* `Selection.analysed` — the targets of the selected configuration that are analysed.
* `ofEntry_eq_ok_iff` — what one target adds to the units of a build.
* `load_congr` — replies of other targets do not matter.
* `exists_units_of_load` — the units that are left when more is excluded.
-/

namespace BuildLint

namespace ReplyFile

/-- **The same stands at a path** of two disks, be it nothing. -/
def SameIn (path : Text) (d e : Disk) : Prop :=
  d.look? (Path.tidy path) = e.look? (Path.tidy path)

variable {path : Text} {d e : Disk}

theorem SameIn.isThere (h : SameIn path d e) :
    d.isThere (Path.tidy path) = e.isThere (Path.tidy path) :=
  congrArg Option.isSome h

/-- A reply is read alike from disks that have the same at its path. -/
theorem SameIn.read_eq (h : SameIn path d e) : ReplyFile.read d path = ReplyFile.read e path := by
  rw [ReplyFile.read, ReplyFile.read, ← h.isThere]
  by_cases hthere : d.isThere (Path.tidy path) = true
  · have htext : d.readText (Path.tidy path) = e.readText (Path.tidy path) := by
      rw [Disk.readText, Disk.readText, Disk.readBytes_congr h hthere]
    simp only [hthere, htext]
  · simp only [hthere]
    rfl

end ReplyFile

namespace CompileUnit

open ReplyFile

variable {d e : Disk} {base : Text} {root directories v : Json} {excluded more : List Text}
  {codemodel configuration : Option Text} {s : Selection}

/-! ## The targets that are analysed -/

/-- The targets of a selection, as far as their entries can be read. -/
def Selection.entries (s : Selection) : List TargetEntry :=
  (s.targets.iterate.toOption.getD []).filterMap fun v =>
    (targetEntry s.root s.directories v).toOption

/-- **The targets that are analysed**: those whose directory is neither excluded nor below an
excluded one. -/
def Selection.analysed (s : Selection) (excluded : List Text) : List TargetEntry :=
  s.entries.filter fun t => !Path.isCovered excluded t.directory

theorem Selection.mem_analysed {items : List Json} (hitems : s.targets.iterate = .ok items)
    (hv : v ∈ items) {t : TargetEntry} (ht : targetEntry s.root s.directories v = .ok t)
    (hcovered : Path.isCovered excluded t.directory = false) : t ∈ s.analysed excluded := by
  refine List.mem_filter.2 ⟨List.mem_filterMap.2 ⟨v, ?_, ?_⟩, by rw [hcovered]; rfl⟩
  · rw [hitems]
    exact hv
  · rw [ht]
    rfl

/-- Excluding more leaves fewer targets. -/
theorem Selection.analysed_of_subset (h : excluded ⊆ more) :
    s.analysed more =
      (s.analysed excluded).filter fun t => !Path.isCovered more t.directory := by
  rw [analysed, analysed, List.filter_filter]
  refine List.filter_congr fun t _ => ?_
  have hmore : Path.isCovered excluded t.directory = true →
      Path.isCovered more t.directory = true := by
    simp only [Path.isCovered, List.any_eq_true]
    exact fun ⟨base, hbase, hbelow⟩ => ⟨base, h hbase, hbelow⟩
  cases hcovered : Path.isCovered excluded t.directory with
  | false => rw [Bool.not_false, Bool.and_true]
  | true => rw [hmore hcovered]; rfl

/-! ## One target -/

/-- **A target has units**: its reply can be read, and they are listed there. -/
def TargetEntry.HasUnits (d : Disk) (base : Text) (root : Json) (t : TargetEntry)
    (units : List CompileUnit) : Prop :=
  ∃ file reply, t.file = .string file ∧ ReplyFile.read d (Path.below base file) = .ok reply ∧
    ofTarget root reply = .ok units

/-- **What one target adds**: nothing if it is excluded, and otherwise the units that it has. -/
theorem ofEntry_eq_ok_iff {units : List CompileUnit} :
    ofEntry d base excluded root directories v = .ok units ↔
      ∃ t, targetEntry root directories v = .ok t ∧
        if Path.isCovered excluded t.directory then units = []
        else t.HasUnits d base root units := by
  rw [ofEntry]
  cases hentry : targetEntry root directories v with
  | error fault => simp
  | ok t =>
    simp only [Except.ok.injEq, exists_eq_left']
    split
    · exact ⟨fun h => (Except.ok.inj h).symm, fun h => congrArg Except.ok h.symm⟩
    · rw [TargetEntry.HasUnits]
      constructor
      · intro h
        split at h
        · obtain ⟨reply, hreply, hunits⟩ := Steps.bind_eq_ok.1 h
          split at hunits
          · cases hunits
          · obtain rfl := Except.ok.inj hunits
            exact ⟨_, reply, ‹_›, hreply, ‹_›⟩
        · cases h
      · rintro ⟨file, reply, hfile, hreply, hunits⟩
        rw [hfile]
        exact Steps.bind_eq_ok.2 ⟨reply, hreply, by rw [hunits]; rfl⟩

/-- The reply of an analysed target is all that a disk is asked for. -/
theorem ofEntry_congr (h : ∀ t, targetEntry root directories v = .ok t →
      Path.isCovered excluded t.directory = false → ∀ file, t.file = .string file →
        SameIn (Path.below base file) d e) :
    ofEntry d base excluded root directories v = ofEntry e base excluded root directories v := by
  rw [ofEntry, ofEntry]
  cases hentry : targetEntry root directories v with
  | error fault => rfl
  | ok t =>
    cases hcovered : Path.isCovered excluded t.directory with
    | true => simp only [hcovered, if_true]
    | false =>
      have hsame := h t hentry hcovered
      simp only [hcovered, Bool.false_eq_true, if_false]
      cases hfile : t.file with
      | string file => simp only [(hsame file hfile).read_eq]
      | _ => rfl

/-! ## All targets -/

/-- **The selection of a build**: that of the code model which stands on a disk. -/
def IsSelected (d : Disk) (codemodel configuration : Option Text) (s : Selection) : Prop :=
  ∃ document, ReplyFile.read d (codemodel.getD []) = .ok document ∧
    selection document configuration = .ok s

/-- The directory in which the replies of the targets stand. -/
def replyDirectory (codemodel : Option Text) : Text := Path.tidyParent (codemodel.getD [])

/-- **Only the code model and the replies of the analysed targets matter** to the units of a
build. -/
theorem load_congr (hmodel : SameIn (codemodel.getD []) d e)
    (hreplies : ∀ s, IsSelected d codemodel configuration s → ∀ t ∈ s.analysed excluded,
      ∀ file, t.file = .string file →
        SameIn (Path.below (replyDirectory codemodel) file) d e) :
    load d codemodel configuration excluded = load e codemodel configuration excluded := by
  rw [load, load, ← hmodel.isThere, ← hmodel.read_eq]
  split
  · rfl
  refine Steps.bind_congr fun document hdocument => Steps.bind_congr fun s hs =>
    Steps.bind_congr fun items hitems => ?_
  rw [Configuration.step, Steps.ok_of_mapError] at hitems
  have hentries : items.mapM (ofEntry d (replyDirectory codemodel) excluded s.root s.directories) =
      items.mapM (ofEntry e (replyDirectory codemodel) excluded s.root s.directories) := by
    refine Steps.mapM_congr fun v hv => ofEntry_congr fun t ht hcovered => ?_
    exact hreplies s ⟨document, hdocument, hs⟩ t (Selection.mem_analysed hitems hv ht hcovered)
  exact congrArg (· >>= fun units => .ok units.flatten) hentries

/-- **Loading succeeds** if a configuration can be selected and each of its targets adds units. -/
theorem load_eq_ok_iff {units : List CompileUnit} :
    load d codemodel configuration excluded = .ok units ↔
      ∃ s items parts, IsSelected d codemodel configuration s ∧ s.targets.iterate = .ok items ∧
        items.mapM (ofEntry d (replyDirectory codemodel) excluded s.root s.directories) =
          .ok parts ∧ units = parts.flatten := by
  rw [load]
  constructor
  · intro h
    split at h
    · cases h
    obtain ⟨document, hdocument, h⟩ := Steps.bind_eq_ok.1 h
    obtain ⟨s, hs, h⟩ := Steps.bind_eq_ok.1 h
    obtain ⟨items, hitems, h⟩ := Steps.bind_eq_ok.1 h
    obtain ⟨parts, hparts, h⟩ := Steps.bind_eq_ok.1 h
    exact ⟨s, items, parts, ⟨document, hdocument, hs⟩, Steps.ok_of_mapError.1 hitems, hparts,
      (Except.ok.inj h).symm⟩
  · rintro ⟨s, items, parts, ⟨document, hdocument, hs⟩, hitems, hparts, rfl⟩
    obtain ⟨hpath, hthere⟩ := isThere_of_read hdocument
    rw [if_neg (by simp [hpath, hthere])]
    refine Steps.bind_eq_ok.2 ⟨document, hdocument, Steps.bind_eq_ok.2 ⟨s, hs,
      Steps.bind_eq_ok.2 ⟨items, Steps.ok_of_mapError.2 hitems, ?_⟩⟩⟩
    exact Steps.bind_eq_ok.2 ⟨parts, hparts, rfl⟩

/-- **Loading fails** as the first target does that adds no units. -/
theorem load_eq_error_of_first {entries : List Json} {fault : Fault}
    (hs : IsSelected d codemodel configuration s) (hentries : s.targets.iterate = .ok entries)
    (h : Steps.First
      (fun v => ∃ units,
        ofEntry d (replyDirectory codemodel) excluded s.root s.directories v = .ok units)
      (fun v => ofEntry d (replyDirectory codemodel) excluded s.root s.directories v =
        .error fault) entries) :
    load d codemodel configuration excluded = .error fault := by
  obtain ⟨document, hread, hselection⟩ := hs
  refine (load_of_read hread configuration).trans ?_
  refine Steps.bind_eq_error.2 (.inr ⟨s, hselection, ?_⟩)
  refine Steps.bind_eq_error.2 (.inr ⟨entries, Steps.ok_of_mapError.2 hentries, ?_⟩)
  exact Steps.bind_eq_error.2 (.inl (Steps.mapM_eq_error.2 h))

section

variable {items : List Json} {parts : List (List CompileUnit)}
  {unitsOf : TargetEntry → List CompileUnit}

/-- If each target adds units, each has an entry that can be read. -/
theorem mapM_targetEntry (hitems : s.targets.iterate = .ok items)
    (hparts : items.mapM (ofEntry d base excluded s.root s.directories) = .ok parts) :
    items.mapM (targetEntry s.root s.directories) = .ok s.entries := by
  rw [Selection.entries, hitems]
  refine Steps.mapM_eq_ok_filterMap fun v hv => ?_
  obtain ⟨part, hpart⟩ := Steps.exists_of_mapM hparts hv
  obtain ⟨t, ht, -⟩ := ofEntry_eq_ok_iff.1 hpart
  exact ⟨t, ht⟩

/-- If each target adds units, those of each analysed one can be read. -/
theorem exists_hasUnits (hitems : s.targets.iterate = .ok items)
    (hparts : items.mapM (ofEntry d base excluded s.root s.directories) = .ok parts)
    {t : TargetEntry} (ht : t ∈ s.analysed excluded) : ∃ units, t.HasUnits d base s.root units := by
  obtain ⟨hmem, hcovered⟩ := List.mem_filter.1 ht
  rw [Bool.not_eq_true'] at hcovered
  obtain ⟨v, hv, hread⟩ := Steps.exists_of_mem_mapM (mapM_targetEntry hitems hparts) hmem
  obtain ⟨part, hpart⟩ := Steps.exists_of_mapM hparts hv
  obtain ⟨t', ht', hunits⟩ := ofEntry_eq_ok_iff.1 hpart
  obtain rfl := Except.ok.inj (ht'.symm.trans hread)
  rw [hcovered, if_neg Bool.false_ne_true] at hunits
  exact ⟨part, hunits⟩

/-- The other way round: what the targets add, if the units of each analysed one can be read. -/
theorem mapM_ofEntry (hentries : items.mapM (targetEntry s.root s.directories) = .ok s.entries)
    (hunits : ∀ t ∈ s.analysed excluded, t.HasUnits d base s.root (unitsOf t)) :
    items.mapM (ofEntry d base excluded s.root s.directories) = .ok (s.entries.map fun t =>
      if Path.isCovered excluded t.directory then [] else unitsOf t) := by
  refine Steps.mapM_eq_ok_of_forall₂ (Steps.mapM_eq_ok.1 hentries) fun v t ht hv => ?_
  refine ofEntry_eq_ok_iff.2 ⟨t, hv, ?_⟩
  by_cases hcovered : Path.isCovered excluded t.directory = true
  · rw [if_pos hcovered, if_pos hcovered]
  · rw [if_neg hcovered, if_neg hcovered]
    exact hunits t (List.mem_filter.2 ⟨ht, by rwa [Bool.not_eq_true', Bool.eq_false_iff]⟩)

end

/-- **The units that are left when more is excluded** are those of the targets that are left, and
each target keeps its own. -/
theorem exists_units_of_load {units : List CompileUnit}
    (h : load d codemodel configuration excluded = .ok units) :
    ∃ s unitsOf, IsSelected d codemodel configuration s ∧
      (∀ t ∈ s.analysed excluded,
        t.HasUnits d (replyDirectory codemodel) s.root (unitsOf t)) ∧
      ∀ more, excluded ⊆ more →
        load d codemodel configuration more = .ok ((s.analysed more).flatMap unitsOf) := by
  obtain ⟨s, items, parts, hs, hitems, hparts, -⟩ := load_eq_ok_iff.1 h
  have hhas : ∀ t, ∃ units, t ∈ s.analysed excluded →
      t.HasUnits d (replyDirectory codemodel) s.root units := by
    intro t
    by_cases ht : t ∈ s.analysed excluded
    · exact (exists_hasUnits hitems hparts ht).imp fun _ hunits _ => hunits
    · exact ⟨[], fun h => absurd h ht⟩
  choose unitsOf hunitsOf using hhas
  refine ⟨s, unitsOf, hs, hunitsOf, fun more hmore => ?_⟩
  have hleft : ∀ t ∈ s.analysed more,
      t.HasUnits d (replyDirectory codemodel) s.root (unitsOf t) := by
    intro t ht
    rw [Selection.analysed_of_subset hmore] at ht
    exact hunitsOf t (List.mem_of_mem_filter ht)
  exact load_eq_ok_iff.2 ⟨s, items, _, hs, hitems,
    mapM_ofEntry (mapM_targetEntry hitems hparts) hleft, (flatten_map_ite _ _ _).symm⟩

/-- **Excluded targets leave no trace.**  Two disks with the same code model and the same replies of
the analysed targets have the same units, or the same fault, whatever stands at the replies of all
other targets.  If loading succeeds, each analysed target has units, in the order of the targets;
and excluding more still succeeds and leaves exactly the units of the targets that are left. -/
theorem load_excludes (codemodel configuration : Option Text) (excluded : List Text) :
    (∀ d e, SameIn (codemodel.getD []) d e →
      (∀ s, IsSelected d codemodel configuration s → ∀ t ∈ s.analysed excluded,
        ∀ file, t.file = .string file →
          SameIn (Path.below (replyDirectory codemodel) file) d e) →
      load d codemodel configuration excluded = load e codemodel configuration excluded) ∧
    ∀ d units, load d codemodel configuration excluded = .ok units →
      ∃ s unitsOf, IsSelected d codemodel configuration s ∧
        (∀ t ∈ s.analysed excluded,
          t.HasUnits d (replyDirectory codemodel) s.root (unitsOf t)) ∧
        units = (s.analysed excluded).flatMap unitsOf ∧
        ∀ more, excluded ⊆ more → ∃ kept,
          load d codemodel configuration more = .ok kept ∧ kept.Sublist units ∧
          kept = ((s.analysed excluded).filter fun t =>
            !Path.isCovered more t.directory).flatMap unitsOf := by
  refine ⟨fun d e hmodel hreplies => load_congr hmodel hreplies, fun d units h => ?_⟩
  obtain ⟨s, unitsOf, hs, hunits, hload⟩ := exists_units_of_load h
  have hall : units = (s.analysed excluded).flatMap unitsOf :=
    Except.ok.inj (h.symm.trans (hload excluded (List.Subset.refl _)))
  refine ⟨s, unitsOf, hs, hunits, hall, fun more hmore => ⟨_, hload more hmore, ?_, ?_⟩⟩
  · rw [hall, Selection.analysed_of_subset hmore]
    exact List.filter_sublist.flatMap unitsOf
  · rw [Selection.analysed_of_subset hmore]

/-! ### A build whose second target is excluded -/

/-- The disk of two documents, and a reply of the second target besides: that of the first. -/
def fullDisk : Disk := twoDisk.put ["r", "b"] (.file (Utf8.encode twoReplyDocument.write))

/-- What is selected of the code model of two configurations. -/
def releaseSelection : Selection where
  root := .string "/s"
  directories := .array [.object [("source", .string ".")], .object [("source", .string "z")]]
  targets := .array [
    .object [("directoryIndex", .int 0), ("jsonFile", .string "a")],
    .object [("directoryIndex", .int 1), ("jsonFile", .string "b")]]

theorem read_twoDocument {path : Text}
    (h : d.look? (Path.tidy path) = some (.file (Utf8.encode twoDocument.write))) :
    ReplyFile.read d path = .ok twoDocument :=
  read_of_look? (by simp +decide [twoDocument]) (by simp [twoDocument]) h

theorem read_twoReplyDocument {path : Text}
    (h : d.look? (Path.tidy path) = some (.file (Utf8.encode twoReplyDocument.write))) :
    ReplyFile.read d path = .ok twoReplyDocument :=
  read_of_look? (by simp +decide [twoReplyDocument]) (by simp [twoReplyDocument]) h

theorem eq_releaseSelection (h : IsSelected twoDisk ("/r/c" : Text) (some "Release") s) :
    s = releaseSelection := by
  obtain ⟨document, hdocument, hs⟩ := h
  obtain rfl := Except.ok.inj (hdocument.symm.trans (read_twoDocument rfl))
  exact (Except.ok.inj hs).symm

theorem load_fullDisk : load fullDisk ("/r/c" : Text) (some "Release") [] =
    .ok (release.units "/s" [] fun _ => twoReply) := by
  have hselection : selection twoDocument (some "Release") = .ok releaseSelection := rfl
  have hreplies : ∀ t ∈ release.targets,
      ReplyFile.read fullDisk (Path.below (Path.tidyParent "/r/c") t.file) =
        .ok twoReplyDocument := by
    intro t ht
    rcases List.mem_cons.1 ht with rfl | ht
    · exact read_twoReplyDocument rfl
    · obtain rfl := List.mem_singleton.1 ht
      exact read_twoReplyDocument rfl
  refine load_eq_ok (m := twoModel) (c := release) (read_twoDocument rfl) hselection
    (.cons rfl (.cons rfl .nil)) (.cons ⟨rfl, rfl⟩ (.cons ⟨rfl, rfl⟩ .nil)) fun t ht => ?_
  exact ⟨_, hreplies t (List.mem_of_mem_filter ht), describedBy_twoReplyDocument⟩

theorem load_excludes_fullDisk :
    load twoDisk ("/r/c" : Text) (some "Release") ["/s/z"] =
      load fullDisk ("/r/c" : Text) (some "Release") ["/s/z"] ∧
    ∃ kept, load fullDisk ("/r/c" : Text) (some "Release") ["/s/z"] = .ok kept ∧
      kept.Sublist (release.units "/s" [] fun _ => twoReply) := by
  constructor
  · refine (load_excludes ("/r/c" : Text) (some "Release") ["/s/z"]).1 twoDisk fullDisk rfl ?_
    intro s hs t ht file hfile
    obtain rfl := eq_releaseSelection hs
    have hanalysed : releaseSelection.analysed ["/s/z"] = [⟨"/s/.", .string "a"⟩] := rfl
    rw [hanalysed] at ht
    obtain rfl := List.mem_singleton.1 ht
    obtain rfl := Json.string.inj hfile
    rfl
  · obtain ⟨s, unitsOf, -, -, -, hmore⟩ :=
      (load_excludes ("/r/c" : Text) (some "Release") []).2 fullDisk _ load_fullDisk
    obtain ⟨kept, hkept, hsublist, -⟩ := hmore ["/s/z"] (List.nil_subset _)
    exact ⟨kept, hkept, hsublist⟩

end CompileUnit

end BuildLint
