import BuildLint.Proofs.CMake.Exclusion
import BuildLint.Proofs.Json.Shapes

/-!
# Proofs/CMake/Indexes — the indexes of the build data

A target names its directory by an index into the directories of its configuration, and a compile
group names its sources by indexes into the sources of the target.  An index that selects nothing
is refused with the entry or the file it stands in.  A position in a list may be negative, though,
and counts from the end then, so such an index selects another directory or source than the one it
looks like.

* `Json.Selects` — the part of a value that an index selects.
* `HasDirectory`, `HasSources` — every index of an entry or of a reply selects something.
* `load_indexes` — loading needs both, and refuses an index that selects nothing.
* `load_negativeDisk` — a negative index is not refused.
-/

namespace BuildLint

namespace Json

/-- **The part that an index selects**: an item of a list, from the front or, if the index is
negative, from the end, or a member of an object. -/
inductive Selects : Json → Json → Json → Prop
  | front {items : List Json} {index w : Json} {i : Nat}
      (position : index.position? = some (i : Int)) (item : items[i]? = some w) :
      Selects (.array items) index w
  | back {items : List Json} {index w : Json} {i : Nat}
      (position : index.position? = some (-(i + 1 : Int))) (item : items.reverse[i]? = some w) :
      Selects (.array items) index w
  | member {members : Members} {key : Text} {w : Json} (found : Keyed.get? members key = some w) :
      Selects (.object members) (.string key) w

/-- An index selects something with a name. -/
def SelectsNamed (v index : Json) (key : Text) : Prop :=
  ∃ w name, v.Selects index w ∧ w.Names key name

variable {v w index : Json} {key : Text}

/-- A negative position counts from the end. -/
theorem itemAt?_neg {α : Type} (items : List α) (i : Nat) :
    itemAt? items (-(i + 1 : Int)) = items.reverse[i]? := by
  have habs : (-(i + 1 : Int)).natAbs = i + 1 := by omega
  rw [itemAt?, if_pos (by omega), habs]
  split
  · rw [List.getElem?_reverse (by omega)]
    congr 1
    omega
  · rw [List.getElem?_eq_none]
    rw [List.length_reverse]
    omega

theorem selects_array {items : List Json} : (array items).Selects index w ↔
    ∃ n, index.position? = some n ∧ itemAt? items n = some w := by
  constructor
  · intro h
    cases h with
    | @front _ _ _ i position item => exact ⟨i, position, (itemAt?_natCast items i).trans item⟩
    | @back _ _ _ i position item => exact ⟨_, position, (itemAt?_neg items i).trans item⟩
  · rintro ⟨n, position, item⟩
    by_cases hneg : n < 0
    · obtain ⟨i, rfl⟩ := Int.eq_negSucc_of_lt_zero hneg
      exact .back position (itemAt?_neg items i ▸ item)
    · obtain ⟨i, rfl⟩ := Int.eq_ofNat_of_zero_le (Int.not_lt.1 hneg)
      exact .front position (itemAt?_natCast items i ▸ item)

theorem element_array {items : List Json} : (array items).element index = .ok w ↔
    ∃ n, index.position? = some n ∧ itemAt? items n = some w := by
  rw [element]
  cases index.position? with
  | none => simp
  | some n => cases hitem : itemAt? items n <;> simp [hitem]

/-- Of a text only another text can be taken. -/
theorem isText_of_element_string {s : Text} (h : (string s).element index = .ok w) : w.IsText := by
  rw [element] at h
  split at h
  · rename_i n _
    cases hitem : itemAt? s n with
    | none =>
      rw [hitem] at h
      cases h
    | some c =>
      rw [hitem] at h
      exact ⟨[c], (Except.ok.inj h).symm⟩
  · cases h

theorem element_object {members : Members} :
    (object members).element index = .ok w ↔ (object members).Selects index w := by
  constructor
  · intro h
    cases index with
    | string key =>
      refine .member ?_
      rw [element, field] at h
      split at h
      · obtain rfl := Except.ok.inj h
        assumption
      · cases h
    | _ => cases h
  · intro h
    cases h with
    | member found => rw [element, field, found]

/-- **The part under an index** is the one that it selects, if it has parts itself. -/
theorem element_eq_ok_iff (hw : w.IsObject) : v.element index = .ok w ↔ v.Selects index w := by
  cases v with
  | array items => rw [element_array, selects_array]
  | object members => exact element_object
  | string s =>
    refine ⟨fun h => ?_, fun h => (nomatch h)⟩
    obtain ⟨members, rfl⟩ := hw
    obtain ⟨t, ht⟩ := isText_of_element_string h
    cases ht
  | _ => exact ⟨fun h => (nomatch h), fun h => (nomatch h)⟩

end Json

namespace CompileUnit

open ReplyFile

variable {d : Disk} {base : Text} {root directories sources entry group index reply : Json}
  {excluded : List Text} {codemodel configuration : Option Text}

/-- The sources of a reply. -/
def sourcesOf (reply : Json) : Json.Access Json := do
  return (← reply.lookup? "sources").getD (.array [])

/-- The indexes of a compile group. -/
def indexesOf (group : Json) : Json.Access (List Json) := do
  ((← group.lookup? "sourceIndexes").getD (.array [])).iterate

/-- **The entry of a target has a directory**: its index selects one. -/
def HasDirectory (directories entry : Json) : Prop :=
  ∃ index, entry.field "directoryIndex" = .ok index ∧ directories.SelectsNamed index "source"

/-- **The reply of a target has its sources**: each index of each compile group selects one. -/
def HasSources (reply : Json) : Prop :=
  ∃ sources groups, sourcesOf reply = .ok sources ∧ listed reply "compileGroups" = .ok groups ∧
    ∀ group ∈ groups, ∃ indexes, indexesOf group = .ok indexes ∧
      ∀ index ∈ indexes, sources.SelectsNamed index "path"

/-- The path of a part is a text. -/
theorem names_of_sourcePath {v path : Json} {key joined : Text} (hpath : v.field key = .ok path)
    (h : sourcePath root path = .ok joined) : ∃ name, v.Names key name := by
  obtain ⟨rootPath, -, h⟩ := Steps.bind_eq_ok.1 h
  obtain ⟨name, hname, -⟩ := Steps.bind_eq_ok.1 h
  obtain rfl := Json.eq_string_of_text hname
  exact ⟨name, hpath⟩

theorem selectsNamed_of_element {v w index path : Json} {key joined : Text}
    (hw : v.element index = .ok w) (hpath : w.field key = .ok path)
    (h : sourcePath root path = .ok joined) : v.SelectsNamed index key := by
  obtain ⟨name, hname⟩ := names_of_sourcePath hpath h
  exact ⟨w, name, (Json.element_eq_ok_iff (Json.isObject_of_field hpath)).1 hw, hname⟩

theorem hasDirectory_of_targetEntry {t : TargetEntry}
    (h : targetEntry root directories entry = .ok t) : HasDirectory directories entry := by
  obtain ⟨index, hindex, h⟩ := Steps.bind_eq_ok.1 h
  obtain ⟨w, hw, h⟩ := Steps.bind_eq_ok.1 h
  obtain ⟨path, hpath, h⟩ := Steps.bind_eq_ok.1 h
  obtain ⟨joined, hjoined, -⟩ := Steps.bind_eq_ok.1 h
  exact ⟨index, hindex, selectsNamed_of_element hw hpath hjoined⟩

theorem selectsNamed_of_ofIndex {u : CompileUnit} (h : ofIndex root sources group index = .ok u) :
    sources.SelectsNamed index "path" := by
  obtain ⟨w, hw, h⟩ := Steps.bind_eq_ok.1 h
  obtain ⟨path, hpath, h⟩ := Steps.bind_eq_ok.1 h
  obtain ⟨joined, hjoined, -⟩ := Steps.bind_eq_ok.1 h
  exact selectsNamed_of_element hw hpath hjoined

theorem hasSources_of_ofTarget {units : List CompileUnit} (h : ofTarget root reply = .ok units) :
    HasSources reply := by
  obtain ⟨o, ho, h⟩ := Steps.bind_eq_ok.1 h
  obtain ⟨groups, hgroups, h⟩ := Steps.bind_eq_ok.1 h
  obtain ⟨parts, hparts, -⟩ := Steps.bind_eq_ok.1 h
  refine ⟨o.getD (.array []), groups, Steps.bind_eq_ok.2 ⟨o, ho, rfl⟩, hgroups, ?_⟩
  intro group hgroup
  obtain ⟨part, hpart⟩ := Steps.exists_of_mapM hparts hgroup
  obtain ⟨i, hi, h⟩ := Steps.bind_eq_ok.1 hpart
  obtain ⟨indexes, hindexes, h⟩ := Steps.bind_eq_ok.1 h
  refine ⟨indexes, Steps.bind_eq_ok.2 ⟨i, hi, hindexes⟩, fun index hindex => ?_⟩
  obtain ⟨u, hu⟩ := Steps.exists_of_mapM h hindex
  exact selectsNamed_of_ofIndex hu

/-- An entry whose index selects no directory is refused. -/
theorem ofEntry_of_not_hasDirectory (h : ¬HasDirectory directories entry) :
    ofEntry d base excluded root directories entry =
      .error (.failure (.metadata (.targetEntryMalformed entry))) := by
  rw [ofEntry]
  cases ht : targetEntry root directories entry with
  | error f => rfl
  | ok t => exact absurd (hasDirectory_of_targetEntry ht) h

/-- An analysed target with an index that selects no source is refused. -/
theorem ofEntry_of_not_hasSources {t : TargetEntry} {file : Text}
    (ht : targetEntry root directories entry = .ok t)
    (hcovered : Path.isCovered excluded t.directory = false) (hfile : t.file = .string file)
    (hread : ReplyFile.read d (Path.below base file) = .ok reply) (h : ¬HasSources reply) :
    ∃ f, ofEntry d base excluded root directories entry =
      .error (.failure (.metadata (.targetMalformed (.string file) f))) := by
  cases hunits : ofTarget root reply with
  | ok units => exact absurd (hasSources_of_ofTarget hunits) h
  | error f =>
    refine ⟨f, ?_⟩
    rw [ofEntry]
    simp only [ht, hcovered, hfile, Bool.false_eq_true, if_false]
    exact Steps.bind_eq_error.2 (.inr ⟨reply, hread, by rw [hunits]; rfl⟩)

/-- **Loading needs every index to select something.**  If loading succeeds, the index of each target
of the selected configuration selects a directory, and in the reply of each analysed target every
index of every compile group selects a source.  Where the targets before it add their units, a
target without a directory is refused with its entry, and an analysed target without its sources
is refused with its file. -/
theorem load_indexes (d : Disk) (codemodel configuration : Option Text) (excluded : List Text) :
    (∀ units, load d codemodel configuration excluded = .ok units →
      ∃ s entries, IsSelected d codemodel configuration s ∧ s.targets.iterate = .ok entries ∧
        (∀ entry ∈ entries, HasDirectory s.directories entry) ∧
        ∀ t ∈ s.analysed excluded, ∃ file reply, t.file = .string file ∧
          ReplyFile.read d (Path.below (replyDirectory codemodel) file) = .ok reply ∧
          HasSources reply) ∧
    ∀ s before entry after, IsSelected d codemodel configuration s →
      s.targets.iterate = .ok (before ++ entry :: after) →
      (∀ b ∈ before, ∃ units,
        ofEntry d (replyDirectory codemodel) excluded s.root s.directories b = .ok units) →
      (¬HasDirectory s.directories entry →
        load d codemodel configuration excluded =
          .error (.failure (.metadata (.targetEntryMalformed entry)))) ∧
      ∀ t file reply, targetEntry s.root s.directories entry = .ok t →
        Path.isCovered excluded t.directory = false → t.file = .string file →
        ReplyFile.read d (Path.below (replyDirectory codemodel) file) = .ok reply →
        ¬HasSources reply →
        ∃ f, load d codemodel configuration excluded =
          .error (.failure (.metadata (.targetMalformed (.string file) f))) := by
  constructor
  · intro units h
    obtain ⟨s, entries, parts, hs, hentries, hparts, -⟩ := load_eq_ok_iff.1 h
    refine ⟨s, entries, hs, hentries, fun entry hentry => ?_, fun t ht => ?_⟩
    · obtain ⟨part, hpart⟩ := Steps.exists_of_mapM hparts hentry
      obtain ⟨t, ht, -⟩ := ofEntry_eq_ok_iff.1 hpart
      exact hasDirectory_of_targetEntry ht
    · obtain ⟨own, file, reply, hfile, hread, hunits⟩ := exists_hasUnits hentries hparts ht
      exact ⟨file, reply, hfile, hread, hasSources_of_ofTarget hunits⟩
  · intro s before entry after hs hentries hbefore
    have hfirst : ∀ {fault}, ofEntry d (replyDirectory codemodel) excluded s.root s.directories
        entry = .error fault → load d codemodel configuration excluded = .error fault :=
      fun h => load_eq_error_of_first hs hentries
        (Steps.first_iff_exists_append.2 ⟨before, entry, after, rfl, hbefore, h⟩)
    refine ⟨fun hnot => hfirst (ofEntry_of_not_hasDirectory hnot), ?_⟩
    intro t file reply ht hcovered hfile hread hnot
    obtain ⟨f, hf⟩ := ofEntry_of_not_hasSources ht hcovered hfile hread hnot
    exact ⟨f, hfirst hf⟩

/-! ### A negative index -/

/-- A reply whose only group compiles the source before the first. -/
def negativeReply : Json := .object [
  ("sources", .array [.object [("path", .string "x.c")], .object [("path", .string "y.c")]]),
  ("compileGroups", .array [.object [
    ("language", .string "C"), ("sourceIndexes", .array [.int (-1)])]])]

/-- The disk of a target with this reply. -/
def negativeDisk : Disk := twoDisk.put ["r", "a"] (.file (Utf8.encode negativeReply.write))

/-- Every index of a reply is a number in the range of the sources. -/
def IndexesInRange (reply : Json) : Prop :=
  ∀ sources groups, sourcesOf reply = .ok sources → listed reply "compileGroups" = .ok groups →
    ∀ group ∈ groups, ∀ indexes, indexesOf group = .ok indexes → ∀ index ∈ indexes,
      ∃ items, ∃ i : Nat, sources = .array items ∧ index = .int i ∧ i < items.length

/-- **A negative index is not refused**: the last source is compiled instead. -/
theorem load_negativeDisk :
    ReplyFile.read negativeDisk "/r/a" = .ok negativeReply ∧ ¬IndexesInRange negativeReply ∧
    load negativeDisk ("/r/c" : Text) (some "Release") ["/s/z"] =
      .ok [⟨"/s/y.c", .string "C", [], .null, [], []⟩] := by
  have hreply : ReplyFile.read negativeDisk "/r/a" = .ok negativeReply :=
    read_of_look? (by simp +decide [negativeReply]) (by simp [negativeReply]) rfl
  have hmodel : IsSelected negativeDisk ("/r/c" : Text) (some "Release") releaseSelection :=
    ⟨twoDocument, read_twoDocument rfl, rfl⟩
  refine ⟨hreply, fun hrange => ?_, ?_⟩
  · obtain ⟨items, i, -, hindex, -⟩ := hrange _ _ rfl rfl _ List.mem_cons_self _ rfl _
      List.mem_cons_self
    have hnegative : (-1 : Int) = i := Json.int.inj hindex
    omega
  · let unit : CompileUnit := ⟨"/s/y.c", .string "C", [], .null, [], []⟩
    refine load_eq_ok_iff.2 ⟨releaseSelection, _, [[unit], []], hmodel, rfl, ?_, rfl⟩
    refine Steps.mapM_eq_ok.2 (.cons (ofEntry_eq_ok_iff.2 ⟨⟨"/s/.", .string "a"⟩, rfl, ?_⟩)
      (.cons (ofEntry_eq_ok_iff.2 ⟨⟨"/s/z", .string "b"⟩, rfl, rfl⟩) .nil))
    exact ⟨"a", negativeReply, rfl, hreply, rfl⟩

end CompileUnit

end BuildLint
