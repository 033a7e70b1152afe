import BuildLint.CMake.CompileUnit
import BuildLint.Proofs.Steps

/-!
# Proofs/CMake/CodeModel — a build as CMake documents it

CMake documents the code model and the reply of a target as data of known types, with indexes that
point into lists of the same document.  Here is that data, apart from its spelling: an index is a
`Fin`, so none is out of range.  A document **describes** data if its members say what the data
holds, whatever else they say and in whatever order; what CMake may leave out may be missing.

* `CodeModel`, `BuildConfiguration`, `TargetReply`, `CompileGroup` — the documented data.
* `TargetReply.units` — the units that a target has: one for each source of each group.
* `ofTarget_eq_ok`, `targetEntry_eq_ok` — a described document is read as what it describes.
-/

namespace BuildLint

/-! ## Documents that describe data -/

namespace Json

variable {α : Type}

/-- A value has a list under a key, and its items describe some data one by one. -/
def Lists (v : Json) (key : Text) (describes : Json → α → Prop) (data : List α) : Prop :=
  ∃ items, v.field key = .ok (.array items) ∧ List.Forall₂ describes items data

/-- The same of a list that may be missing, if there is no data. -/
def MayList (v : Json) (key : Text) (describes : Json → α → Prop) (data : List α) : Prop :=
  (v.lookup? key = .ok none ∧ data = []) ∨ v.Lists key describes data

/-- A value is an object with a text under a key. -/
def Names (key : Text) (v : Json) (text : Text) : Prop := v.field key = .ok (.string text)

end Json

/-- **A directory to include from**, and whether it is said to be the system's. -/
structure IncludeEntry where
  path : Text
  isSystem : Option Bool

/-- **A compile group** of a target with so many sources. -/
structure CompileGroup (sources : Nat) where
  language : Option Text
  standard : Option Text
  fragments : List Text
  includes : List IncludeEntry
  defines : List Text
  indexes : List (Fin sources)

/-- **The reply of a target**: its sources, and the groups in which they are compiled. -/
structure TargetReply where
  sources : List Text
  groups : List (CompileGroup sources.length)

/-- **A target in the code model** of a configuration with so many directories. -/
structure TargetReference (directories : Nat) where
  directory : Fin directories
  file : Text

/-- **A configuration** of a build. -/
structure BuildConfiguration where
  name : Text
  directories : List Text
  targets : List (TargetReference directories.length)

/-- **The code model** of a build. -/
structure CodeModel where
  root : Text
  configurations : List BuildConfiguration

structure IncludeEntry.DescribedBy (v : Json) (i : IncludeEntry) : Prop where
  path : v.Names "path" i.path
  isSystem : v.lookup? "isSystem" = .ok (i.isSystem.map .bool)

structure CompileGroup.DescribedBy {n : Nat} (v : Json) (g : CompileGroup n) : Prop where
  language : v.lookup? "language" = .ok (g.language.map .string)
  standard : (v.lookup? "languageStandard" = .ok none ∧ g.standard = none) ∨
    ∃ w, v.field "languageStandard" = .ok w ∧
      w.lookup? "standard" = .ok (g.standard.map .string)
  fragments : v.MayList "compileCommandFragments" (Json.Names "fragment") g.fragments
  includes : v.MayList "includes" IncludeEntry.DescribedBy g.includes
  defines : v.MayList "defines" (Json.Names "define") g.defines
  indexes : v.MayList "sourceIndexes" (fun w (i : Fin n) => w = .int i) g.indexes

structure TargetReply.DescribedBy (v : Json) (t : TargetReply) : Prop where
  sources : v.MayList "sources" (Json.Names "path") t.sources
  groups : v.MayList "compileGroups" CompileGroup.DescribedBy t.groups

structure TargetReference.DescribedBy {n : Nat} (v : Json) (t : TargetReference n) : Prop where
  directory : v.field "directoryIndex" = .ok (.int t.directory)
  file : v.Names "jsonFile" t.file

structure BuildConfiguration.DescribedBy (v : Json) (c : BuildConfiguration) : Prop where
  name : v.Names "name" c.name
  directories : v.Lists "directories" (Json.Names "source") c.directories
  targets : v.Lists "targets" TargetReference.DescribedBy c.targets

structure CodeModel.DescribedBy (v : Json) (m : CodeModel) : Prop where
  root : ∃ w, v.field "paths" = .ok w ∧ w.Names "source" m.root
  configurations : v.Lists "configurations" BuildConfiguration.DescribedBy m.configurations

/-! ## The units of documented data -/

/-- A directory as a unit has it. -/
def IncludeEntry.toPath (i : IncludeEntry) : IncludePath := ⟨.string i.path, i.isSystem.getD false⟩

/-- **The unit of a source in a group**: the group says how the source is compiled. -/
def CompileGroup.unit {n : Nat} (g : CompileGroup n) (source : Text) : CompileUnit where
  source := source
  language := .string (g.language.getD [])
  flags := Text.joinWith " " g.fragments
  standard := (g.standard.map .string).getD .null
  includes := g.includes.map IncludeEntry.toPath
  defines := g.defines.map .string

/-- The path of a source, in normal form. -/
def TargetReply.sourcePath (root : Text) (t : TargetReply) (i : Fin t.sources.length) : Text :=
  Path.normalize (Path.join root t.sources[i])

/-- **The units of a target**: one for each source that a group lists, group by group. -/
def TargetReply.units (root : Text) (t : TargetReply) : List CompileUnit :=
  t.groups.flatMap fun g => g.indexes.map fun i => g.unit (t.sourcePath root i)

/-- The path of the directory that a target is in. -/
def TargetReference.directoryPath {directories : List Text} (root : Text)
    (t : TargetReference directories.length) : Text :=
  Path.join root directories[t.directory]

/-! ## Reading described documents -/

namespace Json

variable {α : Type} {v w : Json} {key : Text} {describes : Json → α → Prop} {data : List α}

theorem lookup?_of_field (h : v.field key = .ok w) : v.lookup? key = .ok (some w) := by
  cases v with
  | object members =>
    rw [field] at h
    rw [lookup?]
    cases hm : Keyed.get? members key with
    | none =>
      rw [hm] at h
      cases h
    | some u =>
      rw [hm] at h
      obtain rfl := Except.ok.inj h
      rfl
  | _ => cases h

theorem lookup_of_lookup? {o : Option Json} (h : v.lookup? key = .ok o) :
    v.lookup key = .ok (o.getD .null) := by
  rw [lookup, h]
  rfl

/-- **A list that may be missing** is read as its items, or as none. -/
theorem MayList.exists_items (h : v.MayList key describes data) :
    ∃ o items, v.lookup? key = .ok o ∧ o.getD (.array []) = .array items ∧
      (o.getD .null).orElse (.array []) = .array items ∧ List.Forall₂ describes items data := by
  rcases h with ⟨hnone, rfl⟩ | ⟨items, hitems, hall⟩
  · exact ⟨none, [], hnone, rfl, rfl, .nil⟩
  · refine ⟨some (.array items), items, lookup?_of_field hitems, rfl, ?_, hall⟩
    cases items <;> rfl

theorem itemAt?_natCast (items : List α) (n : Nat) : itemAt? items (n : Int) = items[n]? := by
  rw [itemAt?, if_neg (by omega), Int.toNat_natCast]

/-- **An index in range** finds the item that describes the entry with this index. -/
theorem exists_element {items : List Json} (h : List.Forall₂ describes items data)
    (i : Fin data.length) :
    ∃ w, (Json.array items).element (.int i) = .ok w ∧ describes w data[i] := by
  have hi : i.val < items.length := by
    rw [h.length_eq]
    exact i.isLt
  refine ⟨items[i.val], ?_, h.get hi i.isLt⟩
  simp only [element, position?, itemAt?_natCast, List.getElem?_eq_getElem hi]
  rfl

theorem texts_map_string (ts : List Text) : texts (ts.map .string) = .ok ts :=
  Steps.mapM_eq_ok.2 (List.forall₂_map_left_iff.2 (List.forall₂_same.2 fun _ _ => rfl))

end Json

namespace CompileUnit

variable {n : Nat} {v group : Json} {root : Text}

theorem exists_listed {α : Type} {key : Text} {describes : Json → α → Prop} {data : List α}
    (h : v.MayList key describes data) :
    ∃ items, listed v key = .ok items ∧ List.Forall₂ describes items data := by
  obtain ⟨o, items, hlookup, -, hitems, hall⟩ := h.exists_items
  refine ⟨items, ?_, hall⟩
  rw [listed, Json.lookup_of_lookup? hlookup]
  change ((o.getD .null).orElse (.array [])).iterate = .ok items
  rw [hitems]
  rfl

/-- The texts that some items name under a key. -/
theorem mapM_field_eq_ok {key : Text} {items : List Json} {names : List Text}
    (h : List.Forall₂ (Json.Names key) items names) :
    items.mapM (·.field key) = .ok (names.map .string) :=
  Steps.mapM_eq_ok_of_forall₂ h fun _ _ _ hw => hw

theorem includeOf_eq_ok {i : IncludeEntry} (h : i.DescribedBy v) :
    includeOf v = .ok i.toPath := by
  rw [includeOf, h.path, h.isSystem]
  cases hi : i.isSystem with
  | none =>
    rw [IncludeEntry.toPath, hi]
    rfl
  | some b =>
    rw [IncludeEntry.toPath, hi]
    rfl

/-- The standard that a group is compiled to. -/
theorem exists_standard {g : CompileGroup n} (h : g.DescribedBy v) :
    ∃ w, v.lookup "languageStandard" = .ok w ∧
      (w.orElse (.object [])).lookup "standard" = .ok ((g.standard.map .string).getD .null) := by
  rcases h.standard with ⟨hnone, hg⟩ | ⟨w, hw, hstandard⟩
  · rw [hg]
    exact ⟨.null, Json.lookup_of_lookup? hnone, rfl⟩
  · refine ⟨w, Json.lookup_of_lookup? (Json.lookup?_of_field hw), ?_⟩
    rw [Json.orElse]
    split
    · exact Json.lookup_of_lookup? hstandard
    · -- an object that does not count as present has no members
      cases w with
      | object members => cases members with
        | nil => exact Json.lookup_of_lookup? hstandard
        | cons m rest => simp [Json.isTruthy] at *
      | _ => cases hstandard

/-- **A described group** is read as its unit. -/
theorem ofGroup_eq_ok {g : CompileGroup n} (h : g.DescribedBy v) (source : Text) :
    ofGroup v source = .ok (g.unit source) := by
  obtain ⟨w, hw, hstandard⟩ := exists_standard h
  obtain ⟨fragments, hfragments, hfragment⟩ := exists_listed h.fragments
  obtain ⟨includes, hincludes, hinclude⟩ := exists_listed h.includes
  obtain ⟨defines, hdefines, hdefine⟩ := exists_listed h.defines
  have hpaths : includes.mapM includeOf = .ok (g.includes.map IncludeEntry.toPath) :=
    Steps.mapM_eq_ok_of_forall₂ hinclude fun _ _ _ hi => includeOf_eq_ok hi
  have hlanguage : (g.language.map Json.string).getD (.string []) =
      .string (g.language.getD []) := by
    cases g.language <;> rfl
  simp only [ofGroup, Steps.bind_eq_ok]
  refine ⟨w, hw, _, h.language, _, hstandard, fragments, hfragments, _, mapM_field_eq_ok hfragment,
    g.fragments, Json.texts_map_string _, includes, hincludes, _, hpaths, defines, hdefines, _,
    mapM_field_eq_ok hdefine, ?_⟩
  rw [hlanguage]
  rfl

/-- **A described index** is read as the unit of the source it stands for. -/
theorem ofIndex_eq_ok {t : TargetReply} {sources : List Json}
    (hsources : List.Forall₂ (Json.Names "path") sources t.sources)
    {g : CompileGroup t.sources.length} (h : g.DescribedBy group) (i : Fin t.sources.length) :
    ofIndex (.string root) (.array sources) group (.int i) =
      .ok (g.unit (t.sourcePath root i)) := by
  obtain ⟨w, hw, hpath⟩ := Json.exists_element hsources i
  simp only [ofIndex, Steps.bind_eq_ok]
  exact ⟨w, hw, _, hpath, _, rfl, ofGroup_eq_ok h _⟩

/-- **A described group** is read source by source. -/
theorem ofIndexes_eq_ok {t : TargetReply} {sources : List Json}
    (hsources : List.Forall₂ (Json.Names "path") sources t.sources)
    {g : CompileGroup t.sources.length} (h : g.DescribedBy group) :
    ofIndexes (.string root) (.array sources) group =
      .ok (g.indexes.map fun i => g.unit (t.sourcePath root i)) := by
  obtain ⟨o, items, hlookup, hitems, -, hall⟩ := h.indexes.exists_items
  simp only [ofIndexes, Steps.bind_eq_ok]
  refine ⟨o, hlookup, items, ?_, Steps.mapM_eq_ok_of_forall₂ hall ?_⟩
  · rw [hitems]
    rfl
  · rintro _ i - rfl
    exact ofIndex_eq_ok hsources h i

/-- **The reply of a target** is read as its units. -/
theorem ofTarget_eq_ok {t : TargetReply} (h : t.DescribedBy v) :
    ofTarget (.string root) v = .ok (t.units root) := by
  obtain ⟨o, sources, hlookup, hitems, -, hsources⟩ := h.sources.exists_items
  obtain ⟨groups, hlisted, hgroups⟩ := exists_listed h.groups
  simp only [ofTarget, Steps.bind_eq_ok]
  refine ⟨o, hlookup, groups, hlisted, _, ?_, rfl⟩
  rw [hitems]
  exact Steps.mapM_eq_ok_of_forall₂ hgroups fun _ _ _ hg => ofIndexes_eq_ok hsources hg

/-- **A target of the code model** is read as its directory and its file. -/
theorem targetEntry_eq_ok {dirs : List Text} {directories : List Json}
    (hdirs : List.Forall₂ (Json.Names "source") directories dirs)
    {t : TargetReference dirs.length} (h : t.DescribedBy v) :
    targetEntry (.string root) (.array directories) v =
      .ok ⟨t.directoryPath root, .string t.file⟩ := by
  obtain ⟨w, hw, hsource⟩ := Json.exists_element hdirs t.directory
  simp only [targetEntry, Steps.bind_eq_ok]
  exact ⟨_, h.directory, w, hw, _, hsource, _, rfl, _, h.file, rfl⟩

end CompileUnit

end BuildLint
