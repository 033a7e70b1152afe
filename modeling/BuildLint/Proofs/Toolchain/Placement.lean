import BuildLint.Proofs.Json.Shapes
import BuildLint.Toolchain.Toolchain

/-!
# Proofs/Toolchain/Placement — the place of a compiler decides its layout

A toolchain that comes from CMake's document has the toolset and the architectures that the path of
its compiler spells.  So two such toolchains with one compiler differ at most in their language, in
the version that is reported and in the headers that are included by themselves.

* `Toolchain.IsPlaced` — the layout of a toolchain is that of its compiler's path.
* `Toolchains.exists_entry_of_ofReply` — where the toolchains of a document come from.
* `Toolchains.isPlaced_of_load` — all toolchains of a build are placed.
-/

namespace BuildLint

namespace Toolchain

/-- **A toolchain is placed** if its toolset and its architectures are read off its compiler. -/
def IsPlaced (t : Toolchain) : Prop := Layout.ofPath t.compiler = .ok ⟨t.toolset, t.host, t.target⟩

variable {t u : Toolchain} {entry compiler : Json}

/-- **The compiler decides the layout.** -/
theorem IsPlaced.layout_eq (ht : t.IsPlaced) (hu : u.IsPlaced) (h : t.compiler = u.compiler) :
    t.toolset = u.toolset ∧ t.host = u.host ∧ t.target = u.target := by
  rw [IsPlaced, h, hu] at ht
  obtain ⟨htoolset, hhost, htarget⟩ := Layout.mk.inj (Except.ok.inj ht)
  exact ⟨htoolset.symm, hhost.symm, htarget.symm⟩

/-- The toolchain of an entry is that of its compiler's path and of the layout read off it. -/
theorem parts_of_ofReply (h : ofReply entry = .ok t) : ∃ compiler path layout,
    compilerOf entry = .ok compiler ∧ compiler.lookup "path" = .ok (.string path) ∧
      Layout.ofPath path = .ok layout ∧ ofParts entry compiler path layout = .ok t := by
  obtain ⟨compiler, hcompiler, h⟩ := Steps.bind_eq_ok.1 h
  obtain ⟨path, hpath, h⟩ := Steps.bind_eq_ok.1 h
  split at h
  · obtain ⟨language, -, h⟩ := Steps.bind_eq_ok.1 h
    cases h
  · obtain ⟨text, htext, h⟩ := Steps.bind_eq_ok.1 h
    split at h
    · cases h
    · rename_i layout hlayout
      have hstring := Json.eq_string_of_text (Steps.ok_of_mapError.1 htext)
      rw [hstring] at hpath
      exact ⟨compiler, text, layout, Steps.ok_of_mapError.1 hcompiler,
        Steps.ok_of_mapError.1 hpath, hlayout, Steps.ok_of_mapError.1 h⟩

theorem isPlaced_of_ofParts {path : Text} {layout : Layout}
    (hlayout : Layout.ofPath path = .ok layout)
    (h : ofParts entry compiler path layout = .ok t) : t.IsPlaced := by
  obtain ⟨implicit, -, h⟩ := Steps.bind_eq_ok.1 h
  obtain ⟨directories, -, h⟩ := Steps.bind_eq_ok.1 h
  obtain ⟨language, -, h⟩ := Steps.bind_eq_ok.1 h
  obtain ⟨version, -, h⟩ := Steps.bind_eq_ok.1 h
  obtain ⟨includes, -, h⟩ := Steps.bind_eq_ok.1 h
  obtain rfl := Except.ok.inj h
  exact hlayout

theorem isPlaced_of_ofReply (h : ofReply entry = .ok t) : t.IsPlaced := by
  obtain ⟨compiler, path, layout, -, -, hlayout, h⟩ := parts_of_ofReply h
  exact isPlaced_of_ofParts hlayout h

/-- What is found is one of the entries. -/
theorem mem_of_findFor {language : Text} {entries : List Json}
    (h : findFor language entries = .ok (some entry)) : entry ∈ entries := by
  induction entries with
  | nil => cases h
  | cons v rest ih =>
    obtain ⟨serves, -, h⟩ := Steps.bind_eq_ok.1 h
    split at h
    · obtain rfl := Option.some.inj (Except.ok.inj h)
      exact List.mem_cons_self
    · exact List.mem_cons_of_mem v (ih h)

end Toolchain

namespace Toolchains

variable {document : Json} {toolchains : Toolchains} {t : Text × Toolchain}

/-- The entries of a toolchains document, none if there is no list of them. -/
def entriesOf (document : Json) : Json.Access (List Json) := do
  ((← document.lookup? "toolchains").getD (.array [])).iterate

theorem exists_entry_of_forLanguage {language : Text}
    (h : forLanguage document language = .ok toolchains) (ht : t ∈ toolchains) :
    ∃ entries, entriesOf document = .ok entries ∧
      ∃ entry ∈ entries, Toolchain.ofReply entry = .ok t.2 := by
  obtain ⟨entries, hentries, h⟩ := Steps.bind_eq_ok.1 h
  obtain ⟨found, hfound, h⟩ := Steps.bind_eq_ok.1 h
  cases found with
  | none =>
    obtain rfl := Except.ok.inj h
    exact absurd ht List.not_mem_nil
  | some entry =>
    obtain ⟨u, hu, h⟩ := Steps.bind_eq_ok.1 h
    obtain rfl := Except.ok.inj h
    obtain rfl := List.mem_singleton.1 ht
    exact ⟨entries, Steps.ok_of_mapError.1 hentries, entry,
      Toolchain.mem_of_findFor (Steps.ok_of_mapError.1 hfound), hu⟩

/-- **Every toolchain of a document** is that of one of its entries. -/
theorem exists_entry_of_ofReply (h : ofReply document = .ok toolchains) (ht : t ∈ toolchains) :
    ∃ entries, entriesOf document = .ok entries ∧
      ∃ entry ∈ entries, Toolchain.ofReply entry = .ok t.2 := by
  obtain ⟨parts, hparts, h⟩ := Steps.bind_eq_ok.1 h
  split at h
  · cases h
  · obtain rfl := Except.ok.inj h
    obtain ⟨part, hpart, hmem⟩ := List.mem_flatten.1 ht
    obtain ⟨language, -, hlanguage⟩ := Steps.exists_of_mem_mapM hparts hpart
    exact exists_entry_of_forLanguage hlanguage hmem

theorem exists_document_of_load {d : Disk} {path : Option Text} (h : load d path = .ok toolchains) :
    ∃ document, ReplyFile.read d (path.getD []) = .ok document ∧
      ofReply document = .ok toolchains := by
  rw [load] at h
  split at h
  · cases h
  · exact Steps.bind_eq_ok.1 h

/-- **All toolchains of a build are placed.** -/
theorem isPlaced_of_load {d : Disk} {path : Option Text} (h : load d path = .ok toolchains)
    (ht : t ∈ toolchains) : t.2.IsPlaced := by
  obtain ⟨document, -, hdocument⟩ := exists_document_of_load h
  obtain ⟨entries, -, entry, -, hentry⟩ := exists_entry_of_ofReply hdocument ht
  exact Toolchain.isPlaced_of_ofReply hentry

end Toolchains

end BuildLint
