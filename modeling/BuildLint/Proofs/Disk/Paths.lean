import BuildLint.Disk
import BuildLint.Proofs.Text.CodePoints

/-!
# Proofs/Disk/Paths — what an operation changes, seen through paths

Following a path asks of every location on the way only whether a directory stands there
(`follow_eq_ok_iff`).  Writing and removing a file leave all directories as they are, so every path
keeps its location and only what stands at one location changes.

* `look?_write_self`, `look?_write_of_ne`, `look?_remove_self`, `look?_remove_of_ne` — what stands
  at a path after a file is written or removed.
* `rewrites_of_write` — writing changes the file at one location and nothing else.
* `exists_remove_eq_ok` — what is there and no directory can be removed.
* `locate_eq_ok` — the location of a path does not depend on what the disk holds.
-/

namespace BuildLint

namespace Disk

variable {d e : Disk} {p q : Text} {l : Location} {content : Bytes}

/-! ## Following a path -/

/-- A directory can be left for another entry. -/
theorem follow_cons {base : Location} (h : d.find? base = some .directory) (name : Text)
    (rest : List Text) :
    d.follow base (name :: rest) =
      d.follow (if Path.isName name then if name = ".." then base.dropLast else base ++ [name]
        else base) rest := by
  rw [follow, h]
  cases Path.isName name <;> rfl

/-- Nothing else can be left. -/
theorem follow_cons_ne_ok {base : Location} (h : d.find? base ≠ some .directory) (name : Text)
    (rest : List Text) : d.follow base (name :: rest) ≠ .ok l := by
  rw [follow]
  cases hb : d.find? base with
  | none => exact fun h => nomatch h
  | some entry => cases entry with
    | file content => exact fun h => nomatch h
    | directory => exact absurd hb h

/-- **Where a path leads** depends on directories alone. -/
theorem follow_eq_ok_iff (h : ∀ k, d.find? k = some .directory ↔ e.find? k = some .directory)
    (base : Location) (names : List Text) :
    d.follow base names = .ok l ↔ e.follow base names = .ok l := by
  induction names generalizing base with
  | nil => rfl
  | cons name rest ih =>
    by_cases hd : d.find? base = some .directory
    · rw [follow_cons hd, follow_cons ((h base).1 hd)]
      exact ih _
    · exact iff_of_false (follow_cons_ne_ok hd name rest)
        (follow_cons_ne_ok (mt (h base).2 hd) name rest)

/-- A path leads on where more directories stand. -/
theorem follow_eq_ok_of_directories
    (h : ∀ k, d.find? k = some .directory → e.find? k = some .directory) {base : Location}
    {names : List Text} (hd : d.follow base names = .ok l) : e.follow base names = .ok l := by
  induction names generalizing base with
  | nil => exact hd
  | cons name rest ih =>
    by_cases hbase : d.find? base = some .directory
    · rw [follow_cons hbase] at hd
      rw [follow_cons (h base hbase)]
      exact ih hd
    · exact absurd hd (follow_cons_ne_ok hbase name rest)

/-- Two disks with the same directories give a path the same location. -/
theorem locate_eq_ok_iff (hhere : d.here = e.here)
    (h : ∀ k, d.find? k = some .directory ↔ e.find? k = some .directory) (p : Text) :
    d.locate p = .ok l ↔ e.locate p = .ok l := by
  rw [locate, locate, hhere]
  split
  · rfl
  · exact follow_eq_ok_iff h _ _

/-- What stands at a path that has a location. -/
theorem look?_of_locate (h : d.locate p = .ok l) : d.look? p = d.find? l := by rw [look?, h]

/-- Nothing stands at a path that has none. -/
theorem look?_eq_none_of_locate (h : ∀ l, d.locate p ≠ .ok l) : d.look? p = none := by
  rw [look?]
  cases hp : d.locate p with
  | ok l => exact absurd hp (h l)
  | error problem => rfl

theorem isThere_eq_false_iff : d.isThere p = false ↔ d.look? p = none := by
  rw [isThere, Option.isSome_eq_false_iff, Option.isNone_iff_eq_none]

theorem isDirectory_iff : d.isDirectory p = true ↔
    ∃ l, d.locate p = .ok l ∧ d.find? l = some .directory := by
  rw [isDirectory, beq_iff_eq, look?]
  cases d.locate p <;> simp

/-- A file that stands at a path is read there. -/
theorem readBytes_of_look? (h : d.look? p = some (.file content)) : d.readBytes p = .ok content := by
  rw [look?] at h
  rw [readBytes]
  cases hp : d.locate p with
  | error problem =>
    rw [hp] at h
    cases h
  | ok l =>
    rw [hp] at h
    simp only [h]

/-- **Plain text** is read as it was encoded. -/
theorem readText_of_isPlain {t : Text} (ht : t.IsPlain) (h : d.readBytes p = .ok (Utf8.encode t)) :
    d.readText p = .ok t := by
  rw [readText, h]
  dsimp only
  rw [ht.decode_encode]
  dsimp only
  rw [ht.unifyLineEnds]

/-- The current directory is no file. -/
theorem readBytes_dot_ne_ok (d : Disk) (content : Bytes) : d.readBytes "." ≠ .ok content := by
  have hlocate : d.locate "." = d.follow d.here ["."] := rfl
  rw [readBytes, hlocate]
  by_cases hd : d.find? d.here = some .directory
  · have hfollow : d.follow d.here ["."] = .ok d.here := by
      rw [follow_cons hd]
      rfl
    simp [hfollow, hd]
  · cases hfollow : d.follow d.here ["."] with
    | error problem => exact fun h => nomatch h
    | ok l => exact absurd hfollow (follow_cons_ne_ok hd _ _)

/-! ## One location changes

A change that leaves every directory a directory, and makes none, changes what stands at the paths
of one location only. -/

/-- **What stands at a path** of the location that changes. -/
theorem look?_of_change_self (hhere : e.here = d.here)
    (h : ∀ k, e.find? k = some .directory ↔ d.find? k = some .directory)
    (hq : d.locate q = .ok l) : e.look? q = e.find? l :=
  look?_of_locate ((locate_eq_ok_iff hhere h q).2 hq)

/-- **What stands at any other path** stays. -/
theorem look?_of_change_of_ne (hhere : e.here = d.here)
    (h : ∀ k, e.find? k = some .directory ↔ d.find? k = some .directory)
    (hne : ∀ k, k ≠ l → e.find? k = d.find? k) (hq : d.locate q ≠ .ok l) :
    e.look? q = d.look? q := by
  by_cases hloc : ∃ k, d.locate q = .ok k
  · obtain ⟨k, hk⟩ := hloc
    rw [look?_of_change_self hhere h hk, look?_of_locate hk]
    exact hne k fun hkl => hq (hkl ▸ hk)
  · rw [look?_eq_none_of_locate fun k hk => hloc ⟨k, hk⟩]
    exact look?_eq_none_of_locate fun k hk => hloc ⟨k, (locate_eq_ok_iff hhere h q).1 hk⟩

theorem find?_ne_nil (h : d.find? l ≠ some .directory) : l ≠ [] := by
  rintro rfl
  exact h (by simp [find?])

/-- Putting a file where no directory stands makes and takes no directory. -/
theorem find?_put_file_iff (h : d.find? l ≠ some .directory) (k : Location) :
    (d.put l (.file content)).find? k = some .directory ↔ d.find? k = some .directory := by
  by_cases hk : k = l
  · subst hk
    rw [find?_put_self d (find?_ne_nil h)]
    exact iff_of_false (by simp) h
  · rw [find?_put_of_ne d hk]

/-- Erasing what is no directory makes and takes no directory. -/
theorem find?_erase_iff (h : d.find? l ≠ some .directory) (k : Location) :
    (d.erase l).find? k = some .directory ↔ d.find? k = some .directory := by
  by_cases hk : k = l
  · subst hk
    rw [find?_erase_self d (find?_ne_nil h)]
    exact iff_of_false (by simp) h
  · rw [find?_erase_of_ne d hk]

/-- Entries that are put elsewhere do not matter. -/
theorem find?_foldl_put_of_not_mem {entries : List (Location × Entry)}
    (h : l ∉ entries.map Prod.fst) (d : Disk) :
    (entries.foldl (fun d e => d.put e.1 e.2) d).find? l = d.find? l := by
  induction entries generalizing d with
  | nil => rfl
  | cons e rest ih =>
    rw [List.map_cons, List.mem_cons, not_or] at h
    rw [List.foldl_cons, ih h.2, find?_put_of_ne d h.1]

/-! ## Writing -/

/-- A file is written at the location of its path, where no directory stands. -/
theorem write_eq_ok_iff : d.write p content = .ok e ↔
    ∃ l, d.locate p = .ok l ∧ d.find? l ≠ some .directory ∧ e = d.put l (.file content) := by
  rw [write]
  cases hp : d.locate p with
  | error problem => simp
  | ok l =>
    by_cases hd : d.find? l = some .directory
    · simp [hd]
    · simp only [hd, if_false, Except.ok.injEq, exists_eq_left', ne_eq, not_false_eq_true, true_and]
      exact eq_comm

/-- A file can be written at a path: directories lead there, and none stands there. -/
def CanWrite (d : Disk) (p : Text) : Prop := ∃ l, d.locate p = .ok l ∧ d.find? l ≠ some .directory

theorem exists_write_eq_ok_iff : (∃ e, d.write p content = .ok e) ↔ d.CanWrite p := by
  constructor
  · rintro ⟨e, h⟩
    obtain ⟨l, hl, hd, -⟩ := write_eq_ok_iff.1 h
    exact ⟨l, hl, hd⟩
  · rintro ⟨l, hl, hd⟩
    exact ⟨_, write_eq_ok_iff.2 ⟨l, hl, hd, rfl⟩⟩

/-- Whether a file can be written at a path does not depend on what is written. -/
theorem exists_write_eq_ok (h : ∃ content e, d.write p content = .ok e) (content : Bytes) :
    ∃ e, d.write p content = .ok e := by
  obtain ⟨other, hother⟩ := h
  exact exists_write_eq_ok_iff.2 (exists_write_eq_ok_iff.1 hother)

theorem here_write (h : d.write p content = .ok e) : e.here = d.here := by
  obtain ⟨l, -, -, rfl⟩ := write_eq_ok_iff.1 h
  rfl

/-- **What stands at the written path**: the file. -/
theorem look?_write_self (h : d.write p content = .ok e) (hq : d.locate q = d.locate p) :
    e.look? q = some (.file content) := by
  obtain ⟨l, hl, hd, rfl⟩ := write_eq_ok_iff.1 h
  rw [look?_of_change_self (by rfl) (find?_put_file_iff hd) (hq.trans hl),
    find?_put_self d (find?_ne_nil hd)]

/-- **What stands at any other path** stays. -/
theorem look?_write_of_ne (h : d.write p content = .ok e) (hq : d.locate q ≠ d.locate p) :
    e.look? q = d.look? q := by
  obtain ⟨l, hl, hd, rfl⟩ := write_eq_ok_iff.1 h
  exact look?_of_change_of_ne (by rfl) (find?_put_file_iff hd)
    (fun k hk => find?_put_of_ne d hk _) (hl ▸ hq)

/-- A written file is read back. -/
theorem readBytes_write_self (h : d.write p content = .ok e) : e.readBytes p = .ok content :=
  readBytes_of_look? (look?_write_self h rfl)

/-- **Only the file at a path differs** between two disks, and then it holds the content. -/
structure Rewrites (d : Disk) (p : Text) (content : Bytes) (e : Disk) : Prop where
  here : e.here = d.here
  written : e.readBytes p = .ok content
  elsewhere : ∀ l, d.locate p ≠ .ok l → e.find? l = d.find? l

theorem rewrites_of_write (h : d.write p content = .ok e) : d.Rewrites p content e := by
  refine ⟨here_write h, readBytes_write_self h, ?_⟩
  intro k hk
  obtain ⟨l, hl, -, rfl⟩ := write_eq_ok_iff.1 h
  refine find?_put_of_ne d ?_ _
  rintro rfl
  exact hk hl

/-- Writing a file leaves every path its location. -/
theorem locate_write (h : d.write p content = .ok e) (q : Text) (l : Location) :
    e.locate q = .ok l ↔ d.locate q = .ok l := by
  obtain ⟨k, -, hd, rfl⟩ := write_eq_ok_iff.1 h
  exact locate_eq_ok_iff (by rfl) (find?_put_file_iff hd) q

/-- Writing a file makes and takes no directory. -/
theorem isDirectory_write (h : d.write p content = .ok e) (q : Text) :
    e.isDirectory q = d.isDirectory q := by
  by_cases hq : d.locate q = d.locate p
  · obtain ⟨l, hl, hd, -⟩ := write_eq_ok_iff.1 h
    rw [isDirectory, isDirectory, look?_write_self h hq, look?_of_locate (hq.trans hl),
      beq_eq_false_iff_ne.2 hd]
    rfl
  · rw [isDirectory, isDirectory, look?_write_of_ne h hq]

/-- Writing a file takes nothing away. -/
theorem isThere_write (h : d.write p content = .ok e) (hq : d.isThere q = true) :
    e.isThere q = true := by
  by_cases hloc : d.locate q = d.locate p
  · rw [isThere, look?_write_self h hloc]
    rfl
  · rwa [isThere, look?_write_of_ne h hloc]

/-! ## Making directories -/

/-- A directory is made at the location of its path, where nothing stands. -/
theorem makeDirectory_eq_ok_iff : d.makeDirectory p = .ok e ↔
    ∃ l, d.locate p = .ok l ∧ d.find? l = none ∧ e = d.put l .directory := by
  rw [makeDirectory]
  cases hp : d.locate p with
  | error problem => simp
  | ok l => cases hl : d.find? l <;> simp [hl, eq_comm]

/-- Making a directory takes nothing away. -/
theorem isThere_makeDirectory (h : d.makeDirectory p = .ok e) (hq : d.isThere q = true) :
    e.isThere q = true := by
  obtain ⟨l, -, hl, rfl⟩ := makeDirectory_eq_ok_iff.1 h
  have hstays : ∀ k entry, d.find? k = some entry → (d.put l .directory).find? k = some entry :=
    fun k entry hk => by
      have hne : k ≠ l := fun hkl => by
        rw [hkl, hl] at hk
        cases hk
      rw [find?_put_of_ne d hne, hk]
  by_cases hloc : ∃ k, d.locate q = .ok k
  · obtain ⟨k, hk⟩ := hloc
    have hk' : (d.put l .directory).locate q = .ok k := by
      rw [locate] at hk ⊢
      split at hk
      · cases hk
      · rw [if_neg ‹_›]
        exact follow_eq_ok_of_directories (fun k => hstays k .directory) hk
    rw [isThere, look?_of_locate hk] at hq
    rw [isThere, look?_of_locate hk']
    obtain ⟨entry, hentry⟩ := Option.isSome_iff_exists.1 hq
    rw [hstays k entry hentry]
    rfl
  · rw [isThere, look?_eq_none_of_locate fun k hk => hloc ⟨k, hk⟩] at hq
    cases hq

/-! ## Removing -/

/-- A file is removed from the location of its path. -/
theorem remove_eq_ok_iff : d.remove p = .ok e ↔
    ∃ l content, d.locate p = .ok l ∧ d.find? l = some (.file content) ∧ e = d.erase l := by
  rw [remove]
  cases hp : d.locate p with
  | error problem => simp
  | ok l => cases hl : d.find? l with
    | none => simp [hl]
    | some entry => cases entry <;> simp [hl, eq_comm]

theorem here_remove (h : d.remove p = .ok e) : e.here = d.here := by
  obtain ⟨l, -, -, -, rfl⟩ := remove_eq_ok_iff.1 h
  rfl

/-- **What stands at the removed path**: nothing. -/
theorem look?_remove_self (h : d.remove p = .ok e) (hq : d.locate q = d.locate p) :
    e.look? q = none := by
  obtain ⟨l, content, hl, hfile, rfl⟩ := remove_eq_ok_iff.1 h
  have hd : d.find? l ≠ some .directory := by simp [hfile]
  rw [look?_of_change_self (by rfl) (find?_erase_iff hd) (hq.trans hl),
    find?_erase_self d (find?_ne_nil hd)]

/-- **What stands at any other path** stays. -/
theorem look?_remove_of_ne (h : d.remove p = .ok e) (hq : d.locate q ≠ d.locate p) :
    e.look? q = d.look? q := by
  obtain ⟨l, content, hl, hfile, rfl⟩ := remove_eq_ok_iff.1 h
  exact look?_of_change_of_ne (by rfl) (find?_erase_iff (by simp [hfile]))
    (fun k hk => find?_erase_of_ne d hk) (hl ▸ hq)

/-- Removing a file leaves every path its location. -/
theorem locate_remove (h : d.remove p = .ok e) (q : Text) (l : Location) :
    e.locate q = .ok l ↔ d.locate q = .ok l := by
  obtain ⟨k, content, -, hfile, rfl⟩ := remove_eq_ok_iff.1 h
  have hd : d.find? k ≠ some .directory := by simp [hfile]
  exact locate_eq_ok_iff (by rfl) (find?_erase_iff hd) q

/-- Removing a file lets nothing appear. -/
theorem isThere_remove (h : d.remove p = .ok e) (hq : d.isThere q = false) :
    e.isThere q = false := by
  by_cases hloc : d.locate q = d.locate p
  · rw [isThere, look?_remove_self h hloc]
    rfl
  · rwa [isThere, look?_remove_of_ne h hloc]

/-- Removing a file makes and takes no directory. -/
theorem isDirectory_remove (h : d.remove p = .ok e) (q : Text) :
    e.isDirectory q = d.isDirectory q := by
  by_cases hq : d.locate q = d.locate p
  · obtain ⟨l, content, hl, hfile, -⟩ := remove_eq_ok_iff.1 h
    rw [isDirectory, isDirectory, look?_remove_self h hq, look?_of_locate (hq.trans hl), hfile]
    rfl
  · rw [isDirectory, isDirectory, look?_remove_of_ne h hq]

/-- **What is there and no directory can be removed.** -/
theorem exists_remove_eq_ok (h : d.isThere p = true) (hd : d.isDirectory p = false) :
    ∃ e, d.remove p = .ok e := by
  rw [isThere, look?] at h
  rw [isDirectory, look?] at hd
  cases hp : d.locate p with
  | error problem => simp [hp] at h
  | ok l =>
    simp only [hp] at h hd
    cases hl : d.find? l with
    | none => simp [hl] at h
    | some entry => cases entry with
      | directory => simp [hl] at hd
      | file content => exact ⟨_, remove_eq_ok_iff.2 ⟨l, content, hp, hl, rfl⟩⟩

/-! ## Locations by spelling -/

/-- The location that a name leads to. -/
def stepTo (base : Location) (name : Text) : Location :=
  if Path.isName name then if name = ".." then base.dropLast else base ++ [name] else base

/-- **The location that a path spells**, seen from a directory. -/
def place (here : Location) (p : Text) : Location :=
  (Path.parts p).foldl stepTo (if Path.isAbsolute p then [] else here)

/-- A name leads at most one location further down. -/
theorem length_foldl_stepTo_le (names : List Text) (base : Location) :
    (names.foldl stepTo base).length ≤ base.length + names.length := by
  induction names generalizing base with
  | nil => exact le_rfl
  | cons name rest ih =>
    have hstep : (stepTo base name).length ≤ base.length + 1 := by
      rw [stepTo]
      split_ifs <;> grind
    rw [List.foldl_cons, List.length_cons]
    exact (ih _).trans (by omega)

theorem follow_eq_ok {base : Location} {names : List Text} (h : d.follow base names = .ok l) :
    l = names.foldl stepTo base := by
  induction names generalizing base with
  | nil => exact (Except.ok.inj h).symm
  | cons name rest ih =>
    by_cases hd : d.find? base = some .directory
    · rw [follow_cons hd] at h
      exact ih h
    · exact absurd h (follow_cons_ne_ok hd name rest)

/-- **A path has no location but the one it spells.** -/
theorem locate_eq_ok (h : d.locate p = .ok l) : l = place d.here p := by
  rw [locate] at h
  split at h
  · cases h
  · exact follow_eq_ok h

/-- Where paths spell different locations, writing at one leaves the other as it is. -/
theorem look?_write_of_place_ne (h : d.write p content = .ok e)
    (hne : place d.here q ≠ place d.here p) : e.look? q = d.look? q := by
  obtain ⟨l, hl, -, -⟩ := write_eq_ok_iff.1 h
  refine look?_write_of_ne h fun hq => hne ?_
  exact (locate_eq_ok (hq.trans hl)).symm.trans (locate_eq_ok hl)

/-- What is there has the location that its path spells. -/
theorem locate_of_isThere (h : d.isThere p = true) : d.locate p = .ok (place d.here p) := by
  cases hp : d.locate p with
  | error problem => simp [isThere, look?, hp] at h
  | ok l => rw [locate_eq_ok hp]

/-- **What is read at a path** is decided by what stands there. -/
theorem readBytes_congr (h : d.look? p = e.look? p) (hthere : d.isThere p = true) :
    d.readBytes p = e.readBytes p := by
  have hd := locate_of_isThere hthere
  have he := locate_of_isThere ((congrArg Option.isSome h).symm.trans hthere)
  rw [look?_of_locate hd, look?_of_locate he] at h
  rw [readBytes, readBytes, hd, he]
  simp only [h]

/-- A file is not written where nothing stands, if something stands at the same place. -/
theorem place_ne_of_write (h : d.write p content = .ok e) (hp : d.isThere p = false)
    (hq : d.isThere q = true) : place d.here q ≠ place d.here p := by
  intro hplace
  obtain ⟨l, hl, -, -⟩ := write_eq_ok_iff.1 h
  have hlocate : d.locate q = d.locate p := by
    rw [locate_of_isThere hq, hplace, hl, ← locate_eq_ok hl]
  rw [isThere, look?, hlocate, ← look?, ← isThere, hp] at hq
  cases hq

/-- Where paths spell different locations, removing one leaves the other as it is. -/
theorem look?_remove_of_place_ne (h : d.remove p = .ok e)
    (hne : place d.here q ≠ place d.here p) : e.look? q = d.look? q := by
  obtain ⟨l, -, hl, -, -⟩ := remove_eq_ok_iff.1 h
  refine look?_remove_of_ne h fun hq => hne ?_
  exact (locate_eq_ok (hq.trans hl)).symm.trans (locate_eq_ok hl)

end Disk

end BuildLint
