import BuildLint.CMake.Index
import BuildLint.Proofs.Disk.Paths
import BuildLint.Proofs.Keyed
import Mathlib.Data.List.Infix

/-!
# Proofs/CMake/NewestIndex — which entry of a reply directory is taken for the newest index

CMake names its indexes so that the newest has the greatest name in the order of code points.  What
is taken is the greatest of all names that **begin** like an index's, in whatever order the directory
lists them; no other name makes a difference.  That name need not **end** like an index's: a stray
entry with a greater name than every index is taken for one.

* `greatest?_eq_some_iff` — the greatest name of a list.
* `Disk.mem_names_iff` — the names that a directory lists, by what stands below it.
* `newest?_greatest` — which name is taken, and when it is the newest index's.
-/

namespace BuildLint

/-! ## The order of texts -/

namespace Text

instance : Std.Asymm (fun c d : CodePoint => c < d) := ⟨fun _ _ => Nat.lt_asymm⟩

instance : Std.Trichotomous (fun c d : CodePoint => c < d) :=
  ⟨fun _ _ h h' => CodePoint.eq_of_val_eq (Nat.le_antisymm (Nat.not_lt.1 h') (Nat.not_lt.1 h))⟩

instance : Trans (fun c d : CodePoint => c < d) (fun c d : CodePoint => c < d)
    fun c d : CodePoint => c < d := ⟨Nat.lt_trans⟩

variable {a b c : Text}

theorem not_lt_trans (h : ¬b < a) (h' : ¬c < b) : ¬c < a := by
  intro hca
  by_cases hab : a < b
  · exact h' (List.lt_trans hca hab)
  · obtain rfl : a = b := List.le_antisymm (List.not_lt.1 h) (List.not_lt.1 hab)
    exact h' hca

end Text

/-! ## The names of a directory -/

namespace Disk

variable {d : Disk} {p name : Text} {l : Location}

theorem mem_namesAt_iff : name ∈ d.namesAt l ↔ (d.find? (l ++ [name])).isSome = true := by
  have hne : l ++ [name] ≠ [] := List.append_ne_nil_of_right_ne_nil l (List.cons_ne_nil _ _)
  rw [find?, if_neg hne, Keyed.isSome_get?_iff, namesAt, List.mem_filterMap]
  refine exists_congr fun e => and_congr_right fun _ => ?_
  rw [Option.ite_none_right_eq_some]
  constructor
  · rintro ⟨rfl, hlast⟩
    exact (List.dropLast_append_getLast? name hlast).symm
  · intro he
    rw [he, List.dropLast_concat, List.getLast?_concat]
    exact ⟨rfl, rfl⟩

/-- **A directory has an entry of some name.** -/
def HasEntry (d : Disk) (p name : Text) : Prop :=
  ∃ l, d.locate p = .ok l ∧ d.find? l = some .directory ∧ (d.find? (l ++ [name])).isSome = true

theorem HasEntry.isDirectory (h : d.HasEntry p name) : d.isDirectory p = true := by
  obtain ⟨l, hl, hd, -⟩ := h
  exact isDirectory_iff.2 ⟨l, hl, hd⟩

/-- **The names that a directory lists** are those of what stands right below it. -/
theorem mem_names_iff (h : d.isDirectory p = true) : name ∈ d.names p ↔ d.HasEntry p name := by
  obtain ⟨l, hl, hd⟩ := isDirectory_iff.1 h
  simp only [names, HasEntry, hl, mem_namesAt_iff, Except.ok.injEq, exists_eq_left', hd, true_and]

end Disk

namespace Index

/-! ## The greatest name -/

/-- **The newest of the names with a property**: no other such name is greater. -/
structure IsNewest (P : Text → Prop) (name : Text) : Prop where
  holds : P name
  not_lt : ∀ other, P other → ¬name < other

variable {P Q : Text → Prop} {a b name other : Text} {names : List Text}

theorem IsNewest.unique (h : IsNewest P a) (h' : IsNewest P b) : a = b :=
  List.le_antisymm (List.not_lt.1 (h'.not_lt a h.holds)) (List.not_lt.1 (h.not_lt b h'.holds))

theorem IsNewest.congr (hPQ : ∀ name, P name ↔ Q name) : IsNewest P name ↔ IsNewest Q name := by
  obtain rfl : P = Q := funext fun name => propext (hPQ name)
  rfl

theorem isNewest_greater (a b : Text) : IsNewest (· ∈ [a, b]) (greater a b) := by
  rw [greater]
  split_ifs with hab
  · refine ⟨by simp, List.forall_mem_cons.2 ⟨List.lt_asymm hab, ?_⟩⟩
    exact List.forall_mem_singleton.2 (List.lt_irrefl b)
  · exact ⟨List.mem_cons_self, List.forall_mem_cons.2 ⟨List.lt_irrefl a,
      List.forall_mem_singleton.2 hab⟩⟩

/-- What is newest among the names so far and one more is the greater of that and the newest. -/
theorem isNewest_foldl_greater (names : List Text) (first : Text) :
    IsNewest (· ∈ first :: names) (names.foldl greater first) := by
  induction names generalizing first with
  | nil => exact ⟨List.mem_cons_self, List.forall_mem_singleton.2 (List.lt_irrefl first)⟩
  | cons next rest ih =>
    have htwo := isNewest_greater first next
    have hrest := ih (greater first next)
    -- neither of the first two names is greater than the greater of them
    have hbound : ∀ other ∈ [first, next], ¬rest.foldl greater (greater first next) < other :=
      fun other hother => Text.not_lt_trans (htwo.not_lt other hother)
        (hrest.not_lt _ List.mem_cons_self)
    refine ⟨?_, List.forall_mem_cons.2 ⟨hbound first List.mem_cons_self, List.forall_mem_cons.2
      ⟨hbound next (List.mem_cons_of_mem _ List.mem_cons_self), fun other hother =>
        hrest.not_lt other (List.mem_cons_of_mem _ hother)⟩⟩⟩
    rcases List.mem_cons.1 hrest.holds with h | h
    · rw [List.foldl_cons, h]
      have hmem := List.mem_append_left rest htwo.holds
      exact hmem
    · exact List.mem_cons_of_mem _ (List.mem_cons_of_mem _ h)

theorem greatest?_eq_some_iff : greatest? names = some name ↔ IsNewest (· ∈ names) name := by
  cases names with
  | nil => exact ⟨fun h => (nomatch h), fun h => absurd h.holds List.not_mem_nil⟩
  | cons first rest =>
    have hfold := isNewest_foldl_greater rest first
    rw [greatest?, Option.some.injEq]
    exact ⟨fun h => h ▸ hfold, hfold.unique⟩

theorem greatest?_eq_none_iff : greatest? names = none ↔ names = [] := by
  cases names <;> simp [greatest?]

/-! ## The newest index -/

/-- A name begins like those of indexes. -/
def BeginsLikeIndex (name : Text) : Prop := Text.ofString "index-" <+: name

/-- **The name of an index**: it begins and ends like those of indexes. -/
structure IsIndexName (name : Text) : Prop where
  begins : BeginsLikeIndex name
  ends : Text.ofString ".json" <:+ name

/-- An entry of the reply directory that begins like an index. -/
structure IsCandidate (d : Disk) (replyDirectory name : Text) : Prop where
  entry : d.HasEntry (Path.tidy replyDirectory) name
  begins : BeginsLikeIndex name

/-- **An index in the reply directory.** -/
structure IsIndex (d : Disk) (replyDirectory name : Text) : Prop where
  entry : d.HasEntry (Path.tidy replyDirectory) name
  isName : IsIndexName name

variable {d e : Disk} {replyDirectory p : Text}

theorem IsIndex.isCandidate (h : IsIndex d replyDirectory name) :
    IsCandidate d replyDirectory name := ⟨h.entry, h.isName.begins⟩

theorem mem_candidates_iff (h : d.isDirectory (Path.tidy replyDirectory) = true) :
    name ∈ (d.names (Path.tidy replyDirectory)).filter (·.startsWith "index-") ↔
      IsCandidate d replyDirectory name := by
  rw [List.mem_filter, Disk.mem_names_iff h, Text.startsWith, List.isPrefixOf_iff_prefix]
  exact ⟨fun h => ⟨h.1, h.2⟩, fun h => ⟨h.entry, h.begins⟩⟩

/-- **What is taken for the newest index** has the greatest name of the candidates. -/
theorem newest?_eq_some_iff : newest? d replyDirectory = some p ↔
    ∃ name, IsNewest (IsCandidate d replyDirectory) name ∧
      p = Path.below (Path.tidy replyDirectory) name := by
  cases hd : d.isDirectory (Path.tidy replyDirectory) with
  | false =>
    simp only [newest?, hd, Bool.false_eq_true, if_false]
    refine ⟨fun h => (nomatch h), ?_⟩
    rintro ⟨name, h, -⟩
    rw [h.holds.entry.isDirectory] at hd
    cases hd
  | true =>
    simp only [newest?, hd, if_true, Option.map_eq_some_iff, greatest?_eq_some_iff]
    refine exists_congr fun name => and_congr (IsNewest.congr fun _ => mem_candidates_iff hd) ?_
    exact eq_comm

theorem newest?_eq_none_iff : newest? d replyDirectory = none ↔
    ∀ name, ¬IsCandidate d replyDirectory name := by
  cases hd : d.isDirectory (Path.tidy replyDirectory) with
  | false =>
    simp only [newest?, hd, Bool.false_eq_true, if_false, true_iff]
    intro name h
    rw [h.entry.isDirectory] at hd
    cases hd
  | true =>
    simp only [newest?, hd, if_true, Option.map_eq_none_iff, greatest?_eq_none_iff]
    rw [List.eq_nil_iff_forall_not_mem]
    exact forall_congr' fun name => not_congr (mem_candidates_iff hd)

/-- **Only names that begin like an index's** make a difference. -/
theorem newest?_congr (h : ∀ name, IsCandidate e replyDirectory name ↔
    IsCandidate d replyDirectory name) : newest? e replyDirectory = newest? d replyDirectory := by
  refine Option.ext fun p => ?_
  rw [newest?_eq_some_iff, newest?_eq_some_iff]
  exact exists_congr fun name => and_congr_left fun _ => IsNewest.congr h

/-! ## Strays -/

/-- **A stray**: it begins like an index, and does not end like one. -/
structure IsStray (d : Disk) (replyDirectory name : Text) : Prop where
  candidate : IsCandidate d replyDirectory name
  ends : ¬Text.ofString ".json" <:+ name

/-- **Every stray is passed**: some index has a greater name. -/
def StraysPassed (d : Disk) (replyDirectory : Text) : Prop :=
  ∀ stray, IsStray d replyDirectory stray → ∃ name, IsIndex d replyDirectory name ∧ stray < name

theorem IsCandidate.isIndex_or_isStray (h : IsCandidate d replyDirectory name) :
    IsIndex d replyDirectory name ∨ IsStray d replyDirectory name := by
  by_cases hends : Text.ofString ".json" <:+ name
  · exact .inl ⟨h.entry, h.begins, hends⟩
  · exact .inr ⟨h, hends⟩

/-- Where every stray is passed, the newest candidate is the newest index. -/
theorem StraysPassed.isNewest_iff (h : StraysPassed d replyDirectory) :
    IsNewest (IsCandidate d replyDirectory) name ↔ IsNewest (IsIndex d replyDirectory) name := by
  constructor
  · intro hname
    refine ⟨?_, fun other hother => hname.not_lt other hother.isCandidate⟩
    rcases hname.holds.isIndex_or_isStray with hindex | hstray
    · exact hindex
    · obtain ⟨other, hother, hlt⟩ := h name hstray
      exact absurd hlt (hname.not_lt other hother.isCandidate)
  · intro hname
    refine ⟨hname.holds.isCandidate, fun other hother hlt => ?_⟩
    rcases hother.isIndex_or_isStray with hindex | hstray
    · exact hname.not_lt other hindex hlt
    · obtain ⟨greater, hgreater, hlt'⟩ := h other hstray
      exact hname.not_lt greater hgreater (List.lt_trans hlt hlt')

/-- Where a stray is not passed, the newest candidate is a stray. -/
theorem exists_isStray_of_not_straysPassed (h : ¬StraysPassed d replyDirectory) :
    ∃ stray, IsStray d replyDirectory stray ∧
      IsNewest (IsCandidate d replyDirectory) stray := by
  simp only [StraysPassed, not_forall, not_exists, not_and] at h
  obtain ⟨stray, hstray, hpassed⟩ := h
  obtain ⟨p, hp⟩ : ∃ p, newest? d replyDirectory = some p :=
    Option.ne_none_iff_exists'.1 fun hnone => newest?_eq_none_iff.1 hnone stray hstray.candidate
  obtain ⟨name, hname, -⟩ := newest?_eq_some_iff.1 hp
  refine ⟨name, ?_, hname⟩
  rcases hname.holds.isIndex_or_isStray with hindex | h
  · have heq : name = stray := List.le_antisymm (List.not_lt.1 (hpassed name hindex))
      (List.not_lt.1 (hname.not_lt stray hstray.candidate))
    exact absurd hindex.isName.ends (heq ▸ hstray.ends)
  · exact h

/-- **The newest index of a reply directory.**  What is taken is the entry with the greatest name of
those that begin like an index; nothing is taken if there is none, or no such directory.  Neither the
order of the entries nor any with another name matters.  It is the newest of the indexes where each
stray is passed by an index, and otherwise a stray. -/
theorem newest?_greatest (d : Disk) (replyDirectory : Text) :
    (∀ p, newest? d replyDirectory = some p ↔
      ∃ name, IsNewest (IsCandidate d replyDirectory) name ∧
        p = Path.below (Path.tidy replyDirectory) name) ∧
    (newest? d replyDirectory = none ↔ d.isDirectory (Path.tidy replyDirectory) = false ∨
      ∀ name, d.HasEntry (Path.tidy replyDirectory) name → ¬BeginsLikeIndex name) ∧
    (∀ e : Disk, (∀ name, BeginsLikeIndex name → (e.HasEntry (Path.tidy replyDirectory) name ↔
      d.HasEntry (Path.tidy replyDirectory) name)) →
        newest? e replyDirectory = newest? d replyDirectory) ∧
    (StraysPassed d replyDirectory →
      (∀ p, newest? d replyDirectory = some p ↔
        ∃ name, IsNewest (IsIndex d replyDirectory) name ∧
          p = Path.below (Path.tidy replyDirectory) name) ∧
      (newest? d replyDirectory = none ↔ d.isDirectory (Path.tidy replyDirectory) = false ∨
        ∀ name, d.HasEntry (Path.tidy replyDirectory) name → ¬IsIndexName name)) ∧
    (¬StraysPassed d replyDirectory →
      ∃ stray, IsStray d replyDirectory stray ∧
        newest? d replyDirectory = some (Path.below (Path.tidy replyDirectory) stray)) := by
  have hnone : ∀ P : Text → Prop,
      (d.isDirectory (Path.tidy replyDirectory) = false ∨
        ∀ name, d.HasEntry (Path.tidy replyDirectory) name → ¬P name) ↔
      ∀ name, d.HasEntry (Path.tidy replyDirectory) name → ¬P name := by
    refine fun P => or_iff_right_of_imp fun hd name h => ?_
    rw [h.isDirectory] at hd
    cases hd
  refine ⟨fun _ => newest?_eq_some_iff, ?_, fun e h => ?_, fun h => ⟨fun p => ?_, ?_⟩, fun h => ?_⟩
  · rw [newest?_eq_none_iff, hnone]
    exact forall_congr' fun name => ⟨fun h hentry hbegins => h ⟨hentry, hbegins⟩,
      fun h hcandidate => h hcandidate.entry hcandidate.begins⟩
  · exact newest?_congr fun name => ⟨fun hname => ⟨(h name hname.begins).1 hname.entry,
      hname.begins⟩, fun hname => ⟨(h name hname.begins).2 hname.entry, hname.begins⟩⟩
  · rw [newest?_eq_some_iff]
    exact exists_congr fun name => and_congr_left fun _ => h.isNewest_iff
  · rw [newest?_eq_none_iff, hnone]
    constructor
    · exact fun hno name hentry hname => hno name ⟨hentry, hname.begins⟩
    · intro hno name hname
      rcases hname.isIndex_or_isStray with hindex | hstray
      · exact hno name hindex.entry hindex.isName
      · obtain ⟨other, hother, -⟩ := h name hstray
        exact hno other hother.entry hother.isName
  · obtain ⟨stray, hstray, hnewest⟩ := exists_isStray_of_not_straysPassed h
    exact ⟨stray, hstray, newest?_eq_some_iff.2 ⟨stray, hnewest, rfl⟩⟩

/-! ### Two reply directories -/

/-- A reply directory with two indexes, a stray between them and an entry of another kind. -/
def passedDisk : Disk :=
  ⟨[], [(["r"], .directory), (["r", "zz.json"], .file []), (["r", "index-2.json"], .file []),
    (["r", "index-1.tmp"], .file []), (["r", "index-1.json"], .file [])]⟩

theorem mem_names_passedDisk : name ∈ passedDisk.names (Path.tidy "/r") ↔
    passedDisk.HasEntry (Path.tidy "/r") name := Disk.mem_names_iff (by decide)

theorem isIndex_passedDisk : IsIndex passedDisk "/r" "index-2.json" :=
  ⟨mem_names_passedDisk.1 (by decide), List.isPrefixOf_iff_prefix.1 (by decide),
    List.isSuffixOf_iff_suffix.1 (by decide)⟩

theorem lt_or_eq_of_isCandidate (h : IsCandidate passedDisk "/r" name) :
    name < "index-2.json" ∨ name = "index-2.json" := by
  have hall : ∀ name ∈ passedDisk.names (Path.tidy "/r"),
      Text.startsWith name "index-" = true → name < "index-2.json" ∨ name = "index-2.json" := by
    decide
  exact hall name (mem_names_passedDisk.2 h.entry) (List.isPrefixOf_iff_prefix.2 h.begins)

theorem straysPassed_passedDisk : StraysPassed passedDisk "/r" := by
  intro stray hstray
  rcases lt_or_eq_of_isCandidate hstray.candidate with hlt | rfl
  · exact ⟨_, isIndex_passedDisk, hlt⟩
  · exact absurd isIndex_passedDisk.isName.ends hstray.ends

theorem newest?_greatest_passedDisk : newest? passedDisk "/r" = some "/r/index-2.json" := by
  obtain ⟨-, -, -, hpassed, -⟩ := newest?_greatest passedDisk "/r"
  refine ((hpassed straysPassed_passedDisk).1 _).2 ⟨"index-2.json", ?_, by decide⟩
  refine ⟨isIndex_passedDisk, fun other hother => ?_⟩
  rcases lt_or_eq_of_isCandidate hother.isCandidate with hlt | rfl
  · exact List.lt_asymm hlt
  · exact List.lt_irrefl _

/-- A reply directory with an index, and a temporary file whose name is greater. -/
def strayDisk : Disk :=
  ⟨[], [(["r"], .directory), (["r", "index-a.json"], .file []), (["r", "index-b.tmp"], .file [])]⟩

/-- **A stray is taken for the newest index**, although the directory has an index. -/
theorem newest?_takes_stray : newest? strayDisk "/r" = some "/r/index-b.tmp" ∧
    IsNewest (IsIndex strayDisk "/r") "index-a.json" ∧ ¬IsIndexName "index-b.tmp" := by
  have hmem : ∀ name, name ∈ strayDisk.names (Path.tidy "/r") ↔
      strayDisk.HasEntry (Path.tidy "/r") name := fun _ => Disk.mem_names_iff (by decide)
  have hends : ¬Text.ofString ".json" <:+ "index-b.tmp" :=
    mt List.isSuffixOf_iff_suffix.2 (by decide)
  refine ⟨by decide, ⟨⟨(hmem _).1 (by decide), List.isPrefixOf_iff_prefix.1 (by decide),
    List.isSuffixOf_iff_suffix.1 (by decide)⟩, fun other hother => ?_⟩, fun h => hends h.ends⟩
  have hnames : ∀ name ∈ strayDisk.names (Path.tidy "/r"),
      name = "index-a.json" ∨ name = "index-b.tmp" := by decide
  rcases hnames other ((hmem other).2 hother.entry) with rfl | rfl
  · exact List.lt_irrefl _
  · exact absurd hother.isName.ends hends

end Index

end BuildLint
