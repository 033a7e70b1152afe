import BuildLint.Proofs.Path.FromEnd
import BuildLint.Toolchain.Layout

/-!
# Proofs/Toolchain/Separators — a compiler path with slashes, and with backslashes

A path with a drive spells the same names with slashes as with backslashes, but only with
backslashes is its drive a drive: among slashes it is one more name, in front of the others.  The
toolset is the fifth name from the end.  So where four names follow the drive, and only there, the
two spellings of a path are read differently: with slashes the drive is taken for a toolset.

* `Path.Driven` — a path with a drive, by its names.
* `Layout.components_slashes`, `Layout.components_backslashes` — the names of either spelling.
* `Layout.ofPath_eq_replace_iff` — when the two are read alike.
* `Layout.ofPath_ne_replace` — a path where they are not.
-/

namespace BuildLint

/-- **A path with a drive**: a letter, and the names behind it. -/
structure Path.Driven where
  letter : CodePoint
  names : List Text
  isLetter : letter.isLetter = true
  names_ne_nil : names ≠ []
  isProper : ∀ name ∈ names, IsProper name
  backslash_notMem : ∀ name ∈ names, ('\\' : CodePoint) ∉ name

namespace Path.Driven

/-- The drive of a path. -/
def drive (p : Driven) : Text := [p.letter, ':']

/-- A path with a drive, spelled with a separator. -/
def spelled (p : Driven) (separator : CodePoint) : Text :=
  p.drive ++ ([separator] ++ Text.joinWith [separator] p.names)

variable (p : Driven)

theorem letter_ne {c : CodePoint} (hc : c.isLetter = false) : p.letter ≠ c := fun h =>
  Bool.false_ne_true (hc ▸ h ▸ p.isLetter)

theorem slash_notMem_drive : ('/' : CodePoint) ∉ p.drive :=
  List.not_mem_cons_of_ne_of_not_mem (p.letter_ne (by decide)).symm (by decide)

theorem backslash_notMem_drive : ('\\' : CodePoint) ∉ p.drive :=
  List.not_mem_cons_of_ne_of_not_mem (p.letter_ne (by decide)).symm (by decide)

/-- Among slashes a drive is a proper name. -/
theorem isProper_drive : IsProper p.drive where
  nonempty := List.cons_ne_nil _ _
  notDot h := List.cons_ne_nil _ _ (List.cons.inj h).2
  notDots h := absurd (List.cons.inj h).2 (by decide)
  whole := p.slash_notMem_drive

theorem replace_spelled : (p.spelled '/').replace '/' '\\' = p.spelled '\\' := by
  have hjoin := Text.replace_joinWith '\\' fun name hname => (p.isProper name hname).whole
  rw [spelled, Text.replace_append, Text.replace_append, hjoin,
    Text.replace_of_not_mem _ p.slash_notMem_drive]
  rfl

theorem spelled_slashes : p.spelled '/' = Text.joinWith "/" (p.drive :: p.names) := by
  obtain ⟨name, names, hnames⟩ := List.exists_cons_of_ne_nil p.names_ne_nil
  rw [spelled, hnames, Text.joinWith_cons_cons, List.append_assoc]
  rfl

theorem spelling_slashes : Spelling.ofPath (p.spelled '/') = .slashes := by
  refine if_neg fun hholds => ?_
  obtain ⟨c, hc, hback⟩ := List.any_eq_true.1 hholds
  obtain rfl := of_decide_eq_true hback
  rw [spelled_slashes] at hc
  rcases Text.mem_joinWith hc with h | ⟨name, hname, hmem⟩
  · exact absurd h (by decide)
  · rcases List.mem_cons.1 hname with rfl | hname
    · exact p.backslash_notMem_drive hmem
    · exact p.backslash_notMem name hname hmem

theorem spelling_backslashes : Spelling.ofPath (p.spelled '\\') = .drives := by
  have hmem : ('\\' : CodePoint) ∈ p.spelled '\\' :=
    List.mem_append_right p.drive List.mem_cons_self
  exact if_pos (List.any_eq_true.2 ⟨_, hmem, decide_eq_true rfl⟩)

end Path.Driven

namespace Layout

variable {path path' : Text} {rest : List Text}

theorem exists_of_toolsetLevels_lt {names : List Text} (h : toolsetLevels < names.length) :
    ∃ compiler target host bin toolset rest,
      names = compiler :: target :: host :: bin :: toolset :: rest := by
  match names, h with
  | compiler :: target :: host :: bin :: toolset :: rest, _ =>
    exact ⟨compiler, target, host, bin, toolset, rest, rfl⟩

/-- A path is too short if it has no five names. -/
theorem ofPath_eq_pathTooShort_iff (path : Text) :
    ofPath path = .error .pathTooShort ↔ (components path).length ≤ toolsetLevels := by
  rw [ofPath]
  split
  · rename_i compiler target host bin toolset names hnames
    have hlong : ¬(components path).length ≤ toolsetLevels := by
      rw [hnames]
      exact Nat.not_le_of_lt (Nat.le_add_left _ names.length)
    refine iff_of_false ?_ hlong
    split
    · exact fun h => nomatch h
    · exact fun h => nomatch h
  · rename_i hshort
    refine iff_of_true rfl (Nat.le_of_not_lt fun hlong => ?_)
    obtain ⟨compiler, target, host, bin, toolset, names, hnames⟩ := exists_of_toolsetLevels_lt hlong
    exact hshort _ _ _ _ _ _ hnames

/-- **A layout is read off the last five names**, whatever stands in front of them. -/
theorem ofPath_eq_of_components (h : components path' = components path ++ rest)
    (hlong : toolsetLevels < (components path).length) : ofPath path' = ofPath path := by
  obtain ⟨compiler, target, host, bin, toolset, names, hnames⟩ := exists_of_toolsetLevels_lt hlong
  rw [ofPath, ofPath, h, hnames]
  rfl

variable (p : Path.Driven)

/-- Among slashes a drive is one more name. -/
theorem components_slashes : components (p.spelled '/') = p.names.reverse ++ [p.drive] := by
  have hproper : ∀ name ∈ p.drive :: p.names, Path.IsProper name :=
    List.forall_mem_cons.2 ⟨p.isProper_drive, p.isProper⟩
  have hslash : Path.Spelling.slashes.isSeparator '/' = true := rfl
  have hnames := Path.Spelling.namesFromEnd_joinWith (Path.Spelling.isLead_slashes 0) hslash
    fun name hname => Path.Spelling.isWhole_slashes_of_proper (hproper name hname)
  rw [components, p.spelling_slashes, p.spelled_slashes, Path.Spelling.normalize,
    Path.normalize_joinWith (List.cons_ne_nil _ _) hproper, ← List.reverse_cons]
  exact hnames

/-- Among backslashes a drive is no name. -/
theorem components_backslashes : components (p.spelled '\\') = p.names.reverse := by
  have hreplace : (p.spelled '\\').replace '/' '\\' = p.spelled '\\' := by
    rw [← p.replace_spelled, Text.replace_replace _ (by decide)]
  have hnormal : Path.Drive.normalize (p.spelled '\\') = p.spelled '\\' :=
    Path.Drive.normalize_of_replace_eq hreplace p.names_ne_nil p.isProper p.backslash_notMem
  have hbackslash : Path.Spelling.drives.isSeparator '\\' = true := rfl
  have hnames := Path.Spelling.namesFromEnd_joinWith (Path.Spelling.isLead_drive p.letter)
    hbackslash fun name hname =>
      Path.Spelling.isWhole_drives_of_proper (p.isProper name hname) (p.backslash_notMem name hname)
  rw [components, p.spelling_backslashes, Path.Spelling.normalize, hnormal]
  exact hnames

theorem length_components_slashes :
    (components (p.spelled '/')).length = p.names.length + 1 := by
  rw [components_slashes, List.length_append, List.length_reverse, List.length_singleton]

theorem length_components_backslashes :
    (components (p.spelled '\\')).length = p.names.length := by
  rw [components_backslashes, List.length_reverse]

/-- **The two spellings of a compiler path** have the same layout, or the same error, unless exactly
four names follow the drive.  There the path is too short with backslashes, and with slashes its
drive is read as a toolset. -/
theorem ofPath_eq_replace_iff :
    (ofPath (p.spelled '/') = ofPath ((p.spelled '/').replace '/' '\\') ↔ p.names.length ≠ 4) ∧
    ∀ bin host target compiler, p.names = [bin, host, target, compiler] →
      ofPath ((p.spelled '/').replace '/' '\\') = .error .pathTooShort ∧
      ofPath (p.spelled '/') =
        (match hostOf? host with
        | some host => .ok ⟨p.drive, host, target⟩
        | none => .error .unknownHostDirectory) := by
  rw [p.replace_spelled]
  have hslashes := ofPath_eq_pathTooShort_iff (p.spelled '/')
  have hbackslashes := ofPath_eq_pathTooShort_iff (p.spelled '\\')
  rw [length_components_slashes] at hslashes
  rw [length_components_backslashes] at hbackslashes
  refine ⟨⟨fun heq hfour => ?_, fun hne => ?_⟩, fun bin host target compiler hnames => ⟨?_, ?_⟩⟩
  · have hshort := hslashes.1 (heq.trans (hbackslashes.2 (Nat.le_of_eq hfour)))
    rw [hfour] at hshort
    exact absurd hshort (by decide)
  · rcases Nat.lt_or_gt_of_ne hne with hshort | hlong
    · rw [hslashes.2 hshort, hbackslashes.2 (Nat.le_of_lt hshort)]
    · have hnames := (components_slashes p).trans
        (congrArg (· ++ [p.drive]) (components_backslashes p).symm)
      exact ofPath_eq_of_components hnames (by rwa [length_components_backslashes])
  · exact hbackslashes.2 (by rw [hnames]; exact Nat.le_refl 4)
  · rw [ofPath, components_slashes, hnames]
    rfl

/-- A path with five names behind its drive. -/
def toolsetBelowDrive : Path.Driven where
  letter := 'C'
  names := ["14.30", "bin", "Hostx64", "x64", "cl.exe"]
  isLetter := by decide
  names_ne_nil := List.cons_ne_nil _ _
  isProper name h := by
    have hall : ∀ name ∈ (["14.30", "bin", "Hostx64", "x64", "cl.exe"] : List Text),
        name ≠ "" ∧ name ≠ "." ∧ name ≠ ".." ∧ ('/' : CodePoint) ∉ name := by decide
    obtain ⟨hnonempty, hdot, hdots, hwhole⟩ := hall name h
    exact ⟨hnonempty, hdot, hdots, hwhole⟩
  backslash_notMem := by decide

theorem ofPath_eq_replace_iff_toolsetBelowDrive :
    ofPath "C:/14.30/bin/Hostx64/x64/cl.exe" =
      ofPath (Text.replace '/' '\\' "C:/14.30/bin/Hostx64/x64/cl.exe") :=
  (ofPath_eq_replace_iff toolsetBelowDrive).1.2 (by decide)

/-- Four names behind the drive: the two spellings are read differently. -/
theorem ofPath_ne_replace :
    ofPath "C:/bin/Hostx64/x64/cl.exe" ≠
      ofPath (Text.replace '/' '\\' "C:/bin/Hostx64/x64/cl.exe") := by
  decide +kernel

end Layout

end BuildLint
