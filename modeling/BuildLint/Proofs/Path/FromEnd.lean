import BuildLint.Path.Drive
import BuildLint.Proofs.Path.Components
import BuildLint.Proofs.Text.Trimming

/-!
# Proofs/Path/FromEnd — the names of a normal path come off its end

A normal path is a **lead**, that is a drive and the separators of a root, and names joined behind
it.  Taking the last name off leaves the normal path of the names before it, and of the lead alone
nothing comes off.  So the names of the path are taken off one by one, whichever way it is spelled.

* `Spelling.IsLead`, `Spelling.IsWhole` — the lead of a path, and its names.
* `Spelling.namesFromEnd_joinWith` — what comes off a normal path.
* `normalize_joinWith`, `Drive.normalize_of_replace_eq` — proper names are spelled normally.
-/

namespace BuildLint

namespace Path

variable {names : List Text} {name : Text}

namespace Spelling

/-- **The lead of a path**: a drive, whatever follows it, and separators. -/
structure IsLead (s : Spelling) (drive root : Text) : Prop where
  driveLength_eq : ∀ rest, s.driveLength (drive ++ (root ++ rest)) = drive.length
  separates : ∀ c ∈ root, s.isSeparator c = true

/-- **A whole name**: there is something to it, and nothing in it separates. -/
structure IsWhole (s : Spelling) (name : Text) : Prop where
  nonempty : name ≠ []
  whole : ∀ c ∈ name, s.isSeparator c = false

variable {s : Spelling} {drive root before p : Text} {sep : CodePoint}

/-- The name behind the last separator is the last name. -/
theorem lastName_eq (hdrop : p.drop (s.driveLength p) = before ++ name)
    (hname : ∀ c ∈ name, s.isSeparator c = false)
    (hbefore : ∀ c ∈ before.getLast?, s.isSeparator c = true) : s.lastName p = name := by
  rw [lastName, hdrop]
  exact Text.reverse_takeWhile_reverse_append (fun c hc => by rw [hname c hc, Bool.not_false])
    fun c hc => by rw [hbefore c hc, Bool.not_true]

/-- What stands before the last name. -/
theorem beforeLast_eq (hdrop : p.drop (s.driveLength p) = before ++ name)
    (hname : ∀ c ∈ name, s.isSeparator c = false)
    (hbefore : ∀ c ∈ before.getLast?, s.isSeparator c = true) :
    s.beforeLast p = p.take (s.driveLength p) ++
      if before.all s.isSeparator then before else before.stripRight s.isSeparator := by
  have hhead : ((p.drop (s.driveLength p)).reverse.dropWhile fun c => !s.isSeparator c).reverse =
      before := by
    rw [hdrop]
    exact Text.stripRight_append (fun c hc => by rw [hname c hc, Bool.not_false])
      fun c hc => by rw [hbefore c hc, Bool.not_true]
  rw [beforeLast, hhead]

/-- Whole names end with something that does not separate. -/
theorem exists_joinWith_eq_concat (sep : CodePoint) (hne : names ≠ [])
    (h : ∀ name ∈ names, s.IsWhole name) :
    ∃ front c, Text.joinWith [sep] names = front ++ [c] ∧ s.isSeparator c = false := by
  obtain ⟨init, last, rfl⟩ := (List.eq_nil_or_concat' names).resolve_left hne
  have hlast : s.IsWhole last := h last (List.mem_append_right init List.mem_cons_self)
  obtain ⟨front, c, rfl⟩ := (List.eq_nil_or_concat' last).resolve_left hlast.nonempty
  have hc : s.isSeparator c = false :=
    hlast.whole c (List.mem_append_right front List.mem_cons_self)
  by_cases hinit : init = []
  · subst hinit
    exact ⟨front, c, rfl, hc⟩
  · refine ⟨Text.joinWith [sep] init ++ [sep] ++ front, c, ?_, hc⟩
    rw [Text.joinWith_append _ hinit (List.cons_ne_nil _ _), Text.joinWith_singleton,
      List.append_assoc _ front]

/-- **The last of several names** stands behind separators, and taking it and them away leaves the
names before it. -/
theorem exists_before_last (hlead : s.IsLead drive root) (hsep : s.isSeparator sep = true)
    (h : ∀ name ∈ names, s.IsWhole name) (last : Text) :
    ∃ before, root ++ Text.joinWith [sep] (names ++ [last]) = before ++ last ∧
      (∀ c ∈ before.getLast?, s.isSeparator c = true) ∧
      (if before.all s.isSeparator then before else before.stripRight s.isSeparator) =
        root ++ Text.joinWith [sep] names := by
  by_cases hne : names = []
  · subst hne
    refine ⟨root, rfl, fun c hc => hlead.separates c (List.mem_of_getLast? hc), ?_⟩
    rw [if_pos (List.all_eq_true.2 hlead.separates), Text.joinWith_nil, List.append_nil]
  · obtain ⟨front, c, hjoin, hc⟩ := exists_joinWith_eq_concat sep hne h
    have hsingle : ∀ c ∈ [sep], s.isSeparator c = true := List.forall_mem_singleton.2 hsep
    refine ⟨root ++ Text.joinWith [sep] names ++ [sep], ?_, ?_, ?_⟩
    · rw [Text.joinWith_append _ hne (List.cons_ne_nil _ _), Text.joinWith_singleton]
      simp only [List.append_assoc]
    · rw [List.getLast?_concat]
      rintro _ ⟨⟩
      exact hsep
    · have hends : ∀ c ∈ (root ++ Text.joinWith [sep] names).getLast?, s.isSeparator c = false := by
        rw [hjoin, ← List.append_assoc, List.getLast?_concat]
        rintro _ ⟨⟩
        exact hc
      rw [if_neg, Text.stripRight_append hsingle hends]
      intro hall
      have htrue : s.isSeparator c = true := List.all_eq_true.1 hall c (by simp [hjoin])
      exact Bool.false_ne_true (hc ▸ htrue)

/-- **The names of a normal path come off its end**, all of them and nothing else. -/
theorem namesFromEnd_joinWith (hlead : s.IsLead drive root) (hsep : s.isSeparator sep = true)
    (h : ∀ name ∈ names, s.IsWhole name) :
    s.namesFromEnd (drive ++ (root ++ Text.joinWith [sep] names)) = names.reverse := by
  have hdrop (rest : Text) : (drive ++ (root ++ rest)).drop
      (s.driveLength (drive ++ (root ++ rest))) = root ++ rest := by
    rw [hlead.driveLength_eq, List.drop_left]
  -- the names come off the end, so the induction takes the last one
  induction names using List.reverseRecOn with
  | nil =>
    have hlast : s.lastName (drive ++ (root ++ Text.joinWith [sep] [])) = [] :=
      lastName_eq (hdrop _) (fun _ hc => absurd hc List.not_mem_nil) fun c hc =>
        hlead.separates c (List.mem_of_getLast? hc)
    rw [namesFromEnd, if_pos hlast, List.reverse_nil]
  | append_singleton init last ih =>
    obtain ⟨hinit, hlast⟩ := List.forall_mem_append.1 h
    obtain ⟨hnonempty, hwhole⟩ := List.forall_mem_singleton.1 hlast
    obtain ⟨before, hbefore, hends, hstrip⟩ := exists_before_last hlead hsep hinit last
    have hpath := (hdrop (Text.joinWith [sep] (init ++ [last]))).trans hbefore
    rw [namesFromEnd, lastName_eq hpath hwhole hends, if_neg hnonempty,
      beforeLast_eq hpath hwhole hends, hlead.driveLength_eq, List.take_left, hstrip, ih hinit,
      List.reverse_concat]

theorem isWhole_slashes_of_proper (h : IsProper name) : slashes.IsWhole name :=
  ⟨h.nonempty, fun _ hc => decide_eq_false fun heq => h.whole (heq ▸ hc)⟩

theorem isWhole_drives_of_proper (h : IsProper name) (hwhole : ('\\' : CodePoint) ∉ name) :
    drives.IsWhole name := by
  refine ⟨h.nonempty, fun c hc => ?_⟩
  have hback : ¬c = '\\' := fun heq => hwhole (heq ▸ hc)
  have hslash : ¬c = '/' := fun heq => h.whole (heq ▸ hc)
  rw [isSeparator, Drive.isSeparator, decide_eq_false hback, decide_eq_false hslash, Bool.or_false]

theorem isLead_slashes (n : Nat) : slashes.IsLead [] (Text.run n '/') :=
  ⟨fun _ => rfl, fun _ hc => decide_eq_true (List.eq_of_mem_replicate hc)⟩

end Spelling

/-! ## Normal paths -/

/-- Nothing is carried out where there are no two dots. -/
theorem collapse_of_proper (h : ∀ name ∈ names, IsProper name) (anchored : Bool) :
    collapse anchored names = names := by
  have hfold : ∀ (names before : List Text), (∀ name ∈ names, IsProper name) →
      names.foldl (descend anchored) before = names.reverse ++ before := by
    intro names
    induction names with
    | nil => exact fun _ _ => rfl
    | cons name names ih =>
      intro before h
      obtain ⟨hname, hnames⟩ := List.forall_mem_cons.1 h
      have hdescend : descend anchored before name = name :: before := by
        rw [descend.eq_def, if_neg hname.notDots]
      rw [List.foldl_cons, hdescend, ih _ hnames, List.reverse_cons, List.append_assoc,
        List.singleton_append]
  rw [collapse, hfold names [] h, List.append_nil, List.reverse_reverse]

theorem filter_isName_of_proper (h : ∀ name ∈ names, IsProper name) :
    names.filter isName = names := by
  refine List.filter_eq_self.2 fun name hname => ?_
  rw [isName, Bool.and_eq_true, bne_iff_ne, bne_iff_ne]
  exact ⟨(h name hname).nonempty, (h name hname).notDot⟩

/-- A path of proper names begins with the first of them. -/
theorem leadingSlashes_joinWith (hne : names ≠ []) (h : ∀ name ∈ names, IsProper name) :
    leadingSlashes (Text.joinWith "/" names) = 0 := by
  have hslash : ¬(Text.joinWith "/" names).startsWith "/" = true := by
    intro hslash
    obtain ⟨rest, hrest⟩ := List.isPrefixOf_iff_prefix.1 hslash
    have hparts : parts ([] ++ ("/" : Text) ++ rest) = names := by
      rw [List.nil_append, hrest, parts_joinWith hne h]
    rw [parts_slash] at hparts
    have hempty : ([] : Text) ∈ names := hparts ▸ List.mem_cons_self
    exact (h [] hempty).nonempty rfl
  have hdouble : ¬(Text.joinWith "/" names).startsWith "//" = true := by
    intro hdouble
    have hfirst : ("/" : Text) <+: "//" := by decide
    exact hslash (List.isPrefixOf_iff_prefix.2
      (hfirst.trans (List.isPrefixOf_iff_prefix.1 hdouble)))
  rw [leadingSlashes, Bool.eq_false_iff.2 hdouble, if_neg hslash]
  rfl

/-- **A path of proper names is normal.** -/
theorem normalize_joinWith (hne : names ≠ []) (h : ∀ name ∈ names, IsProper name) :
    normalize (Text.joinWith "/" names) = Text.joinWith "/" names := by
  have hform : Form.ofText (Text.joinWith "/" names) = ⟨0, names⟩ := by
    rw [Form.ofText, leadingSlashes_joinWith hne h, parts_joinWith hne h, filter_isName_of_proper h]
  rw [normalize, hform, Form.collapsed, collapse_of_proper h, Form.render,
    if_neg fun hempty => hne hempty.2]
  exact List.nil_append _

namespace Drive

/-- A letter and a colon are a drive. -/
theorem driveLength_letter (letter : CodePoint) (rest : Text) :
    driveLength ([letter, ':'] ++ rest) = 2 := by
  have hshare : ¬Text.startsWith (Text.replace '/' '\\' ([letter, ':'] ++ rest))
      "\\\\" = true := by
    intro h
    obtain ⟨-, h⟩ := List.cons_prefix_cons.1 (List.isPrefixOf_iff_prefix.1 h)
    obtain ⟨h, -⟩ := List.cons_prefix_cons.1 h
    exact absurd h (by decide)
  rw [driveLength, if_neg hshare]
  rfl

/-- The names behind a drive and a backslash. -/
theorem parts_backslash (hne : names ≠ []) (h : ∀ name ∈ names, IsProper name)
    (hwhole : ∀ name ∈ names, ('\\' : CodePoint) ∉ name) :
    (Text.cutWhere (· = '\\') ("\\" ++ Text.joinWith "\\" names)).filter isName = names := by
  have hcut : Text.cutWhere (· = '\\') ("\\" ++ Text.joinWith "\\" names) = [] :: names := by
    have hjoined := Text.cutWhere_joinWith_of_not_mem hne hwhole
    exact congrArg ([] :: ·) hjoined
  rw [hcut]
  exact filter_isName_of_proper h

/-- **A drive, a backslash and proper names** are a normal path. -/
theorem normalize_of_replace_eq {p : Text} {letter : CodePoint}
    (hp : p.replace '/' '\\' = [letter, ':'] ++ ("\\" ++ Text.joinWith "\\" names))
    (hne : names ≠ []) (h : ∀ name ∈ names, IsProper name)
    (hwhole : ∀ name ∈ names, ('\\' : CodePoint) ∉ name) :
    normalize p = [letter, ':'] ++ ("\\" ++ Text.joinWith "\\" names) := by
  have hdrive : splitDrive (p.replace '/' '\\') =
      ([letter, ':'], "\\" ++ Text.joinWith "\\" names) := by
    rw [hp, splitDrive, driveLength_letter]
    rfl
  have hanchored : Text.startsWith ("\\" ++ Text.joinWith "\\" names) "\\" = true :=
    List.isPrefixOf_iff_prefix.2 (List.prefix_append _ _)
  rw [normalize, hdrive]
  simp only [hanchored, parts_backslash hne h hwhole, collapse_of_proper h, if_true]
  rw [if_neg fun hempty => hne hempty.2, List.append_assoc]

end Drive

theorem Spelling.isLead_drive (letter : CodePoint) :
    Spelling.drives.IsLead [letter, ':'] "\\" :=
  ⟨fun _ => Drive.driveLength_letter letter _, List.forall_mem_singleton.2 rfl⟩

end Path

end BuildLint
