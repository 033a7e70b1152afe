import BuildLint.Proofs.Path.FromEnd

/-!
# Proofs/Path/Levels — levels above a path

The normal form of a path spells slashes and whole names (`normalize_eq_spell`).  Each level that is
gone up takes its last name away (`levelsUp_of_append`), and going down again puts names in its
place (`join_spell`).  So what stands some levels above a path, or beside a directory above it, can
be read off the names that its normal form ends with.

* `normalNames` — the names in the normal form of a path.
* `namesFromEnd_normalize` — they are the names that come off its end.
* `levelsUp_of_append`, `lastName_levelsUp` — the path some levels up, and its last name.
* `exists_levelsUp_below` — up some levels, and down another way.
-/

namespace BuildLint

namespace Path

variable {p q name : Text} {names before after : List Text} {n : Nat}

/-- **The names in the normal form of a path**: what stands between its slashes. -/
def normalNames (p : Text) : List Text := (parts (normalize p)).filter (· != [])

/-- The path that a form spells, nothing for the empty form. -/
def Form.spell (f : Form) : Text := Text.run f.slashes '/' ++ Text.joinWith "/" f.names

/-- Names that can stand between slashes. -/
abbrev AreWhole (names : List Text) : Prop := ∀ name ∈ names, Spelling.slashes.IsWhole name

theorem isWhole_iff : Spelling.slashes.IsWhole name ↔ name ≠ [] ∧ ('/' : CodePoint) ∉ name := by
  constructor
  · rintro ⟨hnonempty, hwhole⟩
    exact ⟨hnonempty, fun hmem => of_decide_eq_false (hwhole _ hmem) rfl⟩
  · rintro ⟨hnonempty, hslash⟩
    exact ⟨hnonempty, fun c hc => decide_eq_false fun heq => hslash (heq ▸ hc)⟩

/-! ## The normal form -/

/-- Carrying out two dots leaves names as they are, or takes them away. -/
theorem forall_mem_descend {P : Text → Prop} (hbefore : ∀ name ∈ before, P name) (hname : P name)
    (anchored : Bool) : ∀ other ∈ descend anchored before name, P other := by
  have hcons : ∀ other ∈ name :: before, P other := List.forall_mem_cons.2 ⟨hname, hbefore⟩
  rw [descend.eq_def]
  split
  · split
    · split
      · exact fun _ h => absurd h List.not_mem_nil
      · exact List.forall_mem_singleton.2 hname
    · split
      · exact hcons
      · exact (List.forall_mem_cons.1 hbefore).2
  · exact hcons

theorem forall_mem_collapse {P : Text → Prop} (h : ∀ name ∈ names, P name) (anchored : Bool) :
    ∀ name ∈ collapse anchored names, P name := by
  have hfold : ∀ (names before : List Text), (∀ name ∈ names, P name) →
      (∀ name ∈ before, P name) → ∀ name ∈ names.foldl (descend anchored) before, P name := by
    intro names
    induction names with
    | nil => exact fun _ _ h => h
    | cons name names ih =>
      intro before hnames hbefore
      obtain ⟨hname, hnames⟩ := List.forall_mem_cons.1 hnames
      exact ih _ hnames (forall_mem_descend hbefore hname anchored)
  intro name hname
  exact hfold names [] h (fun _ h => absurd h List.not_mem_nil) name (List.mem_reverse.1 hname)

theorem areWhole_filter_isName (p : Text) : AreWhole ((parts p).filter isName) := by
  intro name hname
  obtain ⟨hpart, hisName⟩ := List.mem_filter.1 hname
  rw [isName, Bool.and_eq_true, bne_iff_ne] at hisName
  exact isWhole_iff.2 ⟨hisName.1, Text.not_mem_of_mem_cutWhere hpart⟩

/-- The parts of a spelled path are its names, behind an empty part for each slash in front. -/
theorem parts_spell_filter (h : AreWhole names) :
    (parts (Form.spell ⟨n, names⟩)).filter (· != []) = names := by
  induction n with
  | zero =>
    have hspell : Form.spell ⟨0, names⟩ = Text.joinWith "/" names := List.nil_append _
    rw [hspell]
    by_cases hne : names = []
    · subst hne
      rfl
    · have hparts : parts (Text.joinWith "/" names) = names :=
        Text.cutWhere_joinWith_of_not_mem hne fun name hname => (isWhole_iff.1 (h name hname)).2
      rw [hparts]
      exact List.filter_eq_self.2 fun name hname => bne_iff_ne.2 (isWhole_iff.1 (h name hname)).1
  | succ n ih =>
    have hspell : Form.spell ⟨n + 1, names⟩ = "" ++ "/" ++ Form.spell ⟨n, names⟩ := rfl
    rw [hspell, parts_slash]
    exact ih

/-- **The normal form of a path** spells its slashes and its names, and the names are whole. -/
theorem normalize_eq_spell (p : Text) :
    normalize p = Form.spell ⟨leadingSlashes p, normalNames p⟩ ∧ AreWhole (normalNames p) := by
  have hexists : ∃ names, AreWhole names ∧
      normalize p = Form.spell ⟨leadingSlashes p, names⟩ := by
    by_cases hempty : (Form.ofText p).collapsed.slashes = 0 ∧ (Form.ofText p).collapsed.names = []
    · refine ⟨["."], List.forall_mem_singleton.2 (isWhole_iff.2 (by decide)), ?_⟩
      have hslashes : leadingSlashes p = 0 := hempty.1
      rw [normalize, Form.render, if_pos hempty, hslashes]
      rfl
    · refine ⟨(Form.ofText p).collapsed.names, ?_, ?_⟩
      · exact forall_mem_collapse (areWhole_filter_isName p) _
      · rw [normalize, Form.render, if_neg hempty]
        rfl
  obtain ⟨names, hwhole, hspell⟩ := hexists
  have hnames : normalNames p = names := by rw [normalNames, hspell, parts_spell_filter hwhole]
  rw [hnames]
  exact ⟨hspell, hwhole⟩

/-- **The names that come off the end** of a normal path are those between its slashes. -/
theorem namesFromEnd_normalize (p : Text) :
    Spelling.slashes.namesFromEnd (normalize p) = (normalNames p).reverse := by
  obtain ⟨hspell, hwhole⟩ := normalize_eq_spell p
  have hslash : Spelling.slashes.isSeparator '/' = true := rfl
  rw [hspell]
  exact Spelling.namesFromEnd_joinWith (Spelling.isLead_slashes _) hslash hwhole

/-! ## Going up -/

theorem parent_eq_beforeLast (p : Text) : parent p = Spelling.slashes.beforeLast p := by
  have hhead : p.throughLast '/' =
      (p.reverse.dropWhile fun c => !Spelling.slashes.isSeparator c).reverse := by
    simp only [Text.throughLast, Spelling.isSeparator, decide_not]
  rw [parent, dropSlashes, hhead]
  rfl

theorem lastName_eq_lastName (p : Text) : lastName p = Spelling.slashes.lastName p := by
  simp only [lastName, Text.afterLast, Spelling.lastName, Spelling.driveLength, List.drop_zero,
    Spelling.isSeparator, decide_not]

/-- What stands before the last name of a spelled path. -/
theorem exists_before_name (h : AreWhole names) (name : Text) :
    ∃ before, (Form.spell ⟨n, names ++ [name]⟩).drop (Spelling.slashes.driveLength
        (Form.spell ⟨n, names ++ [name]⟩)) = before ++ name ∧
      (∀ c ∈ before.getLast?, Spelling.slashes.isSeparator c = true) ∧
      (if before.all Spelling.slashes.isSeparator then before
        else Text.stripRight Spelling.slashes.isSeparator before) = Form.spell ⟨n, names⟩ :=
  Spelling.exists_before_last (Spelling.isLead_slashes n) (decide_eq_true rfl) h name

theorem parent_spell (h : AreWhole names) (hname : Spelling.slashes.IsWhole name) :
    parent (Form.spell ⟨n, names ++ [name]⟩) = Form.spell ⟨n, names⟩ := by
  obtain ⟨before, hbefore, hends, hstrip⟩ := exists_before_name h name
  rw [parent_eq_beforeLast, Spelling.beforeLast_eq hbefore hname.whole hends, hstrip]
  rfl

theorem lastName_spell (h : AreWhole names) (hname : Spelling.slashes.IsWhole name) :
    lastName (Form.spell ⟨n, names ++ [name]⟩) = name := by
  obtain ⟨before, hbefore, hends, -⟩ := exists_before_name h name
  rw [lastName_eq_lastName, Spelling.lastName_eq hbefore hname.whole hends]

/-- **Some levels up**, the last names are gone. -/
theorem levelsUp_of_append (h : normalNames p = before ++ after) :
    levelsUp after.length p = Form.spell ⟨leadingSlashes p, before⟩ := by
  obtain ⟨hspell, hwhole⟩ := normalize_eq_spell p
  induction after generalizing before with
  | nil =>
    rw [List.append_nil] at h
    rw [← h]
    exact hspell
  | cons name after ih =>
    have hsplit : normalNames p = (before ++ [name]) ++ after := by
      rw [h, List.append_assoc, List.singleton_append]
    have hup : levelsUp (after.length + 1) p = parent (levelsUp after.length p) := rfl
    have hleft : AreWhole (before ++ [name]) := (List.forall_mem_append.1 (hsplit ▸ hwhole)).1
    obtain ⟨hbefore, hname⟩ := List.forall_mem_append.1 hleft
    rw [List.length_cons, hup, ih hsplit,
      parent_spell hbefore (List.forall_mem_singleton.1 hname)]

/-- **The last name some levels up** is the one before those that are gone. -/
theorem lastName_levelsUp (h : normalNames p = before ++ name :: after) :
    lastName (levelsUp after.length p) = name := by
  have hwhole := (normalize_eq_spell p).2
  have hsplit : normalNames p = (before ++ [name]) ++ after := by
    rw [h, List.append_assoc, List.singleton_append]
  have hleft : AreWhole (before ++ [name]) := (List.forall_mem_append.1 (hsplit ▸ hwhole)).1
  obtain ⟨hbefore, hname⟩ := List.forall_mem_append.1 hleft
  rw [levelsUp_of_append hsplit, lastName_spell hbefore (List.forall_mem_singleton.1 hname)]

/-! ## Going down again -/

/-- Names may be joined before they are spelled. -/
theorem spell_append (names : List Text) {others : List Text} (hne : others ≠ []) :
    Form.spell ⟨n, names ++ others⟩ = Form.spell ⟨n, names ++ [Text.joinWith "/" others]⟩ := by
  by_cases hnames : names = []
  · subst hnames
    rfl
  · simp only [Form.spell, Text.joinWith_append _ hnames hne,
      Text.joinWith_append _ hnames (List.cons_ne_nil _ _), Text.joinWith_singleton]

theorem endsWith_slash_iff : p.endsWith "/" = true ↔ p.getLast? = some (CodePoint.ofChar '/') := by
  rw [List.getLast?_eq_head?_reverse, Text.endsWith]
  cases p.reverse with
  | nil => exact iff_of_false Bool.false_ne_true (by rintro ⟨⟩)
  | cons c rest =>
    have hstart : List.isPrefixOf (Text.ofString "/").reverse (c :: rest) =
        (CodePoint.ofChar '/' == c && true) := rfl
    rw [hstart, Bool.and_true, beq_iff_eq, List.head?_cons, Option.some.injEq, eq_comm]

/-- A spelled path with names does not end with a slash. -/
theorem exists_spell_eq_concat (hne : names ≠ []) (h : AreWhole names) :
    ∃ front c, Form.spell ⟨n, names⟩ = front ++ [c] ∧ Spelling.slashes.isSeparator c = false := by
  obtain ⟨front, c, hjoin, hc⟩ := Spelling.exists_joinWith_eq_concat '/' hne h
  refine ⟨Text.run n '/' ++ front, c, ?_, hc⟩
  rw [Form.spell, List.append_assoc]
  exact congrArg _ hjoin

/-- **Below a spelled path** stands the path with one more name. -/
theorem join_spell (h : AreWhole names) (hq : isAbsolute q = false) :
    join (Form.spell ⟨n, names⟩) q = Form.spell ⟨n, names ++ [q]⟩ := by
  rw [join, hq, if_neg Bool.false_ne_true]
  by_cases hnames : names = []
  · subst hnames
    have hroot : Form.spell ⟨n, []⟩ = Text.run n '/' := List.append_nil _
    rw [hroot, if_pos]
    · rfl
    · cases n with
      | zero => rfl
      | succ n =>
        have hlast : (Text.run (n + 1) '/').getLast? = some (CodePoint.ofChar '/') := by
          rw [Text.run, List.getLast?_replicate, if_neg (Nat.succ_ne_zero n)]
        rw [endsWith_slash_iff.2 hlast, Bool.or_true]
  · obtain ⟨front, c, hspell, hc⟩ := exists_spell_eq_concat hnames h
    have hends : ¬((decide (Form.spell ⟨n, names⟩ = []) ||
        Text.endsWith (Form.spell ⟨n, names⟩) "/") = true) := by
      rw [Bool.or_eq_true, decide_eq_true_eq, endsWith_slash_iff, hspell, List.getLast?_concat,
        Option.some.injEq]
      rintro (hnil | rfl)
      · exact List.append_ne_nil_of_right_ne_nil _ (List.cons_ne_nil _ _) hnil
      · cases hc
    rw [if_neg hends, Form.spell, Form.spell, Text.joinWith_append _ hnames (List.cons_ne_nil _ _),
      Text.joinWith_singleton]
    simp only [List.append_assoc]

/-- What stands before the last name of a spelled path does not depend on this name. -/
theorem exists_spell_concat (n : Nat) (names : List Text) :
    ∃ front, ∀ name, Form.spell ⟨n, names ++ [name]⟩ = front ++ name := by
  by_cases hnames : names = []
  · subst hnames
    exact ⟨Text.run n '/', fun _ => rfl⟩
  · refine ⟨Text.run n '/' ++ (Text.joinWith "/" names ++ "/"), fun name => ?_⟩
    rw [Form.spell, Text.joinWith_append _ hnames (List.cons_ne_nil _ _), Text.joinWith_singleton]
    simp only [List.append_assoc]

/-- **A path that ends with some names** goes on before them as any other below the same directory
does. -/
theorem spell_below {base : Text} (hne : names ≠ []) (h : AreWhole names)
    (hp : normalize p = base ++ "/" ++ Text.joinWith "/" names) :
    ∃ before, normalNames p = before ++ names ∧ ∀ others, others ≠ [] →
      Form.spell ⟨leadingSlashes p, before ++ others⟩ = base ++ "/" ++ Text.joinWith "/" others := by
  have hparts : parts (Text.joinWith "/" names) = names :=
    Text.cutWhere_joinWith_of_not_mem hne fun name hname => (isWhole_iff.1 (h name hname)).2
  have hnames : normalNames p = (parts base).filter (· != []) ++ names := by
    rw [normalNames, hp, parts_slash, List.filter_append, hparts]
    congr 1
    exact List.filter_eq_self.2 fun name hname => bne_iff_ne.2 (isWhole_iff.1 (h name hname)).1
  refine ⟨_, hnames, fun others hothers => ?_⟩
  have hspell := (normalize_eq_spell p).1
  rw [hnames, hp, spell_append _ hne] at hspell
  obtain ⟨front, hfront⟩ := exists_spell_concat (leadingSlashes p) ((parts base).filter (· != []))
  rw [hfront] at hspell
  rw [spell_append _ hothers, hfront, List.append_cancel_right hspell]

/-- **Up some levels and down again**: the last names of a path give way to others. -/
theorem exists_levelsUp_below {base : Text} (hafter : after ≠ []) (h : AreWhole (before ++ after))
    (hp : normalize p = base ++ "/" ++ Text.joinWith "/" (before ++ after)) :
    ∃ above, AreWhole above ∧ levelsUp after.length p = Form.spell ⟨leadingSlashes p, above⟩ ∧
      ∀ down, down ≠ [] → Form.spell ⟨leadingSlashes p, above ++ down⟩ =
        base ++ "/" ++ Text.joinWith "/" (before ++ down) := by
  obtain ⟨front, hnames, hspell⟩ :=
    spell_below (List.append_ne_nil_of_right_ne_nil before hafter) h hp
  have hwhole := (normalize_eq_spell p).2
  rw [← List.append_assoc] at hnames
  rw [hnames] at hwhole
  refine ⟨front ++ before, (List.forall_mem_append.1 hwhole).1, levelsUp_of_append hnames, ?_⟩
  intro down hdown
  rw [List.append_assoc]
  exact hspell _ (List.append_ne_nil_of_right_ne_nil before hdown)

end Path

end BuildLint
