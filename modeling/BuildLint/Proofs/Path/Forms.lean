import BuildLint.Proofs.Path.Levels

/-!
# Proofs/Path/Forms — a form is read off the path that spells it

A **clean** form is one that some path has: at most two slashes lead it, and its names lead
somewhere.  Its path spells nothing else (`ofText_render`), so tidy and normal paths can be worked
with by their forms, name by name.

* `Form.IsClean` — the forms of paths; `isClean_ofText`, `IsClean.collapsed`.
* `ofText_spell`, `ofText_render` — the form of a spelled path.
* `below_render`, `tidyParent_render` — the path of one more name, and of one less.
* `parent_render` — what stands before the last slash of a path, if it has one.
-/

namespace BuildLint

namespace Path

variable {p q name : Text} {names : List Text} {n : Nat} {f : Form}

/-- **A name that a form can have**: it leads somewhere, and holds no slash. -/
structure IsStep (name : Text) : Prop where
  isName : isName name = true
  whole : ('/' : CodePoint) ∉ name

theorem IsStep.isWhole (h : IsStep name) : Spelling.slashes.IsWhole name := by
  have hname := h.isName
  rw [Path.isName, Bool.and_eq_true, bne_iff_ne] at hname
  exact isWhole_iff.2 ⟨hname.1, h.whole⟩

theorem isAbsolute_iff : isAbsolute p = true ↔ leadingSlashes p ≠ 0 := by
  have hdouble : p.startsWith "//" = true → p.startsWith "/" = true := fun h =>
    List.isPrefixOf_iff_prefix.2
      ((List.prefix_append _ _).trans (List.isPrefixOf_iff_prefix.1 h))
  rw [isAbsolute, leadingSlashes]
  split_ifs with htwo hone
  · rw [Bool.and_eq_true] at htwo
    exact iff_of_true (hdouble htwo.1) (by decide)
  · exact iff_of_true hone (by decide)
  · exact iff_of_false hone (by decide)

namespace Form

/-- **A clean form** is one that a path can have. -/
structure IsClean (f : Form) : Prop where
  slashes_le : f.slashes ≤ 2
  isStep : ∀ name ∈ f.names, IsStep name

theorem IsClean.areWhole (h : f.IsClean) : AreWhole f.names := fun name hname =>
  (h.isStep name hname).isWhole

theorem isClean_ofText (p : Text) : (ofText p).IsClean where
  slashes_le := by
    change leadingSlashes p ≤ 2
    rw [leadingSlashes]
    split_ifs <;> decide
  isStep := fun name hname => by
    obtain ⟨hpart, hisName⟩ := List.mem_filter.1 hname
    exact ⟨hisName, Text.not_mem_of_mem_cutWhere hpart⟩

theorem IsClean.collapsed (h : f.IsClean) : f.collapsed.IsClean :=
  ⟨h.slashes_le, forall_mem_collapse h.isStep _⟩

theorem IsClean.append (h : f.IsClean) {others : List Text}
    (hothers : ∀ name ∈ others, IsStep name) : IsClean ⟨f.slashes, f.names ++ others⟩ :=
  ⟨h.slashes_le, List.forall_mem_append.2 ⟨h.isStep, hothers⟩⟩

theorem IsClean.of_append {others : List Text} (h : IsClean ⟨n, names ++ others⟩) :
    IsClean ⟨n, names⟩ :=
  ⟨h.slashes_le, fun name hname => h.isStep name (List.mem_append_left others hname)⟩

/-! ## Reading the form of a spelled path -/

/-- What stands behind the slashes in front does not count to them. -/
theorem leadingSlashes_run_append {t : Text} (hn : n ≤ 2)
    (ht : t.head? ≠ some (CodePoint.ofChar '/')) : leadingSlashes (Text.run n '/' ++ t) = n := by
  have hstart : ∀ rest : Text, t.startsWith (CodePoint.ofChar '/' :: rest) = false := by
    intro rest
    cases t with
    | nil => rfl
    | cons c t =>
      have hc : CodePoint.ofChar '/' ≠ c := fun h => ht (congrArg some h.symm)
      rw [Text.startsWith, List.isPrefixOf_cons_cons, beq_eq_false_iff_ne.2 hc, Bool.false_and]
  have hcons : ∀ rest other : Text, Text.startsWith (CodePoint.ofChar '/' :: rest)
      (CodePoint.ofChar '/' :: other) = rest.startsWith other := fun rest other => by
    rw [Text.startsWith, List.isPrefixOf_cons_cons_self, Text.startsWith]
  have hone : Text.ofString "/" = [CodePoint.ofChar '/'] := rfl
  have htwo : Text.ofString "//" = CodePoint.ofChar '/' :: [CodePoint.ofChar '/'] := rfl
  have hthree : Text.ofString "///" =
      CodePoint.ofChar '/' :: CodePoint.ofChar '/' :: [CodePoint.ofChar '/'] := rfl
  have hnil : ∀ rest : Text, rest.startsWith [] = true := fun _ => rfl
  obtain rfl | rfl | rfl : n = 0 ∨ n = 1 ∨ n = 2 := by omega
  all_goals
    simp only [leadingSlashes, Text.run, List.replicate_succ, List.replicate_zero,
      List.nil_append, List.cons_append, hone, htwo, hthree, hcons, hstart, hnil]
    rfl

theorem head?_joinWith_ne_slash (h : AreWhole names) :
    (Text.joinWith "/" names).head? ≠ some (CodePoint.ofChar '/') := by
  cases names with
  | nil => exact fun h => nomatch h
  | cons name rest =>
    obtain ⟨hnonempty, hslash⟩ := isWhole_iff.1 (h name List.mem_cons_self)
    obtain ⟨c, tail, rfl⟩ := List.exists_cons_of_ne_nil hnonempty
    have hhead : (Text.joinWith "/" ((c :: tail) :: rest)).head? = some c := by
      cases rest <;> rfl
    rw [hhead]
    exact fun hc => hslash (Option.some.inj hc ▸ List.mem_cons_self)

/-- The parts of a spelled path: an empty one for each slash in front, and its names. -/
theorem parts_spell (h : AreWhole names) (hne : names ≠ []) :
    parts (spell ⟨n, names⟩) = List.replicate n [] ++ names := by
  induction n with
  | zero =>
    have hspell : spell ⟨0, names⟩ = Text.joinWith "/" names := List.nil_append _
    rw [hspell]
    exact Text.cutWhere_joinWith_of_not_mem hne fun name hname => (isWhole_iff.1 (h name hname)).2
  | succ n ih =>
    have hspell : spell ⟨n + 1, names⟩ = "" ++ "/" ++ spell ⟨n, names⟩ := rfl
    rw [hspell, parts_slash, ih]
    rfl

/-- **The form of a spelled path**: its slashes, and those of its names that lead somewhere. -/
theorem ofText_spell (hn : n ≤ 2) (h : AreWhole names) :
    ofText (spell ⟨n, names⟩) = ⟨n, names.filter Path.isName⟩ := by
  have hslashes : leadingSlashes (spell ⟨n, names⟩) = n :=
    leadingSlashes_run_append hn (head?_joinWith_ne_slash h)
  have hnames : (parts (spell ⟨n, names⟩)).filter Path.isName = names.filter Path.isName := by
    rw [← parts_spell_filter h (n := n), List.filter_filter, parts_spell_filter h]
    refine List.filter_congr fun name _ => ?_
    cases hname : name != [] <;> simp [Path.isName, hname]
  rw [ofText, hslashes, hnames]

/-- The names that the path of a form spells: a dot stands for nothing. -/
def spelled (f : Form) : List Text := if f.slashes = 0 ∧ f.names = [] then ["."] else f.names

theorem render_eq_spell (f : Form) : f.render = spell ⟨f.slashes, f.spelled⟩ := by
  rw [render, spelled]
  split_ifs with hempty
  · rw [hempty.1]
    rfl
  · rfl

theorem IsClean.areWhole_spelled (h : f.IsClean) : AreWhole f.spelled := by
  rw [spelled]
  split_ifs
  · exact List.forall_mem_singleton.2 (isWhole_iff.2 (by decide))
  · exact h.areWhole

theorem IsClean.filter_spelled (h : f.IsClean) : f.spelled.filter Path.isName = f.names := by
  rw [spelled]
  split_ifs with hempty
  · rw [hempty.2]
    rfl
  · exact List.filter_eq_self.2 fun name hname => (h.isStep name hname).isName

/-- **A form is read off its path.** -/
theorem ofText_render (h : f.IsClean) : ofText f.render = f := by
  rw [render_eq_spell, ofText_spell h.slashes_le h.areWhole_spelled, h.filter_spelled]

end Form

/-! ## One more name, and one less -/

/-- **The path of one more name.** -/
theorem below_render (h : f.IsClean) (hname : IsStep name) :
    below f.render name = Form.render ⟨f.slashes, f.names ++ [name]⟩ := by
  have hrelative : isAbsolute name = false := by
    refine Bool.eq_false_iff.2 fun habsolute => hname.whole ?_
    obtain ⟨rest, rfl⟩ := List.isPrefixOf_iff_prefix.1 habsolute
    exact List.mem_append_left rest List.mem_cons_self
  rw [below, Form.render_eq_spell, join_spell h.areWhole_spelled hrelative, tidy,
    Form.ofText_spell h.slashes_le
      (List.forall_mem_append.2 ⟨h.areWhole_spelled, List.forall_mem_singleton.2 hname.isWhole⟩),
    List.filter_append, h.filter_spelled, List.filter_cons_of_pos hname.isName]
  rfl

/-- The path without its last name is the path of a form without its last name. -/
theorem tidyParent_render (h : f.IsClean) :
    tidyParent f.render = Form.render ⟨f.slashes, f.names.dropLast⟩ := by
  rw [tidyParent, Form.ofText_render h]

/-- **Up to its last slash** a path is the path without its last name, unless it has no slash. -/
theorem parent_render (h : f.IsClean) :
    ('/' : CodePoint) ∉ f.render ∧ parent f.render = [] ∨
      ('/' : CodePoint) ∈ f.render ∧ parent f.render = tidyParent f.render := by
  rw [tidyParent_render h]
  rcases List.eq_nil_or_concat f.names with hnil | ⟨init, last, hlast⟩
  · -- nothing but slashes, or a dot
    obtain ⟨slashes, names⟩ := f
    obtain rfl : names = [] := hnil
    have hle : slashes ≤ 2 := h.slashes_le
    obtain rfl | rfl | rfl : slashes = 0 ∨ slashes = 1 ∨ slashes = 2 := by omega
    all_goals decide
  · rw [List.concat_eq_append] at hlast
    have hwhole := hlast ▸ h.areWhole
    obtain ⟨hinit, hname⟩ := List.forall_mem_append.1 hwhole
    have hrender : f.render = Form.spell ⟨f.slashes, init ++ [last]⟩ := by
      rw [Form.render, if_neg (by simp [hlast]), hlast]
      rfl
    rw [hrender, hlast, List.dropLast_concat,
      parent_spell hinit (List.forall_mem_singleton.1 hname)]
    by_cases hbare : f.slashes = 0 ∧ init = []
    · obtain ⟨hslashes, rfl⟩ := hbare
      rw [hslashes]
      exact .inl ⟨(isWhole_iff.1 (List.forall_mem_singleton.1 hname)).2, rfl⟩
    · refine .inr ⟨?_, by rw [Form.render, if_neg hbare]; rfl⟩
      rw [Form.spell, List.mem_append]
      by_cases hslashes : f.slashes = 0
      · have hinit' : init ≠ [] := fun hnil => hbare ⟨hslashes, hnil⟩
        rw [Text.joinWith_append _ hinit' (List.cons_ne_nil _ _)]
        exact .inr (List.mem_append_left _ (List.mem_append_right _ List.mem_cons_self))
      · exact .inl (List.mem_replicate.2 ⟨hslashes, rfl⟩)

end Path

end BuildLint
