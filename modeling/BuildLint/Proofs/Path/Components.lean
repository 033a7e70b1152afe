import BuildLint.Path.Lexical
import BuildLint.Proofs.Text.Cutting
import Mathlib.Data.List.Infix
import Mathlib.Logic.Relation

/-!
# Proofs/Path/Components — an absolute path is its components

Scanned part by part, an absolute path leads through the directories it names: an empty part and a
single dot lead nowhere, two dots lead back.  What it ends up below are its **components**, and they
are all that its normal form spells (`normalize_eq`).  So a path lies at or below another if the
components of the one begin with those of the other, and how either is spelled makes no difference.

* `components` — the scan.
* `IsRooted` — the paths it is about: absolute, and not led by exactly two slashes.
* `isAtOrBelow_iff` — being at or below a path, by components.
* `isCovered_iff_isPrefix` — the same of several paths, and what follows from it.
-/

namespace BuildLint

namespace Path

/-! ## Components -/

/-- One more part of a path, behind the components so far. -/
def enter (before : List Text) (part : Text) : List Text :=
  if part = "" ∨ part = "." then before
  else if part = ".." then before.dropLast
  else before ++ [part]

/-- **The components of an absolute path**, from the root on. -/
def components (p : Text) : List Text := (parts p).foldl enter []

/-- **A path leads from the root**: it is absolute, and exactly two slashes do not lead it. -/
structure IsRooted (p : Text) : Prop where
  absolute : p.startsWith "/" = true
  notDouble : p.startsWith "//" = true → p.startsWith "///" = true

/-- A path that leads from the root. -/
abbrev Rooted := { p : Text // IsRooted p }

/-- **A name of a component**: it leads somewhere, and holds no slash. -/
structure IsProper (name : Text) : Prop where
  nonempty : name ≠ ""
  notDot : name ≠ "."
  notDots : name ≠ ".."
  whole : ('/' : CodePoint) ∉ name

/-- **Two ways to spell a path**, one of them with a needless slash, dot or pair of dots. -/
inductive Respelled : Text → Text → Prop
  | slashes (a b : Text) : Respelled (a ++ "//" ++ b) (a ++ "/" ++ b)
  | dot (a b : Text) : Respelled (a ++ "/./" ++ b) (a ++ "/" ++ b)
  | dots (a b : Text) {name : Text} (h : IsProper name) :
      Respelled (a ++ "/" ++ name ++ "/../" ++ b) (a ++ "/" ++ b)
  | root (b : Text) : Respelled ("/../" ++ b) ("/" ++ b)
  | trailing (a : Text) : Respelled (a ++ "/") a

variable {p q a b name part : Text} {before names : List Text}

theorem enter_of_proper (h : IsProper name) (before : List Text) :
    enter before name = before ++ [name] := by
  rw [enter, if_neg (not_or.2 ⟨h.nonempty, h.notDot⟩), if_neg h.notDots]

theorem enter_dots (before : List Text) : enter before ".." = before.dropLast := by
  rw [enter, if_neg (by decide), if_pos rfl]

theorem foldl_enter_of_proper (h : ∀ name ∈ names, IsProper name) (before : List Text) :
    names.foldl enter before = before ++ names := by
  induction names generalizing before with
  | nil => exact (List.append_nil before).symm
  | cons name names ih =>
    obtain ⟨hname, hnames⟩ := List.forall_mem_cons.1 h
    rw [List.foldl_cons, enter_of_proper hname, ih hnames, List.append_assoc,
      List.singleton_append]

theorem parts_slash (a b : Text) : parts (a ++ "/" ++ b) = parts a ++ parts b := by
  rw [List.append_assoc]
  exact Text.cutWhere_append_separator (decide_eq_true rfl) a b

/-- **A slash joins two paths**: the second is scanned behind the components of the first. -/
theorem components_slash (a b : Text) :
    components (a ++ "/" ++ b) = (parts b).foldl enter (components a) := by
  rw [components, parts_slash, List.foldl_append, components]

theorem parts_of_proper (h : IsProper name) : parts name = [name] :=
  Text.cutWhere_of_forall fun _ hc => decide_eq_false fun heq => h.whole (heq ▸ hc)

theorem components_slash_name (h : IsProper name) (a : Text) :
    components (a ++ "/" ++ name) = components a ++ [name] := by
  rw [components_slash, parts_of_proper h, List.foldl_cons, List.foldl_nil, enter_of_proper h]

/-- **A detour** that leads back to where it begins may be left out. -/
theorem components_detour {detour : Text}
    (h : (parts detour).foldl enter (components a) = components a) (b : Text) :
    components (a ++ "/" ++ detour ++ "/" ++ b) = components (a ++ "/" ++ b) := by
  rw [components_slash, components_slash, h, components_slash]

theorem foldl_enter_name_dots (h : IsProper name) (before : List Text) :
    (parts (name ++ "/" ++ "..")).foldl enter before = before := by
  have hdots : parts ".." = [(".." : Text)] := rfl
  rw [parts_slash, parts_of_proper h, hdots, List.foldl_append, List.foldl_cons, List.foldl_nil,
    List.foldl_cons, List.foldl_nil, enter_of_proper h, enter_dots, List.dropLast_concat]

/-- **How a path is spelled** makes no difference to its components. -/
theorem Respelled.components_eq (h : Respelled p q) : components p = components q := by
  cases h with
  | slashes a b =>
    have hpath : a ++ "//" ++ b = a ++ "/" ++ "" ++ "/" ++ b := by
      simp only [List.append_assoc]
      rfl
    rw [hpath, components_detour rfl]
  | dot a b =>
    have hpath : a ++ "/./" ++ b = a ++ "/" ++ "." ++ "/" ++ b := by
      simp only [List.append_assoc]
      rfl
    rw [hpath, components_detour rfl]
  | @dots a b name hname =>
    have hpath : a ++ "/" ++ name ++ "/../" ++ b =
        a ++ "/" ++ (name ++ "/" ++ "..") ++ "/" ++ b := by
      simp only [List.append_assoc]
      rfl
    rw [hpath, components_detour (foldl_enter_name_dots hname _)]
  | root b =>
    have hpath : "/../" ++ b = "" ++ "/" ++ ".." ++ "/" ++ b := rfl
    have hpath' : "/" ++ b = "" ++ "/" ++ b := rfl
    rw [hpath, hpath', components_detour rfl]
  | trailing a =>
    have hpath : (q ++ "/" : Text) = q ++ "/" ++ ("" : Text) := (List.append_nil _).symm
    rw [hpath, components_slash]
    rfl

/-! ## The normal form of a path, by its components -/

/-- Carrying out two dots as names come is what the scan does. -/
theorem reverse_foldl_descend (parts : List Text) {before : List Text}
    (h : (".." : Text) ∉ before) :
    ((parts.filter isName).foldl (descend true) before).reverse =
      parts.foldl enter before.reverse := by
  induction parts generalizing before with
  | nil => rfl
  | cons part parts ih =>
    rw [List.foldl_cons]
    by_cases hname : part = "" ∨ part = "."
    · have hnowhere : ¬isName part = true := by
        rintro hname'
        rw [isName, Bool.and_eq_true, bne_iff_ne, bne_iff_ne] at hname'
        exact hname.elim hname'.1 hname'.2
      rw [List.filter_cons_of_neg hnowhere, ih h, enter, if_pos hname]
    · have hsomewhere : isName part = true := by
        rw [isName, Bool.and_eq_true, bne_iff_ne, bne_iff_ne]
        exact not_or.1 hname
      rw [List.filter_cons_of_pos hsomewhere, List.foldl_cons]
      by_cases hdots : part = ".."
      · subst hdots
        rw [enter_dots]
        cases before with
        | nil => exact ih h
        | cons last rest =>
          obtain ⟨hlast, hrest⟩ := List.ne_and_not_mem_of_not_mem_cons h
          have hdescend : descend true (last :: rest) ".." = rest := by
            rw [descend, if_pos rfl]
            exact if_neg (Ne.symm hlast)
          rw [hdescend, List.reverse_cons, List.dropLast_concat, ih hrest]
      · have hdescend : descend true before part = part :: before := by
          rw [descend.eq_def, if_neg hdots]
        rw [hdescend, ih (List.not_mem_cons_of_ne_of_not_mem (Ne.symm hdots) h), List.reverse_cons,
          enter, if_neg hname, if_neg hdots]

theorem components_eq_collapse (p : Text) :
    components p = collapse true ((parts p).filter isName) :=
  (reverse_foldl_descend (parts p) List.not_mem_nil).symm

/-- What leads somewhere and is no pair of dots is proper. -/
theorem isProper_of_mem_enter (hbefore : ∀ name ∈ before, IsProper name)
    (hpart : ('/' : CodePoint) ∉ part) : ∀ name ∈ enter before part, IsProper name := by
  rw [enter]
  split_ifs with hnowhere hdots
  · exact hbefore
  · exact fun name hname => hbefore name (List.dropLast_subset _ hname)
  · obtain ⟨hnonempty, hdot⟩ := not_or.1 hnowhere
    exact List.forall_mem_append.2
      ⟨hbefore, List.forall_mem_singleton.2 ⟨hnonempty, hdot, hdots, hpart⟩⟩

/-- **Components are proper names.** -/
theorem isProper_of_mem_components : ∀ name ∈ components p, IsProper name := by
  have hfold : ∀ (parts before : List Text), (∀ part ∈ parts, ('/' : CodePoint) ∉ part) →
      (∀ name ∈ before, IsProper name) → ∀ name ∈ parts.foldl enter before, IsProper name := by
    intro parts
    induction parts with
    | nil => exact fun _ _ h => h
    | cons part parts ih =>
      intro before hparts hbefore
      obtain ⟨hpart, hparts⟩ := List.forall_mem_cons.1 hparts
      exact ih _ hparts (isProper_of_mem_enter hbefore hpart)
  exact hfold (parts p) [] (fun _ hpart => Text.not_mem_of_mem_cutWhere hpart)
    fun _ h => absurd h List.not_mem_nil

theorem IsRooted.leadingSlashes_eq (h : IsRooted p) : leadingSlashes p = 1 := by
  have hone : (p.startsWith "//" && !p.startsWith "///") = false := by
    cases hdouble : p.startsWith "//" with
    | false => rfl
    | true => rw [h.notDouble hdouble]; rfl
  rw [leadingSlashes, hone, h.absolute]
  rfl

/-- The path of some components. -/
def pathOf (names : List Text) : Text := "/" ++ Text.joinWith "/" names

/-- **The normal form of an absolute path** spells its slashes and its components. -/
theorem normalize_of_leadingSlashes_ne_zero (h : leadingSlashes p ≠ 0) :
    normalize p = Text.run (leadingSlashes p) '/' ++ Text.joinWith "/" (components p) := by
  have hanchored : ((Form.ofText p).slashes != 0) = true := bne_iff_ne.2 h
  rw [normalize, Form.collapsed, Form.render, hanchored, components_eq_collapse]
  exact if_neg fun hempty => h hempty.1

/-- **The normal form of a path** spells its components, and nothing else. -/
theorem IsRooted.normalize_eq (h : IsRooted p) : normalize p = pathOf (components p) := by
  have hslashes := h.leadingSlashes_eq
  rw [normalize_of_leadingSlashes_ne_zero (hslashes ▸ Nat.one_ne_zero), hslashes]
  rfl

/-! ## At or below a path, by components -/

theorem parts_joinWith (hne : names ≠ []) (h : ∀ name ∈ names, IsProper name) :
    parts (Text.joinWith "/" names) = names :=
  Text.cutWhere_joinWith_of_not_mem hne fun name hname => (h name hname).whole

/-- **A path of proper names** has these for its components. -/
theorem components_pathOf (h : ∀ name ∈ names, IsProper name) :
    components (pathOf names) = names := by
  have hpath : pathOf names = "" ++ "/" ++ Text.joinWith "/" names := rfl
  rw [hpath, components_slash]
  by_cases hne : names = []
  · subst hne
    rfl
  · rw [parts_joinWith hne h]
    exact foldl_enter_of_proper h []

/-- A slash ends the path of no names only. -/
theorem withSlash_pathOf (hne : names ≠ []) (h : ∀ name ∈ names, IsProper name) :
    withSlash (pathOf names) = pathOf names ++ "/" := by
  refine if_neg fun hends => ?_
  rw [Text.endsWith, List.isPrefixOf_iff_prefix, List.reverse_prefix] at hends
  obtain ⟨start, hstart⟩ := hends
  have hpath : start ++ ("/" : Text) ++ [] = [] ++ ("/" : Text) ++ Text.joinWith "/" names := by
    rw [List.append_nil]
    exact hstart
  have hparts : parts start ++ [[]] = [[]] ++ names := by
    have hcut := congrArg parts hpath
    rw [parts_slash, parts_slash, parts_joinWith hne h] at hcut
    exact hcut
  -- behind a slash at the end stands an empty part, which no name is
  obtain ⟨init, last, rfl⟩ := (List.eq_nil_or_concat names).resolve_left hne
  rw [List.concat_eq_append, ← List.append_assoc] at hparts
  have hlast : [[]] = [last] := (List.append_inj' hparts rfl).2
  exact (h last (by simp)).nonempty (List.singleton_inj.1 hlast).symm

/-- **A path goes on behind another** with a slash, if it spells more names behind the same. -/
theorem startsWith_withSlash_iff {others : List Text} (hnames : ∀ name ∈ names, IsProper name)
    (hothers : ∀ name ∈ others, IsProper name) (hne : names ≠ others) :
    (pathOf others).startsWith (withSlash (pathOf names)) = true ↔ names <+: others := by
  rw [Text.startsWith, List.isPrefixOf_iff_prefix]
  by_cases hroot : names = []
  · subst hroot
    exact iff_of_true (List.prefix_append _ _) (List.nil_prefix)
  rw [withSlash_pathOf hroot hnames, pathOf, pathOf, List.append_assoc,
    List.prefix_append_right_inj]
  constructor
  · rintro ⟨rest, hrest⟩
    have hparts : parts (Text.joinWith "/" others) = names ++ parts rest := by
      rw [← hrest, parts_slash, parts_joinWith hroot hnames]
    have hothers' : others ≠ [] := by
      rintro rfl
      have hslash : ("/" : Text) <:+: ([] : Text) := ⟨_, rest, hrest⟩
      exact absurd (List.infix_nil.1 hslash) (by decide)
    rw [parts_joinWith hothers' hothers] at hparts
    exact ⟨parts rest, hparts.symm⟩
  · rintro ⟨rest, rfl⟩
    have hrest : rest ≠ [] := fun hnil => hne (by rw [hnil, List.append_nil])
    rw [Text.joinWith_append _ hroot hrest]
    exact List.prefix_append _ _

/-- **A path is at or below another** if its components begin with those of the other. -/
theorem isAtOrBelow_iff (hp : IsRooted p) (hq : IsRooted q) :
    isAtOrBelow q p = true ↔ components p <+: components q := by
  have hproper : ∀ name ∈ components p, IsProper name := isProper_of_mem_components
  have hproper' : ∀ name ∈ components q, IsProper name := isProper_of_mem_components
  rw [isAtOrBelow, hp.normalize_eq, hq.normalize_eq, Bool.or_eq_true, beq_iff_eq]
  by_cases heq : components p = components q
  · rw [heq]
    exact iff_of_true (.inl rfl) (List.prefix_refl _)
  · rw [startsWith_withSlash_iff hproper hproper' heq]
    refine or_iff_right fun hsame => heq ?_
    rw [← components_pathOf hproper, ← hsame, components_pathOf hproper']

theorem isCovered_singleton_iff (hp : IsRooted p) (hq : IsRooted q) :
    isCovered [p] q = true ↔ components p <+: components q := by
  rw [isCovered, List.any_cons, List.any_nil, Bool.or_false, isAtOrBelow_iff hp hq]

theorem isRooted_root : IsRooted "/" := ⟨by decide, by decide⟩

/-- Two ways to spell a path, one reached from the other by respelling, lead to the same. -/
theorem components_eq_of_eqvGen (h : Relation.EqvGen Respelled p q) :
    components p = components q :=
  h.rec (fun _ _ h => h.components_eq) (fun _ => rfl) (fun _ _ _ h => h.symm)
    fun _ _ _ _ _ h h' => h.trans h'

theorem prefix_siblings_iff (hname : IsProper a) (hname' : IsProper b) (p : Text) :
    components (p ++ "/" ++ a) <+: components (p ++ "/" ++ b) ↔ a = b := by
  rw [components_slash_name hname, components_slash_name hname', List.prefix_append_right_inj,
    List.cons_prefix_cons, and_iff_left List.nil_prefix]

/-- **A path is covered** if its components begin with those of one of the paths that cover it.  So
a path covers itself, and what is covered by a path that another covers; the root covers every path;
respelling a path on either side makes no difference; and of two names below the same path neither
covers the other, whatever they begin with. -/
theorem isCovered_iff_isPrefix :
    (∀ (bases : List Rooted) (target : Rooted),
      isCovered (bases.map Subtype.val) target = true ↔
        ∃ base ∈ bases, components base <+: components target) ∧
    (∀ p : Rooted, isCovered [p.val] p = true) ∧
    (∀ p q r : Rooted, isCovered [p.val] q = true → isCovered [q.val] r = true →
      isCovered [p.val] r = true) ∧
    (∀ p : Rooted, isCovered ["/"] p = true) ∧
    (∀ p p' q q' : Rooted, Relation.EqvGen Respelled p p' → Relation.EqvGen Respelled q q' →
      isCovered [p.val] q = isCovered [p'.val] q') ∧
    ∀ directory name name' : Text, IsProper name → IsProper name' →
      IsRooted (directory ++ "/" ++ name) → IsRooted (directory ++ "/" ++ name') →
        (isCovered [directory ++ "/" ++ name] (directory ++ "/" ++ name') = true ↔
          name = name') := by
  refine ⟨fun bases target => ?_, fun p => ?_, fun p q r hpq hqr => ?_, fun p => ?_,
    fun p p' q q' hp hq => ?_, fun directory name name' hname hname' hrooted hrooted' => ?_⟩
  · rw [isCovered, List.any_map, List.any_eq_true]
    exact exists_congr fun base => and_congr_right fun _ => isAtOrBelow_iff base.2 target.2
  · exact (isCovered_singleton_iff p.2 p.2).2 (List.prefix_refl _)
  · rw [isCovered_singleton_iff p.2 q.2] at hpq
    rw [isCovered_singleton_iff q.2 r.2] at hqr
    exact (isCovered_singleton_iff p.2 r.2).2 (hpq.trans hqr)
  · exact (isCovered_singleton_iff isRooted_root p.2).2 List.nil_prefix
  · rw [Bool.eq_iff_iff, isCovered_singleton_iff p.2 q.2, isCovered_singleton_iff p'.2 q'.2,
      components_eq_of_eqvGen hp, components_eq_of_eqvGen hq]
  · rw [isCovered_singleton_iff hrooted hrooted', prefix_siblings_iff hname hname']

example : components "/a//b/./../c/" = [("a" : Text), "c"] := by decide

end Path

end BuildLint
