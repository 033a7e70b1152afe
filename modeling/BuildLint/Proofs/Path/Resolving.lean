import BuildLint.Proofs.Path.Forms

/-!
# Proofs/Path/Resolving — a path taken from a root

A path is **followed** part by part from the components of a root, or from none if it is absolute.
What it leads to and the slashes in front, one or exactly two, are all that its normal form spells
(`isNormal_normalize`).  Following one path and then another is following the two joined
(`follow_join`), so a path may be taken from a root in one step or in several.

* `follow` — following a path from some components.
* `IsNormal` — normal paths from the root, and what is to be known of them.
* `leadingSlashes_join` — joining leaves the slashes in front as they are.
* `resolve_resolves` — what a path taken from a root is, and how taking paths composes.
-/

namespace BuildLint

namespace Path

variable {p q a b root : Text} {before names : List Text} {n : Nat} {double : Bool}

/-! ## Following a path -/

/-- **Following a path** from some components: each part leads on from where it is found. -/
def follow (before : List Text) (p : Text) : List Text := (parts p).foldl enter before

theorem follow_slash (before : List Text) (a b : Text) :
    follow before (a ++ "/" ++ b) = follow (follow before a) b := by
  rw [follow, parts_slash, List.foldl_append]
  rfl

theorem follow_empty (before : List Text) : follow before "" = before := rfl

/-- **Following a joined path** is following the one path and then the other. -/
theorem follow_join (hb : isAbsolute b = false) (before : List Text) (a : Text) :
    follow before (join a b) = follow (follow before a) b := by
  rw [join, hb, if_neg Bool.false_ne_true]
  split_ifs with hends
  · rw [Bool.or_eq_true, decide_eq_true_eq, endsWith_slash_iff] at hends
    rcases hends with rfl | hslash
    · rfl
    · obtain ⟨front, rfl⟩ := List.getLast?_eq_some_iff.1 hslash
      have hfront : follow before (front ++ "/") = follow before front := by
        have hempty : (front ++ "/" : Text) = front ++ "/" ++ ("" : Text) :=
          (List.append_nil _).symm
        rw [hempty, follow_slash, follow_empty]
      exact (follow_slash before front b).trans (congrArg (follow · b) hfront.symm)
  · exact follow_slash before a b

theorem components_join (hb : isAbsolute b = false) (a : Text) :
    components (join a b) = follow (components a) b := follow_join hb [] a

/-! ## The slashes in front -/

theorem isAbsolute_iff_head? : isAbsolute p = true ↔ p.head? = some (CodePoint.ofChar '/') := by
  cases p with
  | nil => exact iff_of_false Bool.false_ne_true (by rintro ⟨⟩)
  | cons c rest =>
    have hstart : isAbsolute (c :: rest) = (CodePoint.ofChar '/' == c && true) := rfl
    rw [hstart, Bool.and_true, beq_iff_eq, List.head?_cons, Option.some.injEq, eq_comm]

theorem isAbsolute_eq_false_iff :
    isAbsolute p = false ↔ p.head? ≠ some (CodePoint.ofChar '/') := by
  rw [← Bool.not_eq_true, isAbsolute_iff_head?]

/-- A joined path is absolute if one of the two is. -/
theorem isAbsolute_join (a b : Text) : isAbsolute (join a b) = (isAbsolute a || isAbsolute b) := by
  rw [join]
  cases hb : isAbsolute b with
  | true => rw [if_pos rfl, hb, Bool.or_true]
  | false =>
    rw [if_neg Bool.false_ne_true, Bool.or_false]
    cases a with
    | nil => exact hb
    | cons c rest =>
      rw [Bool.eq_iff_iff, isAbsolute_iff_head?, isAbsolute_iff_head?]
      split_ifs <;> rfl

theorem exists_eq_run_append (p : Text) :
    ∃ n rest, p = Text.run n '/' ++ rest ∧ rest.head? ≠ some (CodePoint.ofChar '/') := by
  induction p with
  | nil => exact ⟨0, [], rfl, nofun⟩
  | cons c p ih =>
    by_cases hc : c = CodePoint.ofChar '/'
    · obtain ⟨n, rest, rfl, hrest⟩ := ih
      exact ⟨n + 1, rest, by rw [hc]; rfl, hrest⟩
    · exact ⟨0, c :: p, rfl, fun h => hc (Option.some.inj h)⟩

/-- Three slashes or more count as one. -/
theorem leadingSlashes_triple (rest : Text) : leadingSlashes ("///" ++ rest) = 1 := by
  cases rest <;> rfl

/-- What stands behind the slashes in front makes no difference to how they count. -/
theorem leadingSlashes_run_append_congr {t u : Text}
    (ht : t.head? ≠ some (CodePoint.ofChar '/')) (hu : u.head? ≠ some (CodePoint.ofChar '/')) :
    leadingSlashes (Text.run n '/' ++ t) = leadingSlashes (Text.run n '/' ++ u) := by
  rcases Nat.lt_or_ge 2 n with hmany | hfew
  · obtain ⟨k, rfl⟩ := Nat.exists_eq_add_of_lt hmany
    have htriple : ∀ rest, Text.run (2 + k + 1) '/' ++ rest =
        "///" ++ (Text.run k '/' ++ rest) := fun rest => by
      rw [show 2 + k + 1 = 3 + k by omega, Text.run, List.replicate_add, List.append_assoc]
      rfl
    rw [htriple, htriple, leadingSlashes_triple, leadingSlashes_triple]
  · rw [Form.leadingSlashes_run_append hfew ht, Form.leadingSlashes_run_append hfew hu]

/-- **Joining leaves the slashes in front as they are.** -/
theorem leadingSlashes_join (ha : isAbsolute a = true) (hb : isAbsolute b = false) :
    leadingSlashes (join a b) = leadingSlashes a := by
  obtain ⟨n, rest, rfl, hrest⟩ := exists_eq_run_append a
  have hbehind : ∃ t, join (Text.run n '/' ++ rest) b = Text.run n '/' ++ t ∧
      t.head? ≠ some (CodePoint.ofChar '/') := by
    cases rest with
    | nil =>
      -- nothing but slashes, so the path behind them needs no further one
      have hn : n ≠ 0 := by
        rintro rfl
        cases ha
      have hends : Text.endsWith (Text.run n '/' ++ []) "/" = true := by
        rw [endsWith_slash_iff, List.append_nil, Text.run, List.getLast?_replicate, if_neg hn]
      refine ⟨b, ?_, isAbsolute_eq_false_iff.1 hb⟩
      rw [join, hb, if_neg Bool.false_ne_true, hends, Bool.or_true, if_pos rfl, List.append_nil]
    | cons c rest =>
      rw [join, hb, if_neg Bool.false_ne_true]
      split_ifs
      · exact ⟨c :: rest ++ b, List.append_assoc _ _ _, hrest⟩
      · exact ⟨c :: rest ++ ("/" ++ b), by simp only [List.append_assoc], hrest⟩
  obtain ⟨t, hjoin, ht⟩ := hbehind
  rw [hjoin, leadingSlashes_run_append_congr ht hrest]

/-- **A path is led by exactly two slashes.** -/
def isDouble (p : Text) : Bool := p.startsWith "//" && !p.startsWith "///"

theorem leadingSlashes_of_isAbsolute (h : isAbsolute p = true) :
    leadingSlashes p = if isDouble p then 2 else 1 := by
  have hslash : p.startsWith "/" = true := h
  rw [leadingSlashes, hslash]
  rfl

theorem isDouble_iff : isDouble p = true ↔ leadingSlashes p = 2 := by
  rw [leadingSlashes, isDouble]
  split_ifs with htwo hone
  · exact iff_of_true htwo rfl
  · exact iff_of_false htwo (by decide)
  · exact iff_of_false htwo (by decide)

theorem isDouble_join (ha : isAbsolute a = true) (hb : isAbsolute b = false) :
    isDouble (join a b) = isDouble a := by
  rw [Bool.eq_iff_iff, isDouble_iff, isDouble_iff, leadingSlashes_join ha hb]

/-! ## Normal paths -/

/-- **A normal path from the root**: one slash, or two, and proper names with a slash between each
and the next. -/
structure IsNormal (double : Bool) (names : List Text) (p : Text) : Prop where
  spelled : p = (if double then "//" else "/" : Text) ++ Text.joinWith "/" names
  isProper : ∀ name ∈ names, IsProper name

namespace IsNormal

theorem areWhole (h : IsNormal double names p) : AreWhole names := fun name hname =>
  Spelling.isWhole_slashes_of_proper (h.isProper name hname)

theorem eq_spell (h : IsNormal double names p) :
    p = Form.spell ⟨if double then 2 else 1, names⟩ := by
  rw [h.spelled]
  cases double <;> rfl

theorem slashes_le (double : Bool) : (if double then 2 else 1) ≤ 2 := by cases double <;> decide

/-- **The form of a normal path**: its slashes and its names. -/
theorem ofText_eq (h : IsNormal double names p) :
    Form.ofText p = ⟨if double then 2 else 1, names⟩ := by
  rw [h.eq_spell, Form.ofText_spell (slashes_le double) h.areWhole,
    filter_isName_of_proper h.isProper]

theorem leadingSlashes_eq (h : IsNormal double names p) :
    leadingSlashes p = if double then 2 else 1 := congrArg Form.slashes h.ofText_eq

theorem isAbsolute (h : IsNormal double names p) : isAbsolute p = true := by
  rw [isAbsolute_iff, h.leadingSlashes_eq]
  cases double <;> decide

theorem isDouble_eq (h : IsNormal double names p) : isDouble p = double := by
  rw [Bool.eq_iff_iff, isDouble_iff, h.leadingSlashes_eq]
  cases double <;> decide

theorem components_eq (h : IsNormal double names p) : components p = names := by
  have hnames : (parts p).filter isName = names := congrArg Form.names h.ofText_eq
  rw [components_eq_collapse, hnames, collapse_of_proper h.isProper]

/-- A normal path ends with a slash only at the root. -/
theorem ends_iff (h : IsNormal double names p) : p.endsWith "/" = true ↔ names = [] := by
  rw [endsWith_slash_iff, h.eq_spell]
  constructor
  · intro hends
    by_contra hne
    obtain ⟨front, c, hspell, hc⟩ := exists_spell_eq_concat hne h.areWhole
    rw [hspell, List.getLast?_concat] at hends
    obtain rfl := Option.some.inj hends
    cases hc
  · rintro rfl
    cases double <;> rfl

end IsNormal

/-- **The normal form of an absolute path** spells its slashes and its components. -/
theorem isNormal_normalize (h : isAbsolute p = true) :
    IsNormal (isDouble p) (components p) (normalize p) where
  spelled := by
    rw [normalize_of_leadingSlashes_ne_zero (isAbsolute_iff.1 h), leadingSlashes_of_isAbsolute h]
    cases isDouble p <;> rfl
  isProper := isProper_of_mem_components

theorem normalize_congr (hp : isAbsolute p = true) (hq : isAbsolute q = true)
    (hdouble : isDouble p = isDouble q) (hcomponents : components p = components q) :
    normalize p = normalize q := by
  rw [(isNormal_normalize hp).spelled, (isNormal_normalize hq).spelled, hdouble, hcomponents]

/-- **A normal path is its own normal form.** -/
theorem IsNormal.normalize_eq (h : IsNormal double names p) : normalize p = p := by
  have hnormal := (isNormal_normalize h.isAbsolute).spelled
  rw [h.isDouble_eq, h.components_eq] at hnormal
  exact hnormal.trans h.spelled.symm

/-! ## Paths from a root -/

/-- The path that says how many slashes lead: a path itself if it is absolute, and else the root it
is taken from. -/
def anchor (root p : Text) : Text := if isAbsolute p then p else root

/-- **Where a path leads** when it is taken from a root. -/
def destination (root p : Text) : List Text :=
  follow (if isAbsolute p then [] else components root) p

/-- **A path taken from a root** is normal. -/
theorem isNormal_resolve (hroot : isAbsolute root = true) (p : Text) :
    IsNormal (isDouble (anchor root p)) (destination root p) (resolve root p) := by
  rw [anchor, destination, resolve]
  cases hp : isAbsolute p with
  | true => exact isNormal_normalize hp
  | false =>
    have hjoin : isAbsolute (join root p) = true := by rw [isAbsolute_join, hroot, Bool.true_or]
    have hnormal := isNormal_normalize hjoin
    rw [isDouble_join hroot hp, components_join hp] at hnormal
    exact hnormal

theorem resolve_of_isAbsolute (h : isAbsolute p = true) (root : Text) :
    resolve root p = normalize p := by rw [resolve, if_pos h]

theorem resolve_of_not_isAbsolute (h : isAbsolute p = false) (root : Text) :
    resolve root p = normalize (join root p) := by rw [resolve, h, if_neg Bool.false_ne_true]

/-- What a path is joined to may be brought to its normal form before. -/
theorem normalize_join_normalize (ha : isAbsolute a = true) (hb : isAbsolute b = false) :
    normalize (join (normalize a) b) = normalize (join a b) := by
  have hnormal := isNormal_normalize ha
  refine normalize_congr ?_ ?_ ?_ ?_
  · rw [isAbsolute_join, hnormal.isAbsolute, Bool.true_or]
  · rw [isAbsolute_join, ha, Bool.true_or]
  · rw [isDouble_join hnormal.isAbsolute hb, isDouble_join ha hb, hnormal.isDouble_eq]
  · rw [components_join hb, components_join hb, hnormal.components_eq]

/-- Joining is associative, up to how the path is spelled. -/
theorem normalize_join_join (hroot : isAbsolute root = true) (ha : isAbsolute a = false)
    (hb : isAbsolute b = false) :
    normalize (join root (join a b)) = normalize (join (join root a) b) := by
  have hab : isAbsolute (join a b) = false := by rw [isAbsolute_join, ha, hb, Bool.or_false]
  have hrooted : isAbsolute (join root a) = true := by rw [isAbsolute_join, hroot, Bool.true_or]
  refine normalize_congr ?_ ?_ ?_ ?_
  · rw [isAbsolute_join, hroot, Bool.true_or]
  · rw [isAbsolute_join, hrooted, Bool.true_or]
  · rw [isDouble_join hroot hab, isDouble_join hrooted hb, isDouble_join hroot ha]
  · rw [components_join hab, components_join hb, components_join ha, follow_join hb]

/-- **Taking a joined path** is taking the one path, and the other from there. -/
theorem resolve_join (hroot : isAbsolute root = true) (a b : Text) :
    resolve root (join a b) = resolve (resolve root a) b := by
  cases hb : isAbsolute b with
  | true =>
    have hjoin : join a b = b := if_pos hb
    rw [hjoin, resolve_of_isAbsolute hb, resolve_of_isAbsolute hb]
  | false =>
    rw [resolve_of_not_isAbsolute hb]
    cases ha : isAbsolute a with
    | true =>
      have hjoin : isAbsolute (join a b) = true := by rw [isAbsolute_join, ha, Bool.true_or]
      rw [resolve_of_isAbsolute hjoin, resolve_of_isAbsolute ha, normalize_join_normalize ha hb]
    | false =>
      have hjoin : isAbsolute (join a b) = false := by rw [isAbsolute_join, ha, hb, Bool.or_false]
      have hrooted : isAbsolute (join root a) = true := by
        rw [isAbsolute_join, hroot, Bool.true_or]
      rw [resolve_of_not_isAbsolute hjoin, resolve_of_not_isAbsolute ha,
        normalize_join_normalize hrooted hb, normalize_join_join hroot ha hb]

/-- **A path taken from an absolute root** leads where it is followed to, and is spelled normally:
behind one slash, or behind two if exactly two lead it or, where it is relative, the root.  Taken
from any other root it stays as it is; and to take a joined path is to take the one path, and the
other from there. -/
theorem resolve_resolves (hroot : isAbsolute root = true) :
    (∀ p, isAbsolute (resolve root p) = true ∧
      IsNormal (isDouble (anchor root p)) (destination root p) (resolve root p) ∧
      ((resolve root p).endsWith "/" = true ↔ destination root p = []) ∧
      ∀ other, resolve other (resolve root p) = resolve root p) ∧
    ∀ a b, resolve root (join a b) = resolve (resolve root a) b := by
  refine ⟨fun p => ?_, resolve_join hroot⟩
  have hnormal := isNormal_resolve hroot p
  refine ⟨hnormal.isAbsolute, hnormal, hnormal.ends_iff, fun other => ?_⟩
  rw [resolve_of_isAbsolute hnormal.isAbsolute, hnormal.normalize_eq]

/-- More pairs of dots than names, on both sides of where two paths are joined. -/
theorem resolve_resolves_doubleRoot :
    isAbsolute "//srv/./share" = true ∧
      resolve "//srv/./share" (join "../a//b/" "../../../../c") = "//c" ∧
      resolve (resolve "//srv/./share" "../a//b/") "../../../../c" = "//c" := by
  have hroot : isAbsolute "//srv/./share" = true := by decide
  have hjoined : resolve "//srv/./share" (join "../a//b/" "../../../../c") = "//c" := by decide
  exact ⟨hroot, hjoined, ((resolve_resolves hroot).2 _ _).symm.trans hjoined⟩

end Path

end BuildLint
