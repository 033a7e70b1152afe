import BuildLint.Proofs.Path.Resolving
import BuildLint.Proofs.Settings.Options
import BuildLint.Proofs.Text.Trimming
import Mathlib.Data.List.Forall2

/-!
# Proofs/Settings/PathList — a list of paths, as one text or as several

A list of paths is given as one text with semicolons or as a list of texts.  Either way it is
**pieces**, and each that is not blank stands for one path: what the white space around it leaves,
taken from the root.  So the two ways mean the same, and a semicolon between two texts puts their
paths behind each other.

* `Lists` — the paths that pieces stand for.
* `ofText_joinWith`, `ofText_append` — a text is its pieces between semicolons.
* `forms_agree` — reading either form gives these paths.
-/

namespace BuildLint

namespace PathList

variable {root piece : Text} {pieces padded paths : List Text}

/-! ## The paths that pieces stand for -/

/-- **The paths that pieces stand for**: one for each piece that is not blank, in order, which is
the core of the piece, taken from the root. -/
inductive Lists (root : Text) : List Text → List Text → Prop
  | nil : Lists root [] []
  | blank {piece : Text} {pieces paths : List Text} (h : piece.isBlank = true)
      (rest : Lists root pieces paths) : Lists root (piece :: pieces) paths
  | path {piece core : Text} {pieces paths : List Text} (h : piece.IsCore core)
      (rest : Lists root pieces paths) :
      Lists root (piece :: pieces) (Path.resolve root core :: paths)

theorem resolveAll_append (root : Text) (pieces others : List Text) :
    resolveAll root (pieces ++ others) = resolveAll root pieces ++ resolveAll root others := by
  rw [resolveAll, List.filter_append, List.map_append]
  rfl

theorem resolveAll_cons_of_isBlank (h : piece.isBlank = true) (root : Text) (pieces : List Text) :
    resolveAll root (piece :: pieces) = resolveAll root pieces := by
  rw [resolveAll, List.filter_cons_of_neg (by rw [h]; decide)]
  rfl

theorem resolveAll_cons_of_isCore {core : Text} (h : piece.IsCore core) (root : Text)
    (pieces : List Text) :
    resolveAll root (piece :: pieces) = Path.resolve root core :: resolveAll root pieces := by
  rw [resolveAll, List.filter_cons_of_pos (by rw [h.isBlank_eq]; rfl), List.map_cons, h.trim_eq]
  rfl

/-- **A list of pieces is read** as the paths that they stand for. -/
theorem lists_iff : Lists root pieces paths ↔ paths = resolveAll root pieces := by
  constructor
  · intro h
    induction h with
    | nil => rfl
    | blank h _ ih => rw [ih, resolveAll_cons_of_isBlank h]
    | path h _ ih => rw [ih, resolveAll_cons_of_isCore h]
  · rintro rfl
    induction pieces with
    | nil => exact .nil
    | cons piece pieces ih =>
      cases hblank : piece.isBlank with
      | true =>
        rw [resolveAll_cons_of_isBlank hblank]
        exact .blank hblank ih
      | false =>
        have hcore := Text.isCore_trim hblank
        rw [resolveAll_cons_of_isCore hcore]
        exact .path hcore ih

theorem whole_of_pads (hpads : List.Forall₂ Text.Pads pieces padded)
    (h : ∀ piece ∈ pieces, (';' : CodePoint) ∉ piece) :
    ∀ piece ∈ padded, (';' : CodePoint) ∉ piece := by
  induction hpads with
  | nil => exact h
  | cons hpad _ ih =>
    obtain ⟨hpiece, hpieces⟩ := List.forall_mem_cons.1 h
    exact List.forall_mem_cons.2 ⟨hpad.notMem (by decide) hpiece, ih hpieces⟩

/-- **White space around pieces** makes no difference. -/
theorem Lists.pad (h : Lists root pieces paths) (hpads : List.Forall₂ Text.Pads pieces padded) :
    Lists root padded paths := by
  induction h generalizing padded with
  | nil =>
    cases hpads
    exact .nil
  | blank h _ ih =>
    obtain _ | ⟨hpad, hpads⟩ := hpads
    exact .blank (hpad.isBlank_eq.trans h) (ih hpads)
  | path h _ ih =>
    obtain _ | ⟨hpad, hpads⟩ := hpads
    exact .path (h.pad hpad) (ih hpads)

/-- From an absolute root, every path is normal. -/
theorem Lists.isNormal (hroot : Path.isAbsolute root = true) (h : Lists root pieces paths) :
    ∀ path ∈ paths, ∃ double names, Path.IsNormal double names path := by
  induction h with
  | nil => exact fun _ hmem => absurd hmem List.not_mem_nil
  | blank _ _ ih => exact ih
  | path _ _ ih => exact List.forall_mem_cons.2 ⟨⟨_, _, Path.isNormal_resolve hroot _⟩, ih⟩

/-! ## The two forms -/

/-- An empty text is one empty piece, which stands for no path. -/
theorem ofText?_separator (root t : Text) : ofText? root separator t = some (ofText root t) := by
  rw [ofText?]
  split_ifs with hempty hnone
  · subst hempty
    rfl
  · exact absurd hnone (by decide)
  · rfl

/-- **A text is read** as its pieces between semicolons are; no pieces are joined to an empty
text. -/
theorem ofText_joinWith (h : ∀ piece ∈ pieces, (';' : CodePoint) ∉ piece) (root : Text) :
    ofText root (Text.joinWith separator pieces) = resolveAll root pieces := by
  by_cases hne : pieces = []
  · subst hne
    rfl
  · exact congrArg (resolveAll root) (Text.splitOn_joinWith hne h)

theorem ofText_append (root a b : Text) :
    ofText root (a ++ separator ++ b) = ofText root a ++ ofText root b := by
  have hcut : Text.splitOn (a ++ separator ++ b) separator =
      Text.splitOn a separator ++ Text.splitOn b separator := by
    have hsemicolon : separator = [CodePoint.ofChar ';'] := rfl
    rw [hsemicolon, Text.splitOn_singleton, Text.splitOn_singleton, Text.splitOn_singleton,
      List.append_assoc]
    exact Text.cutWhere_append_separator (decide_eq_true rfl) a b
  rw [ofText, hcut, resolveAll_append]
  rfl

/-- **The two forms of a list of paths** mean the same, in settings too.  One text is as good as its
pieces between semicolons, so two texts joined by a semicolon are read one behind the other; and
either form is read as the paths that its pieces stand for, whatever white space there is around
these.  From an absolute root every path is normal. -/
theorem forms_agree :
    (∀ root t, ofText? root separator t = some (ofText root t)) ∧
    (∀ root pieces, (∀ piece ∈ pieces, (';' : CodePoint) ∉ piece) →
      ofText root (Text.joinWith separator pieces) = resolveAll root pieces ∧
      ∀ name options,
        Config.paths (Keyed.set options name (.string (Text.joinWith separator pieces))) root name =
          Config.paths (Keyed.set options name (.array (pieces.map .string))) root name) ∧
    (∀ root a b, ofText root (a ++ separator ++ b) = ofText root a ++ ofText root b) ∧
    (∀ root t, ∃ pieces, (∀ piece ∈ pieces, (';' : CodePoint) ∉ piece) ∧
      Text.joinWith separator pieces = t ∧ Lists root pieces (ofText root t)) ∧
    (∀ root pieces paths, Lists root pieces paths ↔ paths = resolveAll root pieces) ∧
    (∀ root pieces padded, List.Forall₂ Text.Pads pieces padded →
      resolveAll root padded = resolveAll root pieces ∧
      ((∀ piece ∈ pieces, (';' : CodePoint) ∉ piece) →
        ofText root (Text.joinWith separator padded) =
          ofText root (Text.joinWith separator pieces))) ∧
    ∀ root, Path.isAbsolute root = true → ∀ pieces paths, Lists root pieces paths →
      ∀ path ∈ paths, Path.isAbsolute path = true ∧ Path.normalize path = path ∧
        ∃ double names, Path.IsNormal double names path := by
  refine ⟨ofText?_separator, fun root pieces hwhole => ⟨ofText_joinWith hwhole root, ?_⟩,
    ofText_append, fun root t => ?_, fun root pieces paths => lists_iff, ?_, ?_⟩
  · intro name options
    have hlist : Config.paths (Keyed.set options name (.array (pieces.map .string))) root name =
        resolveAll root pieces := Config.paths_eq (by
      rw [Keyed.get?_set_self]
      exact .items pieces)
    rw [hlist, Config.paths, Keyed.get?_set_self]
    exact ofText_joinWith hwhole root
  · obtain ⟨pieces, hne, hwhole, rfl⟩ := Text.exists_joinWith_eq ';' t
    exact ⟨pieces, hwhole, rfl, lists_iff.2 (ofText_joinWith hwhole root)⟩
  · intro root pieces padded hpads
    have hsame : resolveAll root padded = resolveAll root pieces :=
      (lists_iff.1 ((lists_iff.2 rfl).pad hpads)).symm
    refine ⟨hsame, fun hwhole => ?_⟩
    rw [ofText_joinWith (whole_of_pads hpads hwhole), ofText_joinWith hwhole, hsame]
  · intro root hroot pieces paths hlists path hpath
    obtain ⟨double, names, hnormal⟩ := hlists.isNormal hroot path hpath
    exact ⟨hnormal.isAbsolute, hnormal.normalize_eq, double, names, hnormal⟩

example : ofText "/r" " a b ;; \t;/c/../d;" = ["/r/a b", "/d"] := by decide

end PathList

end BuildLint
