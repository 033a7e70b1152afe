import BuildLint.Proofs.Disk.Paths
import BuildLint.Proofs.Path.Forms

/-!
# Proofs/Disk/Ways — the directories on the way along a path

A path is followed from the root or the current directory, name by name, and every location that
some of its first names lead to has to be a directory.  A way is **open** if none of them is a file:
then whatever is missing on it can be made.

* `OnWay` — the locations on the way along names.
* `follow_append`, `follow_concat`, `follow_concat_of_gap` — going on to more names, or stopping
  at a gap.
* `look?_congr` — what stands at a path depends on its way alone.
* `locate_render` — the path of a form is followed along its names.
* `Paves` — the way is all directories, and nothing else differs; `Paves.concat` adds a name.
-/

namespace BuildLint

namespace Disk

variable {d e : Disk} {base l : Location} {name : Text} {names : List Text}

/-- **Where a path starts**: at the root if slashes lead it, else in the current directory. -/
def start (here : Location) (slashes : Nat) : Location := if slashes = 0 then here else []

/-- **A location on the way** along names: some of the first ones lead there, none of them to where
it starts, and all of them to where it ends. -/
def OnWay (base : Location) (names : List Text) (l : Location) : Prop :=
  ∃ before, before <+: names ∧ l = before.foldl stepTo base

theorem onWay_start (base : Location) (names : List Text) : OnWay base names base :=
  ⟨[], List.nil_prefix, rfl⟩

theorem onWay_end (base : Location) (names : List Text) :
    OnWay base names (names.foldl stepTo base) :=
  ⟨names, List.prefix_rfl, rfl⟩

theorem onWay_nil : OnWay base [] l ↔ l = base := by
  constructor
  · rintro ⟨before, hbefore, rfl⟩
    rw [List.prefix_nil.1 hbefore]
    rfl
  · rintro rfl
    exact onWay_start _ _

theorem onWay_cons : OnWay base (name :: names) l ↔ l = base ∨ OnWay (stepTo base name) names l := by
  constructor
  · rintro ⟨before, hbefore, rfl⟩
    rcases List.prefix_cons_iff.1 hbefore with rfl | ⟨rest, rfl, hrest⟩
    · exact .inl rfl
    · exact .inr ⟨rest, hrest, rfl⟩
  · rintro (rfl | ⟨before, hbefore, rfl⟩)
    · exact onWay_start _ _
    · exact ⟨name :: before, List.prefix_cons_inj name |>.2 hbefore, rfl⟩

theorem onWay_concat : OnWay base (names ++ [name]) l ↔
    OnWay base names l ∨ l = stepTo (names.foldl stepTo base) name := by
  have hend : stepTo (names.foldl stepTo base) name = (names ++ [name]).foldl stepTo base := by
    rw [List.foldl_append]
    rfl
  constructor
  · rintro ⟨before, hbefore, rfl⟩
    rcases List.prefix_concat_iff.1 hbefore with rfl | hbefore
    · exact .inr hend.symm
    · exact .inl ⟨before, hbefore, rfl⟩
  · rintro (⟨before, hbefore, rfl⟩ | rfl)
    · exact ⟨before, hbefore.trans (List.prefix_append _ _), rfl⟩
    · rw [hend]
      exact onWay_end _ _

/-- **A way is open** if no file stands on it. -/
def IsOpen (d : Disk) (base : Location) (names : List Text) : Prop :=
  ∀ l content, OnWay base names l → d.find? l ≠ some (.file content)

theorem IsOpen.of_concat (h : d.IsOpen base (names ++ [name])) : d.IsOpen base names :=
  fun l content hl => h l content (onWay_concat.2 (.inl hl))

theorem IsOpen.of_cons (h : d.IsOpen base (name :: names)) : d.IsOpen (stepTo base name) names :=
  fun l content hl => h l content (onWay_cons.2 (.inr hl))

/-- Where no file stands there is a directory or nothing. -/
theorem IsOpen.find?_eq (h : d.IsOpen base names) (hl : OnWay base names l) :
    d.find? l = some .directory ∨ d.find? l = none := by
  cases hentry : d.find? l with
  | none => exact .inr rfl
  | some entry => cases entry with
    | directory => exact .inl rfl
    | file content => exact absurd hentry (h l content hl)

/-! ## Going on -/

theorem follow_cons_stepTo (h : d.find? base = some .directory) (name : Text) (rest : List Text) :
    d.follow base (name :: rest) = d.follow (stepTo base name) rest :=
  follow_cons h name rest

/-- **Two ways in a row** are followed one after the other. -/
theorem follow_append (h : d.follow base names = .ok l) (more : List Text) :
    d.follow base (names ++ more) = d.follow l more := by
  induction names generalizing base with
  | nil =>
    obtain rfl := Except.ok.inj h
    rfl
  | cons name rest ih =>
    by_cases hbase : d.find? base = some .directory
    · rw [follow_cons hbase] at h
      rw [List.cons_append, follow_cons hbase]
      exact ih h
    · exact absurd h (follow_cons_ne_ok hbase name rest)

/-- **Along directories** one more name can be followed. -/
theorem follow_concat (h : ∀ l, OnWay base names l → d.find? l = some .directory) (name : Text) :
    d.follow base (names ++ [name]) = .ok (stepTo (names.foldl stepTo base) name) := by
  induction names generalizing base with
  | nil =>
    rw [List.nil_append, follow_cons_stepTo (h base (onWay_start _ _))]
    rfl
  | cons other rest ih =>
    rw [List.cons_append, follow_cons_stepTo (h base (onWay_start _ _))]
    exact ih fun l hl => h l (onWay_cons.2 (.inr hl))

/-- **Where something is missing** on an open way, no further name can be followed. -/
theorem follow_concat_of_gap (hopen : d.IsOpen base names) (hl : OnWay base names l)
    (hgap : d.find? l ≠ some .directory) (name : Text) :
    d.follow base (names ++ [name]) = .error .notFound := by
  induction names generalizing base with
  | nil =>
    obtain rfl := onWay_nil.1 hl
    rw [List.nil_append, follow, (hopen.find?_eq hl).resolve_left hgap]
  | cons other rest ih =>
    rcases hopen.find?_eq (onWay_start _ _) with hbase | hbase
    · rw [List.cons_append, follow_cons_stepTo hbase]
      refine ih hopen.of_cons ((onWay_cons.1 hl).resolve_left ?_)
      rintro rfl
      exact hgap hbase
    · rw [List.cons_append, follow, hbase]

/-- Whoever follows one more name has come along directories. -/
theorem onWay_of_follow_concat (h : d.follow base (names ++ [name]) = .ok l) :
    ∀ k, OnWay base names k → d.find? k = some .directory := by
  intro k hk
  induction names generalizing base with
  | nil =>
    obtain rfl := onWay_nil.1 hk
    by_contra hbase
    exact follow_cons_ne_ok hbase name [] h
  | cons other rest ih =>
    have hbase : d.find? base = some .directory := by
      by_contra hbase
      exact follow_cons_ne_ok hbase other (rest ++ [name]) h
    rw [List.cons_append, follow_cons_stepTo hbase] at h
    rcases onWay_cons.1 hk with rfl | hk
    · exact hbase
    · exact ih h hk

/-- Where nothing changes on the way, names lead to the same location. -/
theorem follow_congr (h : ∀ k, OnWay base names k → e.find? k = d.find? k) :
    e.follow base names = d.follow base names := by
  induction names generalizing base with
  | nil => rfl
  | cons name rest ih =>
    have hrest := ih fun k hk => h k (onWay_cons.2 (.inr hk))
    rw [follow, follow, h base (onWay_start _ _)]
    cases d.find? base with
    | none => rfl
    | some entry => cases entry with
      | file content => rfl
      | directory =>
        dsimp only
        rw [stepTo] at hrest
        split_ifs with hname hup
        · rwa [if_pos hname, if_pos hup] at hrest
        · rwa [if_pos hname, if_neg hup] at hrest
        · rwa [if_neg hname] at hrest

/-- **What stands at a path** depends on its way alone. -/
theorem look?_congr {p : Text} (hhere : e.here = d.here)
    (h : ∀ k, OnWay (if Path.isAbsolute p then [] else d.here) (Path.parts p) k →
      e.find? k = d.find? k) : e.look? p = d.look? p := by
  have hlocate : e.locate p = d.locate p := by
    rw [locate, locate, hhere, follow_congr h]
  rw [look?, look?, hlocate]
  cases hp : d.locate p with
  | error problem => rfl
  | ok l =>
    obtain rfl := locate_eq_ok hp
    exact h _ (onWay_end _ _)

/-- Parts that name nothing lead nowhere. -/
theorem follow_append_of_forall (h : d.find? base = some .directory) {parts : List Text}
    (hparts : ∀ part ∈ parts, Path.isName part = false) (names : List Text) :
    d.follow base (parts ++ names) = d.follow base names := by
  induction parts with
  | nil => rfl
  | cons part rest ih =>
    obtain ⟨hpart, hrest⟩ := List.forall_mem_cons.1 hparts
    rw [List.cons_append, follow_cons h, hpart]
    exact ih hrest

/-- Where the path of a form starts is said by its slashes. -/
theorem start_render {f : Path.Form} (h : f.IsClean) (here : Location) :
    (if Path.isAbsolute f.render then [] else here) = start here f.slashes := by
  have hslashes : Path.leadingSlashes f.render = f.slashes :=
    congrArg Path.Form.slashes (Path.Form.ofText_render h)
  rw [start, ← hslashes]
  by_cases hslash : Path.leadingSlashes f.render = 0
  · rw [if_pos hslash, if_neg (mt Path.isAbsolute_iff.1 (not_not_intro hslash))]
  · rw [if_neg hslash, if_pos (Path.isAbsolute_iff.2 hslash)]

/-- A path that has a location starts in a directory. -/
theorem start_of_locate {f : Path.Form} (h : f.IsClean) (hl : d.locate f.render = .ok l) :
    d.find? (start d.here f.slashes) = some .directory := by
  rw [locate] at hl
  split at hl
  · cases hl
  · rw [start_render h] at hl
    obtain ⟨part, rest, hparts⟩ : ∃ part rest, Path.parts f.render = part :: rest :=
      List.exists_cons_of_ne_nil (Text.cutWhere_ne_nil _ _)
    rw [hparts] at hl
    by_contra hstart
    exact follow_cons_ne_ok hstart part rest hl

/-- **The path of a form** is followed along its names. -/
theorem locate_render {f : Path.Form} (h : f.IsClean)
    (hstart : d.find? (start d.here f.slashes) = some .directory) :
    d.locate f.render = d.follow (start d.here f.slashes) f.names := by
  have hform := Path.Form.ofText_render h
  have habsolute := start_render h d.here
  by_cases hnames : f.names = []
  · obtain ⟨slashes, names⟩ := f
    obtain rfl : names = [] := hnames
    have hle : slashes ≤ 2 := h.slashes_le
    have hnonempty : Path.Form.render ⟨slashes, []⟩ ≠ [] := by
      obtain rfl | rfl | rfl : slashes = 0 ∨ slashes = 1 ∨ slashes = 2 := by omega
      all_goals decide
    have hparts : ∀ part ∈ Path.parts (Path.Form.render ⟨slashes, []⟩),
        Path.isName part = false := by
      obtain rfl | rfl | rfl : slashes = 0 ∨ slashes = 1 ∨ slashes = 2 := by omega
      all_goals decide
    rw [locate, if_neg hnonempty, habsolute, ← List.append_nil (Path.parts _),
      follow_append_of_forall hstart hparts]
  · have hrender : f.render = Path.Form.spell f := by
      rw [Path.Form.render, if_neg fun hempty => hnames hempty.2]
      rfl
    have hnonempty : f.render ≠ [] := by
      intro hnil
      rw [hnil] at hform
      exact hnames (hform ▸ rfl)
    rw [locate, if_neg hnonempty, habsolute, hrender, Path.Form.parts_spell h.areWhole hnames,
      follow_append_of_forall hstart fun part hpart => by rw [List.eq_of_mem_replicate hpart]; rfl]

/-! ## Making what is missing -/

/-- **A way is paved** in a disk that differs from another only in that all locations on the way are
directories. -/
structure Paves (d : Disk) (base : Location) (names : List Text) (e : Disk) : Prop where
  here : e.here = d.here
  onWay : ∀ l, OnWay base names l → e.find? l = some .directory
  elsewhere : ∀ l, ¬OnWay base names l → e.find? l = d.find? l

theorem Paves.of_directories (h : ∀ l, OnWay base names l → d.find? l = some .directory) :
    d.Paves base names d :=
  ⟨rfl, h, fun _ _ => rfl⟩

/-- **A directory at the end** of a paved way paves the way to it. -/
theorem Paves.concat (h : d.Paves base names e) (name : Text)
    (hend : e.find? (stepTo (names.foldl stepTo base) name) ≠ some .directory) :
    d.Paves base (names ++ [name])
      (e.put (stepTo (names.foldl stepTo base) name) .directory) := by
  refine ⟨h.here, fun l hl => ?_, fun l hl => ?_⟩
  · by_cases hlast : l = stepTo (names.foldl stepTo base) name
    · rw [hlast, find?_put_self e (find?_ne_nil hend)]
    · rw [find?_put_of_ne e hlast]
      exact h.onWay l ((onWay_concat.1 hl).resolve_right hlast)
  · rw [onWay_concat, not_or] at hl
    rw [find?_put_of_ne e hl.2]
    exact h.elsewhere l hl.1

/-- A way is paved to one more name if a directory stands there. -/
theorem Paves.concat_of_directory (h : d.Paves base names e) {name : Text}
    (hend : e.find? (stepTo (names.foldl stepTo base) name) = some .directory) :
    d.Paves base (names ++ [name]) e := by
  refine ⟨h.here, fun l hl => ?_, fun l hl => ?_⟩
  · rcases onWay_concat.1 hl with hl | rfl
    · exact h.onWay l hl
    · exact hend
  · rw [onWay_concat, not_or] at hl
    exact h.elsewhere l hl.1

/-- **Along a paved way** the path of one more name has a location. -/
theorem Paves.locate_concat {n : Nat} (h : d.Paves (start d.here n) names e)
    (hclean : Path.Form.IsClean ⟨n, names ++ [name]⟩) :
    e.locate (Path.Form.render ⟨n, names ++ [name]⟩) =
      .ok (stepTo (names.foldl stepTo (start d.here n)) name) := by
  have hstart : e.find? (start e.here n) = some .directory := by
    rw [h.here]
    exact h.onWay _ (onWay_start _ _)
  rw [locate_render hclean hstart, h.here, follow_concat h.onWay]

end Disk

end BuildLint
