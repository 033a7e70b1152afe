import BuildLint.Proofs.CMake.Exclusion
import BuildLint.Proofs.Report.Unreadable
import BuildLint.Proofs.Text.Unicode

/-!
# Proofs/CMake/FirstFailure — the first reply that fails decides

The replies of the targets come from outside, and nothing is known of them.  A reply lists units, or
it fails: the value in its file is malformed, the file is missing or no JSON text, or it baffles the
reader.  The first two are failures of the build data.  The targets are gone through in order, so
the first reply that fails decides what loading fails with, and no reply behind it is looked at.

* `ReplyFails` — how a reply fails.
* `load_of_fits` — loading is going through the reply files of the analysed targets.
* `load_fails_at_first` — how loading ends, and what that depends on.
* `load_longNumberDisk` — a value that stands in a file and cannot be read.
-/

namespace BuildLint

/-- **The reply files of a configuration**, those of its analysed targets in their order. -/
def BuildConfiguration.files (root : Text) (excluded : List Text) (c : BuildConfiguration) :
    List Text := (c.analysed root excluded).map TargetReference.file

namespace CompileUnit

open BuildConfiguration ReplyFile

variable {d : Disk} {doc v : Json} {m : CodeModel} {path base root file : Text}
  {excluded files : List Text} {name : Option Text} {c : BuildConfiguration}
  {f : Json.AccessFault} {fault : Fault}

/-- **The units that the reply in a file lists**; a malformed reply is a failure that names the
file. -/
def replyUnits (d : Disk) (base root file : Text) : Except Fault (List CompileUnit) := do
  let reply ← ReplyFile.read d (Path.below base file)
  (ofTarget (.string root) reply).mapError fun fault =>
    .failure (.metadata (.targetMalformed (.string file) fault))

/-- **How the reply in a file fails**: its value is malformed, or there is none, or the file
baffles. -/
inductive ReplyFails (d : Disk) (base root file : Text) : Fault → Prop
  | malformed {v : Json} {f : Json.AccessFault}
      (hread : ReplyFile.read d (Path.below base file) = .ok v)
      (hf : ofTarget (.string root) v = .error f) :
      ReplyFails d base root file (.failure (.metadata (.targetMalformed (.string file) f)))
  | noValue {cause : MetadataCause}
      (h : ReplyFile.read d (Path.below base file) = .error (.failure (.metadata cause))) :
      ReplyFails d base root file (.failure (.metadata cause))
  | baffles {fault : Fault} (h : d.Baffles (Path.tidy (Path.below base file)) fault) :
      ReplyFails d base root file fault

/-- **The first reply that fails**: all replies before it list units. -/
def IsFirstFailing (d : Disk) (base root : Text) (files : List Text) (file : Text)
    (fault : Fault) : Prop :=
  ∃ before after, files = before ++ file :: after ∧
    (∀ b ∈ before, ∃ units, replyUnits d base root b = .ok units) ∧
    ReplyFails d base root file fault

/-- A target adds the units that its reply lists, unless it is excluded. -/
theorem ofEntry_of_describedBy {dirs : List Text} {directories : List Json}
    (hdirs : List.Forall₂ (Json.Names "source") directories dirs)
    {t : TargetReference dirs.length} (h : t.DescribedBy v) :
    ofEntry d base excluded (.string root) (.array directories) v =
      if Path.isCovered excluded (t.directoryPath root) then .ok []
      else replyUnits d base root t.file := by
  rw [ofEntry, targetEntry_eq_ok hdirs h]
  simp only [replyUnits]
  congr 1
  refine Steps.bind_congr fun reply _ => ?_
  cases ofTarget (.string root) reply <;> rfl

/-- **Loading is going through the reply files** of the configuration that fits. -/
theorem load_of_fits (hread : ReplyFile.read d path = .ok doc) (hmodel : m.DescribedBy doc)
    (hfits : Fits (name.getD []) m.configurations c) :
    load d path name excluded = ((c.files m.root excluded).mapM
      (replyUnits d (Path.tidyParent path) m.root)).map List.flatten := by
  rcases selection_cases hmodel name with
    ⟨hnil, -⟩ | ⟨hnone, -⟩ | ⟨b, directories, targets, hb, hselection, hdirs, htargets⟩
  · exact absurd (hnil ▸ hfits.mem) List.not_mem_nil
  · exact absurd hnone hfits.not_noneFits
  · obtain rfl := hfits.unique hb
    rw [load_of_selection hread hselection, files, List.mapM_map, analysed,
      ← Steps.flatten_mapM_filter,
      Steps.mapM_eq_of_forall₂ htargets fun _ _ ht => ofEntry_of_describedBy hdirs ht]
    rfl

/-- Disks with the same at a file have the same units there. -/
theorem replyUnits_congr {e : Disk} (h : SameIn (Path.below base file) d e) :
    replyUnits d base root file = replyUnits e base root file := by
  rw [replyUnits, replyUnits, h.read_eq]

/-- Reading a reply fails with a failure of the build data, or because the file baffles. -/
theorem read_eq_error_iff : ReplyFile.read d path = .error fault ↔
    (∃ cause, fault = .failure (.metadata cause) ∧ ReplyFile.read d path = .error fault) ∨
      d.Baffles (Path.tidy path) fault := by
  have hfails := ReplyFile.read_failsOnly d path
  cases fault with
  | failure failure =>
    constructor
    · intro h
      have hown := hfails.own failure h
      cases failure with
      | metadata cause => exact .inl ⟨cause, rfl, h⟩
      | _ => exact absurd hown id
    · rintro (⟨_, -, h⟩ | h)
      · exact h
      · cases h
  | _ =>
    rw [hfails.baffles_iff _ (by simp)]
    refine ⟨.inr, ?_⟩
    rintro (⟨_, ⟨⟩, -⟩ | h)
    exact h

theorem replyUnits_eq_error_iff :
    replyUnits d base root file = .error fault ↔ ReplyFails d base root file fault := by
  rw [replyUnits, Steps.bind_eq_error, read_eq_error_iff]
  simp only [Steps.mapError_eq_error]
  constructor
  · rintro ((⟨cause, rfl, h⟩ | h) | ⟨v, hv, f, hf, rfl⟩)
    · exact .noValue h
    · exact .baffles h
    · exact .malformed hv hf
  · intro h
    cases h with
    | malformed hv hf => exact .inr ⟨_, hv, _, hf, rfl⟩
    | noValue h => exact .inl (.inl ⟨_, rfl, h⟩)
    | baffles h => exact .inl (.inr h)

/-- **Going through reply files** fails as the first reply does that fails. -/
theorem mapM_replyUnits_eq_error_iff : files.mapM (replyUnits d base root) = .error fault ↔
    ∃ file, IsFirstFailing d base root files file fault := by
  rw [Steps.mapM_eq_error, Steps.first_iff_exists_append]
  simp only [replyUnits_eq_error_iff, IsFirstFailing]
  constructor
  · rintro ⟨before, file, after, h⟩
    exact ⟨file, before, after, h⟩
  · rintro ⟨file, before, after, h⟩
    exact ⟨before, file, after, h⟩

/-- **Loading fails** as the first reply does that fails. -/
theorem load_eq_error_iff (hread : ReplyFile.read d path = .ok doc) (hmodel : m.DescribedBy doc)
    (hfits : Fits (name.getD []) m.configurations c) :
    load d path name excluded = .error fault ↔ ∃ file,
      IsFirstFailing d (Path.tidyParent path) m.root (c.files m.root excluded) file fault := by
  rw [load_of_fits hread hmodel hfits, ← mapM_replyUnits_eq_error_iff]
  exact Steps.map_eq_error

/-- **The first reply that fails decides.**  A code model is given, and whatever stands at the
replies of the analysed targets.  If none of their files baffles, loading gives units or a failure
of the build data, unless no configuration fits the name, so that there are no targets.  It fails
exactly as the first reply does that fails in the order of the targets.  Whatever stands at the
files behind one that fails, be it nothing, loading ends the same. -/
theorem load_fails_at_first (hread : ReplyFile.read d path = .ok doc)
    (hmodel : m.DescribedBy doc) (name : Option Text) (excluded : List Text) :
    ((∀ c, Fits (name.getD []) m.configurations c → ∀ file ∈ c.files m.root excluded, ∀ fault,
        ¬d.Baffles (Path.tidy (Path.below (Path.tidyParent path) file)) fault) →
      (∃ units, load d path name excluded = .ok units) ∨
      (∃ cause, load d path name excluded = .error (.failure (.metadata cause))) ∨
      NoneFits (name.getD []) m.configurations ∧
        ∃ cause, load d path name excluded = .error (.failure (.configuration cause))) ∧
    ∀ c, Fits (name.getD []) m.configurations c →
      (∀ fault, load d path name excluded = .error fault ↔ ∃ file,
        IsFirstFailing d (Path.tidyParent path) m.root (c.files m.root excluded) file fault) ∧
      ∀ before file after fault, c.files m.root excluded = before ++ file :: after →
        ReplyFails d (Path.tidyParent path) m.root file fault →
        ∀ e, SameIn path d e →
          (∀ b ∈ before ++ [file], SameIn (Path.below (Path.tidyParent path) b) d e) →
          load e path name excluded = load d path name excluded := by
  refine ⟨fun hbaffles => ?_, fun c hfits =>
    ⟨fun fault => load_eq_error_iff hread hmodel hfits, ?_⟩⟩
  · rcases selection_cases hmodel name with
      ⟨-, hselection⟩ | ⟨hnone, cause, hselection⟩ | ⟨c, -, -, hfits, -⟩
    · exact .inr (.inl ⟨_, load_of_selection_eq_error hread hselection excluded⟩)
    · exact .inr (.inr ⟨hnone, cause, load_of_selection_eq_error hread hselection excluded⟩)
    · cases hload : load d path name excluded with
      | ok units => exact .inl ⟨units, rfl⟩
      | error fault =>
        obtain ⟨file, before, after, hfiles, -, hfile⟩ :=
          (load_eq_error_iff hread hmodel hfits).1 hload
        cases hfile with
        | malformed => exact .inr (.inl ⟨_, rfl⟩)
        | noValue => exact .inr (.inl ⟨_, rfl⟩)
        | baffles h => exact absurd h (hbaffles c hfits file (by simp [hfiles]) fault)
  · intro before file after fault hfiles hfile e hmodelSame hsame
    rw [load_of_fits hread hmodel hfits, load_of_fits (hmodelSame.read_eq ▸ hread) hmodel hfits,
      hfiles, Steps.mapM_congr_of_error (replyUnits_eq_error_iff.2 hfile)
        fun b hb => replyUnits_congr (hsame b hb)]

/-! ### A build whose first reply is malformed -/

/-- The disk of two replies, the first of which is no object. -/
def malformedDisk : Disk := fullDisk.put ["r", "a"] (.file (Utf8.encode (Json.array []).write))

/-- The same without the second reply. -/
def malformedTwoDisk : Disk := twoDisk.put ["r", "a"] (.file (Utf8.encode (Json.array []).write))

theorem fits_release :
    Fits ((some ("Release" : Text)).getD []) twoModel.configurations release :=
  have hfits : Fits "Release" ([⟨"Debug", [], []⟩] ++ release :: []) release :=
    .first (by decide) (by decide) rfl (by decide)
  hfits

theorem load_fails_at_first_malformedDisk :
    load malformedDisk ("/r/c" : Text) (some "Release") [] =
      .error (.failure (.metadata (.targetMalformed (.string "a") .notAnObject))) ∧
    load malformedTwoDisk ("/r/c" : Text) (some "Release") [] =
      load malformedDisk ("/r/c" : Text) (some "Release") [] := by
  have hread : ReplyFile.read malformedDisk "/r/c" = .ok twoDocument := read_twoDocument rfl
  have hreply : ReplyFile.read malformedDisk (Path.below (Path.tidyParent "/r/c") "a") =
      .ok (.array []) := read_of_look? (by simp) (by simp) rfl
  have hfiles : release.files "/s" [] = [] ++ ("a" : Text) :: ["b"] := rfl
  obtain ⟨hfails, hsame⟩ := (load_fails_at_first hread describedBy_twoDocument (some "Release")
    []).2 release fits_release
  exact ⟨(hfails _).2 ⟨"a", [], ["b"], hfiles, by simp, .malformed hreply rfl⟩,
    hsame [] "a" ["b"] _ hfiles (.malformed hreply rfl) malformedTwoDisk rfl
      (List.forall_mem_singleton.2 rfl)⟩

/-! ### A reply that is a long number -/

/-- A number with a power of ten below it has that many digits, and one more. -/
theorem exists_ofNat_eq_cons {n k : Nat} (hn : Nat.pow 10 k ≤ n) :
    ∃ c digits, Decimal.ofNat n = c :: digits ∧ c ≠ '0' ∧ k < (c :: digits).length := by
  obtain ⟨c, digits, hcons⟩ := List.exists_cons_of_ne_nil (Decimal.ofNat_ne_nil n)
  have hpositive : 0 < n := Nat.lt_of_lt_of_le (Nat.pow_pos (by decide)) hn
  have hlead := Decimal.head?_ofNat_ne_zero hpositive
  have hvalue := Decimal.value_lt fun c => @Decimal.isDigit_of_mem_ofNat n c
  rw [Decimal.value_ofNat] at hvalue
  have hlong : k < (Decimal.ofNat n).length :=
    (Nat.pow_lt_pow_iff_right (by decide)).1 (Nat.lt_of_le_of_lt hn hvalue)
  rw [hcons] at hlead hlong
  exact ⟨c, digits, hcons, fun h => hlead (congrArg some h), hlong⟩

/-- **A whole number that is too long**, written in a file, baffles the reader. -/
theorem baffles_write_int {n : Nat} (hn : Nat.pow 10 Json.maxDigits ≤ n)
    (h : d.readBytes path = .ok (Utf8.encode (Json.int n).write)) : d.Baffles path .badNumber := by
  have hplain : Text.IsPlain (Json.int n).write := Json.isPlain_ofInt n
  refine .badNumber ⟨_, (Json.int n).write, hplain.isUnicode, h, ?_⟩
  rw [hplain.unifyLineEnds]
  obtain ⟨c, digits, hcons, hlead, hlong⟩ := exists_ofNat_eq_cons hn
  have hwrite : (Json.int n).write = c :: digits := hcons
  have hdigits : ∀ d ∈ c :: digits, d.isDigit = true := fun d hd =>
    Decimal.isDigit_of_mem_ofNat (hcons ▸ hd)
  obtain ⟨hc, hdigits⟩ := List.forall_mem_cons.1 hdigits
  rw [hwrite]
  exact Json.scanAll_of_digits hc hlead hdigits hlong

/-- The least whole number that is too long. -/
def longNumber : Json := .int (Nat.pow 10 Json.maxDigits)

/-- The disk of a target whose reply is this number. -/
def longNumberDisk : Disk := twoDisk.put ["r", "a"] (.file (Utf8.encode longNumber.write))

/-- **A reply that cannot be read** is no failure of the build data, though it is a value. -/
theorem load_longNumberDisk :
    ReplyFile.read longNumberDisk "/r/c" = .ok twoDocument ∧
    longNumberDisk.readBytes "/r/a" = .ok (Utf8.encode longNumber.write) ∧
    load longNumberDisk ("/r/c" : Text) (some "Release") ["/s/z"] = .error .badNumber := by
  have hread : ReplyFile.read longNumberDisk "/r/c" = .ok twoDocument := read_twoDocument rfl
  have hbytes : longNumberDisk.readBytes "/r/a" = .ok (Utf8.encode longNumber.write) :=
    Disk.readBytes_of_look? rfl
  have hnumber : longNumberDisk.Baffles "/r/a" .badNumber :=
    baffles_write_int (Nat.le_refl _) hbytes
  exact ⟨hread, hbytes, (load_eq_error_iff hread describedBy_twoDocument fits_release).2
    ⟨"a", [], [], rfl, by simp, .baffles hnumber⟩⟩

end CompileUnit

end BuildLint
