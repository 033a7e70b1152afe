import BuildLint.CMake.Query
import BuildLint.Console.Switches
import BuildLint.Proofs.Json.Limits
import BuildLint.Proofs.Report.ReportFile
import BuildLint.Proofs.Text.Utf8

/-!
# Proofs/Report/Unreadable — files that a reader has no failure for

A log or a reply may hold any bytes.  A reader refuses it with a failure of its own if it is
missing, cannot be opened, or is no JSON text; but bytes that are no text, and a whole number that
is too long to be read, stop the program as they are.

* `Disk.HoldsNoText`, `Disk.HoldsLongNumber` — the two kinds of such files; `Disk.Baffles`.
* `FailsOnly` — how a reader may fail.
* `readers_fail_only` — logs, merging, and replies.
-/

namespace BuildLint

namespace Text

variable {t : Text}

theorem subset_mergeCrLf (t : Text) : mergeCrLf t ⊆ t := by
  induction t with
  | nil => exact List.Subset.refl _
  | cons c t ih =>
    rw [mergeCrLf]
    split
    · exact List.subset_cons_of_subset c ih
    · exact List.cons_subset_cons c ih

theorem IsUnicode.unifyLineEnds (h : t.IsUnicode) : t.unifyLineEnds.IsUnicode := by
  intro c hc
  obtain ⟨d, hd, rfl⟩ := List.mem_map.1 hc
  split
  · rfl
  · exact h d (subset_mergeCrLf t hd)

end Text

namespace Disk

variable {d : Disk} {p s : Text}

/-- **A file holds no text**: its bytes are the encoding of no Unicode text. -/
def HoldsNoText (d : Disk) (p : Text) : Prop :=
  ∃ bytes, d.readBytes p = .ok bytes ∧ ∀ t, t.IsUnicode → Utf8.encode t ≠ bytes

/-- **A file holds a number that is too long**: its text could be JSON up to there. -/
def HoldsLongNumber (d : Disk) (p : Text) : Prop :=
  ∃ t r, t.IsUnicode ∧ d.readBytes p = .ok (Utf8.encode t) ∧
    Json.scanAll t.unifyLineEnds = .error (.tooManyDigits, r)

/-- **A file baffles its reader** with a fault that no failure stands for. -/
inductive Baffles (d : Disk) (p : Text) : Fault → Prop
  | notText (h : d.HoldsNoText p) : Baffles d p .notText
  | badNumber (h : d.HoldsLongNumber p) : Baffles d p .badNumber

theorem isThere_of_readBytes {content : Bytes} (h : d.readBytes p = .ok content) :
    d.isThere p = true := by
  rw [readBytes] at h
  rw [isThere, look?]
  cases hp : d.locate p with
  | error problem =>
    rw [hp] at h
    cases h
  | ok l =>
    rw [hp] at h
    dsimp only at h ⊢
    cases hl : d.find? l with
    | none =>
      rw [hl] at h
      cases h
    | some entry => rfl

theorem Baffles.exists_readBytes {fault : Fault} (h : d.Baffles p fault) :
    ∃ bytes, d.readBytes p = .ok bytes := by
  cases h with
  | notText h => exact h.imp fun _ h => h.1
  | badNumber h =>
    obtain ⟨t, r, -, hbytes, -⟩ := h
    exact ⟨_, hbytes⟩

/-- Where a file holds a number that is too long, such a number stands. -/
theorem HoldsLongNumber.exists_longNumber (h : d.HoldsLongNumber p) :
    ∃ t r, d.readText p = .ok t ∧ r <:+ t ∧ Json.LongNumber r := by
  obtain ⟨t, r, ht, hbytes, hscan⟩ := h
  refine ⟨t.unifyLineEnds, r, ?_, Json.longNumber_of_scanAll ht.unifyLineEnds hscan⟩
  rw [readText, hbytes]
  simp only [Utf8.decode_encode ht]

theorem readText_eq_notText : d.readText p = .error .notText ↔ d.HoldsNoText p := by
  rw [readText, HoldsNoText]
  cases hbytes : d.readBytes p with
  | error fault => simp
  | ok bytes =>
    simp only [Except.ok.injEq, exists_eq_left', ← Utf8.decode_eq_none_iff]
    cases Utf8.decode bytes <;> simp

theorem readText_eq_ok : d.readText p = .ok s ↔
    ∃ t, t.IsUnicode ∧ d.readBytes p = .ok (Utf8.encode t) ∧ t.unifyLineEnds = s := by
  rw [readText]
  cases hbytes : d.readBytes p with
  | error fault => simp
  | ok bytes =>
    simp only [Except.ok.injEq]
    constructor
    · intro h
      cases hdecode : Utf8.decode bytes with
      | none =>
        rw [hdecode] at h
        cases h
      | some t =>
        rw [hdecode] at h
        obtain ⟨ht, hencode⟩ := Utf8.decode_eq_some_iff.1 hdecode
        exact ⟨t, ht, hencode.symm, Except.ok.inj h⟩
    · rintro ⟨t, ht, rfl, rfl⟩
      rw [Utf8.decode_encode ht]

end Disk

theorem Json.read_eq_tooManyDigits {t : Text} :
    (∃ fault, Json.read t = .error fault ∧ fault.problem = .tooManyDigits) ↔
      ∃ r, Json.scanAll t = .error (.tooManyDigits, r) := by
  simp only [Json.read, Steps.mapError_eq_error]
  constructor
  · rintro ⟨_, ⟨⟨problem, r⟩, h, rfl⟩, rfl⟩
    exact ⟨r, h⟩
  · rintro ⟨r, h⟩
    exact ⟨_, ⟨_, h, rfl⟩, rfl⟩

/-! ## Readers -/

/-- **How a reader may fail**: with a failure of its own, or because it is baffled as is said. -/
structure FailsOnly {α : Type} (outcome : Except Fault α) (own : Failure → Prop)
    (baffles : Fault → Prop) : Prop where
  own : ∀ failure, outcome = .error (.failure failure) → own failure
  baffles_iff : ∀ fault, (∀ failure, fault ≠ .failure failure) →
    (outcome = .error fault ↔ baffles fault)

section

variable {α : Type} {d : Disk} {p : Text} {own : Failure → Prop} {baffles : Fault → Prop}

/-- A reader that is refused with a failure is not baffled. -/
theorem FailsOnly.of_failure {failure : Failure} (h : own failure)
    (hbaffles : ∀ fault, ¬baffles fault) :
    FailsOnly (.error (.failure failure) : Except Fault α) own baffles where
  own := fun other hother => by
    obtain rfl := Fault.failure.inj (Except.error.inj hother)
    exact h
  baffles_iff := fun fault hfault => ⟨fun hsame => absurd (Except.error.inj hsame).symm (hfault _),
    fun hb => absurd hb (hbaffles fault)⟩

/-- **The document of a file**, with the failures of one reader. -/
def readWith (d : Disk) (p : Text) (onFile : FileFault → Failure) (onJson : Json.Fault → Failure) :
    Except Fault Json :=
  match d.readText p with
  | .error (.file problem) => .error (.failure (onFile problem))
  | .error .notText => .error .notText
  | .ok t =>
    match Json.read t with
    | .ok v => .ok v
    | .error problem =>
      if problem.problem = .tooManyDigits then .error .badNumber
      else .error (.failure (onJson problem))

theorem Disk.holdsLongNumber_iff :
    d.HoldsLongNumber p ↔ ∃ s fault, d.readText p = .ok s ∧ Json.read s = .error fault ∧
      fault.problem = .tooManyDigits := by
  constructor
  · rintro ⟨t, r, ht, hbytes, hscan⟩
    obtain ⟨fault, hread, hproblem⟩ := Json.read_eq_tooManyDigits.2 ⟨r, hscan⟩
    exact ⟨_, fault, Disk.readText_eq_ok.2 ⟨t, ht, hbytes, rfl⟩, hread, hproblem⟩
  · rintro ⟨s, fault, htext, hread, hproblem⟩
    obtain ⟨t, ht, hbytes, rfl⟩ := Disk.readText_eq_ok.1 htext
    obtain ⟨r, hscan⟩ := Json.read_eq_tooManyDigits.1 ⟨fault, hread, hproblem⟩
    exact ⟨t, r, ht, hbytes, hscan⟩

/-- **A reader fails only so**: whatever it says of files and of JSON texts, it is baffled exactly
by files that baffle. -/
theorem readWith_failsOnly {onFile : FileFault → Failure} {onJson : Json.Fault → Failure}
    (hfile : ∀ f, own (onFile f)) (hjson : ∀ f, own (onJson f)) :
    FailsOnly (readWith d p onFile onJson) own (d.Baffles p) := by
  have hbaffled : ∀ fault, readWith d p onFile onJson = .error fault →
      (∃ failure, fault = .failure failure ∧ own failure) ∨ d.Baffles p fault := by
    intro fault h
    rw [readWith] at h
    split at h
    · cases h
      exact .inl ⟨_, rfl, hfile _⟩
    · cases h
      exact .inr (.notText (Disk.readText_eq_notText.1 ‹_›))
    · split at h
      · cases h
      · split at h
        · cases h
          exact .inr (.badNumber (Disk.holdsLongNumber_iff.2 ⟨_, _, ‹_›, ‹_›, ‹_›⟩))
        · cases h
          exact .inl ⟨_, rfl, hjson _⟩
  constructor
  · intro failure h
    rcases hbaffled _ h with ⟨other, hother, hown⟩ | hb
    · cases hother
      exact hown
    · cases hb
  · intro fault hfault
    constructor
    · intro h
      rcases hbaffled _ h with ⟨other, hother, -⟩ | hb
      · exact absurd hother (hfault other)
      · exact hb
    · intro hb
      cases hb with
      | notText h => rw [readWith, Disk.readText_eq_notText.2 h]
      | badNumber h =>
        obtain ⟨s, problem, htext, hread, hproblem⟩ := Disk.holdsLongNumber_iff.1 h
        simp only [readWith, htext, hread, hproblem, if_true]

end

/-! ## Logs, reports and replies -/

/-- A failure to merge. -/
def Failure.IsAggregation : Failure → Prop
  | .aggregation _ => True
  | _ => False

/-- A failure of build data. -/
def Failure.IsMetadata : Failure → Prop
  | .metadata _ => True
  | _ => False

namespace ReportFile

variable {d : Disk} {path : Text} {paths : List Text} {cause : Fault}

theorem readLog_eq (d : Disk) (path : Text) : readLog d path =
    readWith d (Path.tidy path) (fun problem => .aggregation (.unreadable (Path.tidy path) problem))
        (fun problem => .aggregation (.malformed (Path.tidy path) problem)) >>= fun log =>
      if Log.isObject log then .ok log
      else .error (fault (.fileNotObject (Path.tidy path))) := by
  rw [readLog, readWith]
  cases d.readText (Path.tidy path) with
  | error problem => cases problem <;> rfl
  | ok t =>
    dsimp only
    cases Json.read t with
    | error problem =>
      dsimp only
      split <;> rfl
    | ok log => rfl

/-- **Reading a log** fails with a failure to merge, or because the file baffles. -/
theorem readLog_failsOnly (d : Disk) (path : Text) :
    FailsOnly (readLog d path) Failure.IsAggregation (d.Baffles (Path.tidy path)) := by
  have hread : FailsOnly (readWith d (Path.tidy path)
      (fun problem => .aggregation (.unreadable (Path.tidy path) problem))
      (fun problem => .aggregation (.malformed (Path.tidy path) problem)))
      Failure.IsAggregation (d.Baffles (Path.tidy path)) :=
    readWith_failsOnly (fun _ => trivial) fun _ => trivial
  rw [readLog_eq]
  constructor
  · intro failure h
    rcases Steps.bind_eq_error.1 h with h | ⟨log, -, h⟩
    · exact hread.own failure h
    · split at h
      · cases h
      · cases h
        trivial
  · intro cause hcause
    rw [← hread.baffles_iff cause hcause, Steps.bind_eq_error]
    refine or_iff_left ?_
    rintro ⟨log, -, h⟩
    split at h
    · cases h
    · exact hcause _ (Except.error.inj h).symm

/-- A file among others baffles whoever merges them: the files before it could be merged. -/
def Baffle (d : Disk) (paths : List Text) (cause : Fault) : Prop :=
  ∃ before path after report, paths = before ++ path :: after ∧
    mergeFiles d before = .ok report ∧ d.Baffles (Path.tidy path) cause

/-- **Merging files** fails with a failure to merge, or because one of them baffles. -/
theorem mergeFiles_failsOnly (d : Disk) (paths : List Text) :
    FailsOnly (mergeFiles d paths) Failure.IsAggregation (Baffle d paths) := by
  have habsorb : ∀ r path, ∀ cause, absorbFile d r path = .error cause ↔
      readLog d path = .error cause ∨
        ∃ log problem, readLog d path = .ok log ∧ r.absorb log = .error problem ∧
          fault problem = cause := by
    intro r path cause
    simp only [absorbFile, Steps.bind_eq_error, lift, Steps.mapError_eq_error, exists_and_left]
  constructor
  · intro failure h
    obtain ⟨before, path, after, r, -, -, h⟩ := Steps.foldlM_eq_error.1 h
    rcases (habsorb r path _).1 h with h | ⟨log, problem, -, -, h⟩
    · exact (readLog_failsOnly d path).own failure h
    · cases h
      trivial
  · intro cause hcause
    have hfile : ∀ r path,
        absorbFile d r path = .error cause ↔ d.Baffles (Path.tidy path) cause := by
      intro r path
      rw [habsorb, ← (readLog_failsOnly d path).baffles_iff cause hcause]
      refine or_iff_left ?_
      rintro ⟨log, problem, -, -, h⟩
      exact hcause _ h.symm
    rw [mergeFiles, Steps.foldlM_eq_error]
    simp only [hfile]
    rfl

/-- **The program ends without a message** if it merges files one of which baffles. -/
theorem run_merge_of_baffle {libraries : Program.Libraries} {arguments : List Text} {host : Host}
    {w : World} {output : Text}
    (hcommand : libraries.commandLine w.disk arguments = some (.merge paths output))
    (hdirectory : w.disk.isDirectory
      (Disk.pathOf (Program.realPath w.disk output).dropLast) = true)
    (hbaffle : Baffle w.disk paths cause) :
    Program.run libraries arguments host w = ⟨1, [], some cause, w⟩ := by
  have hcause : ∀ failure, cause ≠ .failure failure := by
    obtain ⟨_, _, _, _, -, -, hfile⟩ := hbaffle
    cases hfile with
    | notText => exact fun _ h => nomatch h
    | badNumber => exact fun _ h => nomatch h
  have hmerge : mergeFiles w.disk paths = .error cause :=
    ((mergeFiles_failsOnly w.disk paths).baffles_iff cause hcause).2 hbaffle
  have hcombine : combineTo output paths host w = .error cause w := by
    rcases combineTo_cases output paths host w with ⟨other, hother, h⟩ | ⟨report, hreport, -⟩
    · obtain rfl := Except.error.inj (hmerge.symm.trans hother)
      exact h
    · rw [hmerge] at hreport
      cases hreport
  have hperform : (Program.Command.merge paths output).perform libraries.settings host w =
      .error cause w := by
    rw [Program.Command.perform, Program.merge, Action.bind_apply, Action.disk_apply]
    simp only [hdirectory, if_true, Action.bind_apply, hcombine]
  rw [Program.run, hcommand]
  simp only [hperform]

end ReportFile

namespace ReplyFile

/-- **Reading a reply** fails with a failure of build data, or because the file baffles. -/
theorem read_failsOnly (d : Disk) (path : Text) :
    FailsOnly (read d path) Failure.IsMetadata (d.Baffles (Path.tidy path)) := by
  cases hthere : d.isThere (Path.tidy path) with
  | false =>
    have hread : read d path = .error (.failure (.metadata (.noReplyFile (Path.tidy path)))) := by
      simp only [read, hthere, Bool.not_false, if_true]
    rw [hread]
    refine .of_failure trivial fun fault hb => ?_
    obtain ⟨bytes, hbytes⟩ := hb.exists_readBytes
    rw [Disk.isThere_of_readBytes hbytes] at hthere
    cases hthere
  | true =>
    have hread : read d path = readWith d (Path.tidy path)
        (fun problem => .metadata (.replyUnreadable (Path.tidy path) problem))
        (fun problem => .metadata (.replyMalformed (Path.tidy path) problem)) := by
      rw [read, hthere]
      exact rfl
    rw [hread]
    exact readWith_failsOnly (fun _ => trivial) fun _ => trivial

end ReplyFile

/-- **Readers and the bytes they have no failure for.**  Whatever stands at a path, reading it as a
log, merging it with others or reading it as a reply succeeds, fails with a failure of the reader's
own, or stops the program, and it stops exactly for files that hold no text or a whole number of
more digits than can be read.  Merging on the command line then ends without a message. -/
theorem readers_fail_only (libraries : Program.Libraries) (host : Host) (w : World) :
    (∀ path, FailsOnly (ReportFile.readLog w.disk path) Failure.IsAggregation
      (w.disk.Baffles (Path.tidy path))) ∧
    (∀ paths, FailsOnly (ReportFile.mergeFiles w.disk paths) Failure.IsAggregation
      (ReportFile.Baffle w.disk paths)) ∧
    (∀ path, FailsOnly (ReplyFile.read w.disk path) Failure.IsMetadata
      (w.disk.Baffles (Path.tidy path))) ∧
    (∀ p, w.disk.HoldsLongNumber p →
      ∃ t r, w.disk.readText p = .ok t ∧ r <:+ t ∧ Json.LongNumber r) ∧
    ∀ arguments paths output cause,
      libraries.commandLine w.disk arguments = some (.merge paths output) →
      w.disk.isDirectory (Disk.pathOf (Program.realPath w.disk output).dropLast) = true →
      ReportFile.Baffle w.disk paths cause →
      Program.run libraries arguments host w = ⟨1, [], some cause, w⟩ :=
  ⟨ReportFile.readLog_failsOnly w.disk, ReportFile.mergeFiles_failsOnly w.disk,
    ReplyFile.read_failsOnly w.disk, fun _ h => h.exists_longNumber,
    fun _ _ _ _ => ReportFile.run_merge_of_baffle⟩

/-! ### A file of one byte, and a file of one number -/

/-- A whole number of one digit more than can be read. -/
def longDigits : Text := CodePoint.ofChar '1' :: List.replicate Json.maxDigits '1'

/-- A disk with a file whose only byte begins no sequence, and a file with a number that is too
long. -/
def bafflingDisk : Disk := ⟨[], [(["a"], .file [0xFF]), (["b"], .file (Utf8.encode longDigits))]⟩

theorem baffles_byte : bafflingDisk.Baffles "/a" .notText :=
  .notText (Disk.readText_eq_notText.1 rfl)

theorem baffles_number : bafflingDisk.Baffles "/b" .badNumber := by
  have hdigits : ∀ c ∈ longDigits, c = CodePoint.ofChar '1' := by
    intro c hc
    rcases List.mem_cons.1 hc with rfl | hc
    · rfl
    · exact List.eq_of_mem_replicate hc
  have hplain : longDigits.IsPlain := fun c hc => by
    rw [hdigits c hc]
    decide
  refine .badNumber ⟨longDigits, longDigits, fun c hc => ?_, rfl, ?_⟩
  · rw [hdigits c hc]
    rfl
  · rw [hplain.unifyLineEnds]
    refine Json.scanAll_of_digits rfl (by decide) (fun d hd => ?_) ?_
    · rw [List.eq_of_mem_replicate hd]
      rfl
    · rw [List.length_cons, List.length_replicate]
      exact Nat.lt_succ_self _

/-- A host on which no program can be started. -/
def idleHost : Host :=
  ⟨[], "vc", fun _ => none, fun _ _ d => (.notStarted "", d), Utf8.decode, none⟩

theorem readers_fail_only_bafflingDisk :
    Program.run Program.libraries ["merge", "/a", "--output", "/o"] idleHost
        ⟨bafflingDisk, [], [], []⟩ =
      ⟨1, [], some .notText, ⟨bafflingDisk, [], [], []⟩⟩ := by
  have hdirectory : bafflingDisk.isDirectory
      (Disk.pathOf (Program.realPath bafflingDisk "/o").dropLast) = true := by decide +kernel
  obtain ⟨-, -, -, -, hrun⟩ :=
    readers_fail_only Program.libraries idleHost ⟨bafflingDisk, [], [], []⟩
  exact hrun _ ["/a"] "/o" .notText rfl hdirectory
    ⟨[], "/a", [], Report.empty, rfl, rfl, baffles_byte⟩

/-- **No reader has a failure** for a byte that begins no sequence, or for a number that is too
long. -/
theorem readers_baffled :
    ReportFile.readLog bafflingDisk "/a" = .error .notText ∧
    ReportFile.readLog bafflingDisk "/b" = .error .badNumber ∧
    ReportFile.mergeFiles bafflingDisk ["/a"] = .error .notText ∧
    ReportFile.mergeFiles bafflingDisk ["/b"] = .error .badNumber ∧
    ReplyFile.read bafflingDisk "/a" = .error .notText ∧
    ReplyFile.read bafflingDisk "/b" = .error .badNumber := by
  have htext : ∀ failure, Fault.notText ≠ .failure failure := fun _ h => nomatch h
  have hnumber : ∀ failure, Fault.badNumber ≠ .failure failure := fun _ h => nomatch h
  have hlog := ReportFile.readLog_failsOnly bafflingDisk
  have hmerge := ReportFile.mergeFiles_failsOnly bafflingDisk
  have hreply := ReplyFile.read_failsOnly bafflingDisk
  exact ⟨((hlog "/a").baffles_iff _ htext).2 baffles_byte,
    ((hlog "/b").baffles_iff _ hnumber).2 baffles_number,
    ((hmerge ["/a"]).baffles_iff _ htext).2 ⟨[], "/a", [], Report.empty, rfl, rfl, baffles_byte⟩,
    ((hmerge ["/b"]).baffles_iff _ hnumber).2
      ⟨[], "/b", [], Report.empty, rfl, rfl, baffles_number⟩,
    ((hreply "/a").baffles_iff _ htext).2 baffles_byte,
    ((hreply "/b").baffles_iff _ hnumber).2 baffles_number⟩

end BuildLint
