import BuildLint.Proofs.Action.Files
import BuildLint.Proofs.Steps
import BuildLint.Report.ReportFile

/-!
# Proofs/Report/ReportFile — merging files into another

Files are read in turn while their report grows, but it is the report of all their logs that comes
out (`mergeFiles_eq_ok_iff`).  Merging changes nothing on the disk until the report is complete;
then it writes one file (`combineTo_cases`), so the files are merged as a whole or nothing happens
(`combineTo_writes_whole_or_nothing`).
-/

namespace BuildLint

namespace ReportFile

/-- Reading files while a report grows is reading them first. -/
theorem foldlM_absorbFile_eq_ok_iff {d : Disk} {paths : List Text} {r report : Report} :
    paths.foldlM (absorbFile d) r = .ok report ↔
      ∃ logs, paths.mapM (readLog d) = .ok logs ∧ logs.foldlM Report.absorb r = .ok report := by
  induction paths generalizing r with
  | nil =>
    rw [List.foldlM_nil]
    constructor
    · intro h
      obtain rfl := Except.ok.inj h
      exact ⟨[], rfl, rfl⟩
    · rintro ⟨logs, hlogs, h⟩
      obtain rfl := List.forall₂_nil_left_iff.1 (Steps.mapM_eq_ok.1 hlogs)
      obtain rfl := Except.ok.inj h
      rfl
  | cons path rest ih =>
    have hfile : ∀ s, absorbFile d r path = .ok s ↔
        ∃ log, readLog d path = .ok log ∧ r.absorb log = .ok s := fun s => by
      simp only [absorbFile, Steps.bind_eq_ok, lift, Steps.ok_of_mapError]
    simp only [Steps.mapM_eq_ok] at ih ⊢
    rw [List.foldlM_cons, Steps.bind_eq_ok]
    constructor
    · rintro ⟨s, hs, hrest⟩
      obtain ⟨log, hlog, habsorb⟩ := (hfile s).1 hs
      obtain ⟨logs, hlogs, hfold⟩ := ih.1 hrest
      refine ⟨log :: logs, .cons hlog hlogs, ?_⟩
      rw [List.foldlM_cons, Steps.bind_eq_ok]
      exact ⟨s, habsorb, hfold⟩
    · rintro ⟨_, hlogs, hfold⟩
      obtain ⟨log, logs, hlog, hrest, rfl⟩ := List.forall₂_cons_left_iff.1 hlogs
      rw [List.foldlM_cons, Steps.bind_eq_ok] at hfold
      obtain ⟨s, habsorb, hfold⟩ := hfold
      exact ⟨s, (hfile s).2 ⟨log, hlog, habsorb⟩, ih.2 ⟨logs, hrest, hfold⟩⟩

/-- **The report of some files** is the report of the logs in them. -/
theorem mergeFiles_eq_ok_iff {d : Disk} {paths : List Text} {report : Report} :
    mergeFiles d paths = .ok report ↔
      ∃ logs, paths.mapM (readLog d) = .ok logs ∧ Report.merge logs = .ok report :=
  foldlM_absorbFile_eq_ok_iff

/-- **An empty file holds no log.** -/
theorem readLog_of_empty {d : Disk} {path : Text} (hpath : Path.tidy path = path)
    (h : d.look? path = some (.file [])) (log : Json) : readLog d path ≠ .ok log := by
  have htext : d.readText path = .ok [] := by
    rw [Disk.readText, Disk.readBytes_of_look? h]
    rfl
  rw [readLog, hpath, htext]
  intro hread
  cases hread

/-- **Merging files into another** fails because they cannot be merged or the other cannot be
written, or it writes their report. -/
theorem combineTo_cases (output : Text) (paths : List Text) (host : Host) (w : World) :
    (∃ fault, mergeFiles w.disk paths = .error fault ∧
      combineTo output paths host w = .error fault w) ∨
    ∃ report, mergeFiles w.disk paths = .ok report ∧
      ((∃ problem, w.disk.write (Path.tidy output) (Utf8.encode report.toJson.write) =
          .error problem ∧
        combineTo output paths host w = .error (fault (.unwritable problem)) w) ∨
      ∃ d, w.disk.write (Path.tidy output) (Utf8.encode report.toJson.write) = .ok d ∧
        combineTo output paths host w = .ok report { w with disk := d }) := by
  simp only [combineTo, Action.bind_apply, Action.consult_apply, combine]
  cases mergeFiles w.disk paths with
  | error fault => exact .inl ⟨fault, rfl, rfl⟩
  | ok report =>
    refine .inr ⟨report, rfl, ?_⟩
    simp only [write, Bind.bind, Except.bind]
    cases w.disk.write (Path.tidy output) (Utf8.encode report.toJson.write) with
    | error problem => exact .inl ⟨problem, rfl, rfl⟩
    | ok d => exact .inr ⟨d, rfl, rfl⟩

/-- **What merging files into another gives**: their report, and a disk with that report written. -/
theorem combineTo_eq_ok_iff {output : Text} {paths : List Text} {host : Host} {w v : World}
    {report : Report} : combineTo output paths host w = .ok report v ↔
      mergeFiles w.disk paths = .ok report ∧
      ∃ d, w.disk.write (Path.tidy output) (Utf8.encode report.toJson.write) = .ok d ∧
        v = { w with disk := d } := by
  rcases combineTo_cases output paths host w with
    ⟨cause, hmerge, hrun⟩ | ⟨other, hmerge, ⟨problem, hwrite, hrun⟩ | ⟨d, hwrite, hrun⟩⟩
  · rw [hrun, hmerge]
    exact iff_of_false (fun h => nomatch h) fun h => nomatch h.1
  · rw [hrun, hmerge]
    refine iff_of_false (fun h => nomatch h) ?_
    rintro ⟨hother, d, hd, -⟩
    obtain rfl := Except.ok.inj hother
    rw [hwrite] at hd
    cases hd
  · rw [hrun, hmerge]
    constructor
    · intro h
      cases h
      exact ⟨rfl, d, hwrite, rfl⟩
    · rintro ⟨hother, e, he, rfl⟩
      obtain rfl := Except.ok.inj hother
      rw [hwrite] at he
      obtain rfl := Except.ok.inj he
      rfl

/-- Merging that fails changes nothing in the world. -/
theorem eq_of_combineTo_eq_error {output : Text} {paths : List Text} {host : Host} {w v : World}
    {cause : Fault} (h : combineTo output paths host w = .error cause v) : v = w := by
  rcases combineTo_cases output paths host w with
    ⟨_, -, hrun⟩ | ⟨_, -, ⟨_, -, hrun⟩ | ⟨_, -, hrun⟩⟩
  all_goals
    rw [hrun] at h
    cases h
  · rfl
  · rfl

/-- **Files are merged into another as a whole, or nothing happens.**  If merging fails, for
whatever reason, the world is as it was; if it gives a report, that is the report of the files as
they were, and only the other file differs, even if it is one of the files.  It gives one exactly if
every file holds a log, the logs can be merged and the other file can be written. -/
theorem combineTo_writes_whole_or_nothing (output : Text) (paths : List Text) (host : Host)
    (w : World) :
    (∀ cause v, combineTo output paths host w = .error cause v → v = w) ∧
    (∀ report v, combineTo output paths host w = .ok report v →
      (∃ logs, paths.mapM (readLog w.disk) = .ok logs ∧ Report.merge logs = .ok report) ∧
      w.disk.Rewrites (Path.tidy output) (Utf8.encode report.toJson.write) v.disk ∧
      v = { w with disk := v.disk }) ∧
    ((∃ report v, combineTo output paths host w = .ok report v) ↔
      (∃ logs report, paths.mapM (readLog w.disk) = .ok logs ∧ Report.merge logs = .ok report) ∧
        w.disk.CanWrite (Path.tidy output)) := by
  refine ⟨fun cause v h => eq_of_combineTo_eq_error h, ?_, ?_⟩
  · intro report v h
    obtain ⟨hmerge, d, hwrite, rfl⟩ := combineTo_eq_ok_iff.1 h
    exact ⟨mergeFiles_eq_ok_iff.1 hmerge, Disk.rewrites_of_write hwrite, rfl⟩
  · constructor
    · rintro ⟨report, v, h⟩
      obtain ⟨hmerge, d, hwrite, -⟩ := combineTo_eq_ok_iff.1 h
      obtain ⟨logs, hlogs⟩ := mergeFiles_eq_ok_iff.1 hmerge
      exact ⟨⟨logs, report, hlogs⟩, Disk.exists_write_eq_ok_iff.1 ⟨d, hwrite⟩⟩
    · rintro ⟨⟨logs, report, hlogs⟩, hopen⟩
      obtain ⟨d, hwrite⟩ := Disk.exists_write_eq_ok_iff.2 hopen
      have hmerge := mergeFiles_eq_ok_iff.2 ⟨logs, hlogs⟩
      exact ⟨report, _, combineTo_eq_ok_iff.2 ⟨hmerge, d, hwrite, rfl⟩⟩

/-- A file is written, or something is said or started. -/
theorem combineTo_does (output : Text) (paths : List Text) :
    (combineTo output paths).Does fun e => e.KeepsLogs ∧ e.MakesNoDirectory := by
  intro host w
  rcases combineTo_cases output paths host w with
    ⟨fault, -, hrun⟩ | ⟨report, -, ⟨problem, -, hrun⟩ | ⟨d, hwrite, hrun⟩⟩
  · exact .of_after_eq (Action.after_of_eq_error hrun)
  · exact .of_after_eq (Action.after_of_eq_error hrun)
  · let e : Event := .write (Path.tidy output) (Utf8.encode report.toJson.write)
    have he : e.KeepsLogs ∧ e.MakesNoDirectory := ⟨trivial, trivial⟩
    have hperform : Event.perform host w e = some ((combineTo output paths).after host w) := by
      rw [Action.after_of_eq_ok hrun]
      exact Event.perform_write.2 ⟨d, hwrite, rfl⟩
    exact .of_perform he hperform

end ReportFile

end BuildLint
