import BuildLint.Analysis.Session
import BuildLint.Proofs.Disk.Ways

/-!
# Proofs/Analysis/ResultPath — where the merged report goes

The report goes to the path that the command line names, else to the one in the options, else into
the build directory.  A path that is asked for is taken from the project's root, and the directory
around it has to be there.  That is looked for up to the path's last slash, so a path without any is
refused although the directory it lies in, the current one, is there.

* `IsRequested` — the path that is asked for.
* `resultPath_of_isRequested` — what becomes of it.
* `exists_locate_of_resultPath` — directories lead to the path of a report.
* `resultPath_decides` — which path the report gets, and when it is refused.
-/

namespace BuildLint

/-- **The directory around a path** is there; around a bare name it is the current one. -/
def Disk.HasDirectoryAround (d : Disk) (p : Text) : Prop := d.isDirectory (Path.tidyParent p) = true

/-- **A bare path**: no slash, so it names something in the current directory, that directory, or
the one above. -/
def Path.IsBare (p : Text) : Prop := ('/' : CodePoint) ∉ p

namespace Session

/-- **The path that is asked for**: that of the command line, else that of the options; an empty one
is none. -/
inductive IsRequested (output : Option Text) (options : Options) : Text → Prop
  | output {p : Text} (h : output = some p) (hp : p ≠ []) : IsRequested output options p
  | options {p : Text} (h : ∀ q, output = some q → q = []) (hr : options.resultsPath = some p)
      (hp : p ≠ []) : IsRequested output options p

variable {d : Disk} {output : Option Text} {options : Options} {p buildDirectory root : Text}

theorem IsRequested.requestedPath_eq (h : IsRequested output options p) :
    requestedPath output options = p ∧ p ≠ [] := by
  rw [requestedPath]
  cases h with
  | output h hp => exact ⟨by rw [h]; exact if_neg hp, hp⟩
  | options h hr hp =>
    have hempty : output.getD [] = [] := by
      cases output with
      | none => rfl
      | some q => exact h q rfl
    exact ⟨by rw [if_pos hempty, hr]; rfl, hp⟩

theorem requestedPath_eq_nil (h : ∀ p, ¬IsRequested output options p) :
    requestedPath output options = [] := by
  have houtput : ∀ q, output = some q → q = [] := fun q hq => by
    by_contra hne
    exact h q (.output hq hne)
  have hempty : output.getD [] = [] := by
    cases output with
    | none => rfl
    | some q => exact houtput q rfl
  rw [requestedPath, if_pos hempty]
  cases hresults : options.resultsPath with
  | none => rfl
  | some q =>
    by_contra hne
    exact h q (.options houtput hresults hne)

/-- **Looking up to the last slash** finds the directory around a path, except for a bare one. -/
theorem isDirectory_parent_resolve_iff : d.isDirectory (Path.parent (Path.resolve root p)) = true ↔
    d.HasDirectoryAround (Path.resolve root p) ∧ ¬Path.IsBare (Path.resolve root p) := by
  have hclean : ∀ q, (Path.Form.ofText q).collapsed.IsClean := fun q =>
    (Path.Form.isClean_ofText q).collapsed
  rw [Path.resolve, Path.normalize, Disk.HasDirectoryAround, Path.IsBare]
  rcases Path.parent_render (hclean (if Path.isAbsolute p then p else Path.join root p)) with
    ⟨hbare, hparent⟩ | ⟨hslash, hparent⟩
  · rw [hparent]
    exact iff_of_false Bool.false_ne_true fun h => h.2 hbare
  · rw [hparent]
    exact (and_iff_left (not_not_intro hslash)).symm

/-- **A path that is asked for** is taken, or refused because of its directory. -/
theorem resultPath_of_isRequested (h : IsRequested output options p) :
    resultPath d buildDirectory options output =
      if d.isDirectory (Path.parent (Path.resolve options.projectRoot p)) then
        .ok (Path.resolve options.projectRoot p)
      else .error (.failure (.configuration .noResultDirectory)) := by
  obtain ⟨hrequested, hp⟩ := h.requestedPath_eq
  simp only [resultPath, hrequested, if_neg hp]

/-- **In a directory** every name has a location. -/
theorem exists_locate_of_isDirectory {f : Path.Form} {name : Text} (h : f.IsClean)
    (hname : Path.IsStep name) (hd : d.isDirectory f.render = true) :
    ∃ l, d.locate (Path.Form.render ⟨f.slashes, f.names ++ [name]⟩) = .ok l := by
  obtain ⟨base, hbase, hdirectory⟩ := Disk.isDirectory_iff.1 hd
  have hstart := Disk.start_of_locate h hbase
  rw [Disk.locate_render h hstart] at hbase
  rw [Disk.locate_render (h.append (List.forall_mem_singleton.2 hname)) hstart,
    Disk.follow_append hbase, Disk.follow_cons_stepTo hdirectory]
  exact ⟨_, rfl⟩

/-- A path with a directory around it has a location. -/
theorem exists_locate_of_hasDirectoryAround {f : Path.Form} (h : f.IsClean)
    (hd : d.HasDirectoryAround f.render) : ∃ l, d.locate f.render = .ok l := by
  rw [Disk.HasDirectoryAround, Path.tidyParent_render h] at hd
  obtain ⟨slashes, names⟩ := f
  rcases List.eq_nil_or_concat names with rfl | ⟨init, last, rfl⟩
  · obtain ⟨l, hl, -⟩ := Disk.isDirectory_iff.1 hd
    exact ⟨l, hl⟩
  · rw [List.concat_eq_append] at h hd ⊢
    rw [List.dropLast_concat] at hd
    exact exists_locate_of_isDirectory h.of_append
      (h.isStep last (List.mem_append_right _ List.mem_cons_self)) hd

/-- **Directories lead to the path of a report.** -/
theorem exists_locate_of_resultPath {directory result : Text}
    (hdirectory : buildDirectoryFor d directory options.projectRoot = .ok buildDirectory)
    (hresult : resultPath d buildDirectory options output = .ok result) :
    ∃ l, d.locate (Path.tidy result) = .ok l := by
  have hclean : ∀ q, (Path.Form.ofText q).collapsed.IsClean := fun q =>
    (Path.Form.isClean_ofText q).collapsed
  by_cases hnone : ∀ p, ¬IsRequested output options p
  · have hname : Path.IsStep "results.sarif" := ⟨by decide, by decide⟩
    simp only [buildDirectoryFor] at hdirectory
    split at hdirectory
    · rename_i hthere
      obtain rfl := Except.ok.inj hdirectory
      rw [resultPath, requestedPath_eq_nil hnone] at hresult
      obtain rfl := Except.ok.inj hresult
      rw [Path.resolve, Path.normalize] at hthere ⊢
      rw [← Path.below, Path.below_render (hclean _) hname]
      exact exists_locate_of_isDirectory (hclean _) hname hthere
    · cases hdirectory
  · push Not at hnone
    obtain ⟨p, hp⟩ := hnone
    rw [resultPath_of_isRequested hp] at hresult
    split at hresult
    · rename_i hparent
      obtain rfl := Except.ok.inj hresult
      have haround := (isDirectory_parent_resolve_iff.1 hparent).1
      rw [Path.resolve, Path.normalize] at haround ⊢
      rw [Path.tidy, Path.Form.ofText_render (hclean _)]
      exact exists_locate_of_hasDirectoryAround (hclean _) haround
    · cases hresult

/-- **The path of the merged report.**  If none is asked for it is `results.sarif` in the build
directory.  One that is asked for is taken from the project's root, if the directory around it is
there and it is not bare; a bare one is refused although that directory is there, and nothing else
is. -/
theorem resultPath_decides (d : Disk) (buildDirectory : Text) (options : Options)
    (output : Option Text) :
    ((∀ p, ¬IsRequested output options p) →
      resultPath d buildDirectory options output =
        .ok (Path.join buildDirectory "results.sarif")) ∧
    ∀ p, IsRequested output options p →
      (∀ result, resultPath d buildDirectory options output = .ok result ↔
        result = Path.resolve options.projectRoot p ∧ d.HasDirectoryAround result ∧
          ¬Path.IsBare result) ∧
      ∀ fault, resultPath d buildDirectory options output = .error fault ↔
        fault = .failure (.configuration .noResultDirectory) ∧
          (¬d.HasDirectoryAround (Path.resolve options.projectRoot p) ∨
            Path.IsBare (Path.resolve options.projectRoot p)) := by
  refine ⟨fun hnone => ?_, fun p h => ?_⟩
  · rw [resultPath, requestedPath_eq_nil hnone]
    rfl
  · rw [resultPath_of_isRequested h]
    by_cases hd : d.isDirectory (Path.parent (Path.resolve options.projectRoot p)) = true
    · obtain ⟨haround, hbare⟩ := isDirectory_parent_resolve_iff.1 hd
      rw [if_pos hd]
      refine ⟨fun result => ?_, fun fault => ?_⟩
      · constructor
        · rintro ⟨⟩
          exact ⟨rfl, haround, hbare⟩
        · rintro ⟨rfl, -, -⟩
          rfl
      · refine iff_of_false (fun h => nomatch h) ?_
        rintro ⟨-, h | h⟩
        · exact h haround
        · exact hbare h
    · have hrefused := mt isDirectory_parent_resolve_iff.2 hd
      rw [if_neg hd]
      refine ⟨fun result => iff_of_false (fun h => nomatch h) ?_, fun fault => ?_⟩
      · rintro ⟨rfl, haround, hbare⟩
        exact hrefused ⟨haround, hbare⟩
      · rw [not_and_or, not_not] at hrefused
        exact ⟨fun h => ⟨(Except.error.inj h).symm, hrefused⟩, fun h => congrArg _ h.1.symm⟩

/-! ### Two results in the current directory -/

/-- A disk with one directory, from which paths are taken. -/
def projectDisk : Disk := ⟨["p"], [(["p"], .directory)]⟩

/-- Under an absolute root a result may go right into the project. -/
theorem resultPath_decides_projectDisk :
    resultPath projectDisk "b" { projectRoot := "/p" } (some "out.sarif") = .ok "/p/out.sarif" := by
  obtain ⟨-, htaken⟩ := resultPath_decides projectDisk "b" { projectRoot := "/p" }
    (some "out.sarif")
  refine ((htaken "out.sarif" (.output rfl (by decide))).1 _).2 ⟨by decide, ?_, ?_⟩
  · rw [Disk.HasDirectoryAround]
    decide
  · rw [Path.IsBare]
    decide

/-- **A bare result is refused** although the directory that it would lie in is there. -/
theorem resultPath_refuses_bare :
    projectDisk.HasDirectoryAround (Path.resolve ({} : Options).projectRoot "out.sarif") ∧
      resultPath projectDisk "b" {} (some "out.sarif") =
        .error (.failure (.configuration .noResultDirectory)) := by
  constructor
  · rw [Disk.HasDirectoryAround]
    decide
  · rw [resultPath_of_isRequested (.output rfl (by decide)), if_neg (by decide)]

end Session

end BuildLint
