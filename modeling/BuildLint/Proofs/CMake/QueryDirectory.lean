import BuildLint.Proofs.CMake.Request
import BuildLint.Proofs.Disk.Ways

/-!
# Proofs/CMake/QueryDirectory — making room for the query

Before the query is written its directory is made, and whatever is missing above it.  That works out
if no file stands on the way there, and then nothing else on the disk is touched.

* `Query.form` — the names that lead to the query's directory; `directory_eq`, `file_eq`.
* `exists_paves_of_makeAll`, `isOpen_of_makeAll` — an open way is paved, and no other.
* `HasRoom` — the query can be written; `Renews` — it has been, and nothing else has changed.
* `exists_renews_of_hasRoom`, `hasRoom_of_renew` — where the query is written anew.
-/

namespace BuildLint

namespace Query

variable {d e : Disk} {p api name : Text} {names : List Text} {n : Nat}

/-! ## The query's directory -/

/-- **The form of the query's directory.** -/
def form (api : Text) : Path.Form :=
  ⟨(Path.Form.ofText api).slashes, (Path.Form.ofText api).names ++ [("query" : Text), clientName]⟩

theorem isStep_query : Path.IsStep "query" := ⟨by decide, by decide⟩

theorem isStep_clientName : Path.IsStep clientName := ⟨by decide, by decide⟩

theorem isStep_fileName : Path.IsStep fileName := ⟨by decide, by decide⟩

theorem isClean_form (api : Text) : (form api).IsClean :=
  (Path.Form.isClean_ofText api).append
    (List.forall_mem_cons.2 ⟨isStep_query, List.forall_mem_singleton.2 isStep_clientName⟩)

theorem directory_eq (api : Text) : directory api = (form api).render := by
  have hapi := Path.Form.isClean_ofText api
  rw [directory, Path.tidy, Path.below_render hapi isStep_query,
    Path.below_render (hapi.append (List.forall_mem_singleton.2 isStep_query)) isStep_clientName]
  rw [form, List.append_assoc]
  rfl

theorem ofText_directory (api : Text) : Path.Form.ofText (directory api) = form api := by
  rw [directory_eq, Path.Form.ofText_render (isClean_form api)]

theorem file_eq (api : Text) :
    file api = Path.Form.render ⟨(form api).slashes, (form api).names ++ [fileName]⟩ := by
  rw [file, directory_eq, Path.below_render (isClean_form api) isStep_fileName]

/-! ## Making directories -/

theorem makeOne_apply (p : Text) (d : Disk) : makeOne p d =
    match d.makeDirectory p with
    | .ok e => .ok ⟨⟩ e
    | .error fault => if d.isDirectory p then .ok ⟨⟩ d else .error fault d := by
  change (match d.makeDirectory p with
    | .ok e => _
    | .error fault => _ : EStateM FileFault Disk Unit) d = _
  cases d.makeDirectory p with
  | ok e => rfl
  | error fault =>
    dsimp only
    split <;> rfl

theorem makeOne_of_makeDirectory (h : d.makeDirectory p = .ok e) : makeOne p d = .ok ⟨⟩ e := by
  rw [makeOne_apply, h]

theorem makeOne_of_isDirectory (h : d.isDirectory p = true) : makeOne p d = .ok ⟨⟩ d := by
  rw [makeOne_apply]
  cases hmake : d.makeDirectory p with
  | ok e =>
    obtain ⟨l, hl, hnone, -⟩ := Disk.makeDirectory_eq_ok_iff.1 hmake
    rw [Disk.isDirectory, Disk.look?_of_locate hl, hnone] at h
    cases h
  | error fault => exact if_pos h

/-- **A way with one more name** is made in one step, or its last step is made again after the steps
before it. -/
theorem makeAll_concat (n : Nat) (names : List Text) (name : Text) (d : Disk) :
    makeAll n (names ++ [name]).reverse d =
      match d.makeDirectory (Path.Form.render ⟨n, names ++ [name]⟩) with
      | .ok e => .ok ⟨⟩ e
      | .error fault =>
        if fault.problem = .notFound then
          (makeAll n names.reverse >>= fun _ =>
            makeOne (Path.Form.render ⟨n, names ++ [name]⟩)) d
        else if d.isDirectory (Path.Form.render ⟨n, names ++ [name]⟩) then .ok ⟨⟩ d
        else .error fault d := by
  rw [List.reverse_concat, makeAll, List.reverse_cons, List.reverse_reverse]
  change (match d.makeDirectory (Path.Form.render ⟨n, names ++ [name]⟩) with
    | .ok e => _
    | .error fault => _ : EStateM FileFault Disk Unit) d = _
  cases d.makeDirectory (Path.Form.render ⟨n, names ++ [name]⟩) with
  | ok e => rfl
  | error fault =>
    dsimp only
    split
    · rfl
    · split <;> rfl

/-- What has a location is made in one step. -/
theorem makeAll_concat_of_locate {l : Location}
    (h : d.locate (Path.Form.render ⟨n, names ++ [name]⟩) = .ok l) :
    makeAll n (names ++ [name]).reverse d = makeOne (Path.Form.render ⟨n, names ++ [name]⟩) d := by
  rw [makeAll_concat, makeOne_apply]
  cases hmake : d.makeDirectory (Path.Form.render ⟨n, names ++ [name]⟩) with
  | ok e => rfl
  | error fault =>
    refine if_neg fun hproblem => ?_
    rw [Disk.makeDirectory, h] at hmake
    dsimp only at hmake
    split at hmake
    · obtain rfl := Except.error.inj hmake
      cases hproblem
    · cases hmake

/-- **One more step** on a paved way. -/
theorem exists_paves_of_makeOne {base : Location} (h : d.Paves base names e)
    (hlocate : e.locate p = .ok (Disk.stepTo (names.foldl Disk.stepTo base) name))
    (hopen : d.IsOpen base (names ++ [name])) :
    ∃ v, makeOne p e = .ok ⟨⟩ v ∧ d.Paves base (names ++ [name]) v := by
  by_cases hend : e.find? (Disk.stepTo (names.foldl Disk.stepTo base) name) = some .directory
  · refine ⟨e, makeOne_of_isDirectory ?_, h.concat_of_directory hend⟩
    rw [Disk.isDirectory, Disk.look?_of_locate hlocate, hend]
    rfl
  · have hnone : e.find? (Disk.stepTo (names.foldl Disk.stepTo base) name) = none := by
      have hoff : ¬Disk.OnWay base names (Disk.stepTo (names.foldl Disk.stepTo base) name) :=
        fun hon => hend (h.onWay _ hon)
      rw [h.elsewhere _ hoff] at hend ⊢
      exact (hopen.find?_eq (Disk.onWay_concat.2 (.inr rfl))).resolve_left hend
    exact ⟨_, makeOne_of_makeDirectory (Disk.makeDirectory_eq_ok_iff.2 ⟨_, hlocate, hnone, rfl⟩),
      h.concat name hend⟩

/-- **An open way is paved** by making the directory at its end. -/
theorem exists_paves_of_makeAll (hclean : Path.Form.IsClean ⟨n, names⟩)
    (hstart : d.find? (Disk.start d.here n) = some .directory)
    (hopen : d.IsOpen (Disk.start d.here n) names) :
    ∃ e, makeAll n names.reverse d = .ok ⟨⟩ e ∧ d.Paves (Disk.start d.here n) names e := by
  induction names using List.reverseRecOn with
  | nil =>
    refine ⟨d, makeOne_of_isDirectory ?_, .of_directories fun l hl => ?_⟩
    · rw [Disk.isDirectory, Disk.look?_of_locate (Disk.locate_render hclean hstart), hstart]
      rfl
    · rw [Disk.onWay_nil.1 hl, hstart]
  | append_singleton names name ih =>
    have hlocate := Disk.locate_render hclean hstart
    by_cases hway : ∀ l, Disk.OnWay (Disk.start d.here n) names l → d.find? l = some .directory
    · rw [Disk.follow_concat hway] at hlocate
      rw [makeAll_concat_of_locate hlocate]
      exact exists_paves_of_makeOne (.of_directories hway) hlocate hopen
    · -- the first attempt finds a gap, the second one finds it filled
      push Not at hway
      obtain ⟨l, hl, hgap⟩ := hway
      have hmake : d.makeDirectory (Path.Form.render ⟨n, names ++ [name]⟩) =
          .error ⟨.notFound, Path.Form.render ⟨n, names ++ [name]⟩⟩ := by
        rw [Disk.makeDirectory, hlocate]
        simp only [Disk.follow_concat_of_gap hopen.of_concat hl hgap]
      obtain ⟨e, hrun, hpaves⟩ := ih hclean.of_append hopen.of_concat
      rw [makeAll_concat, hmake]
      dsimp only
      rw [if_pos rfl, run_bind, hrun]
      exact exists_paves_of_makeOne hpaves (hpaves.locate_concat hclean) hopen

theorem exists_locate_of_makeOne (h : makeOne p d = .ok ⟨⟩ e) :
    ∃ l, d.locate p = .ok l ∧ ∀ content, d.find? l ≠ some (.file content) := by
  rw [makeOne_apply] at h
  cases hmake : d.makeDirectory p with
  | ok u =>
    obtain ⟨l, hl, hnone, -⟩ := Disk.makeDirectory_eq_ok_iff.1 hmake
    exact ⟨l, hl, fun content hfile => nomatch hnone.symm.trans hfile⟩
  | error fault =>
    rw [hmake] at h
    dsimp only at h
    split at h
    · obtain ⟨l, hl, hdirectory⟩ := Disk.isDirectory_iff.1 ‹_›
      exact ⟨l, hl, fun content hfile => nomatch hdirectory.symm.trans hfile⟩
    · cases h

/-- **A way with one more name** has been made in one step, or after the names before it. -/
theorem cases_of_makeAll_concat (h : makeAll n (names ++ [name]).reverse d = .ok ⟨⟩ e) :
    makeOne (Path.Form.render ⟨n, names ++ [name]⟩) d = .ok ⟨⟩ e ∨
      ∃ u, makeAll n names.reverse d = .ok ⟨⟩ u ∧
        makeOne (Path.Form.render ⟨n, names ++ [name]⟩) u = .ok ⟨⟩ e := by
  rw [makeAll_concat] at h
  cases hmake : d.makeDirectory (Path.Form.render ⟨n, names ++ [name]⟩) with
  | ok u =>
    rw [hmake] at h
    exact .inl ((makeOne_of_makeDirectory hmake).trans h)
  | error fault =>
    rw [hmake] at h
    dsimp only at h
    split_ifs at h with hproblem hdirectory
    · rw [run_bind] at h
      cases hrun : makeAll n names.reverse d with
      | error other u =>
        rw [hrun] at h
        cases h
      | ok done u =>
        rw [hrun] at h
        exact .inr ⟨u, rfl, h⟩
    · exact .inl ((makeOne_of_isDirectory hdirectory).trans h)

/-- **Only an open way is paved.** -/
theorem isOpen_of_makeAll (hclean : Path.Form.IsClean ⟨n, names⟩)
    (h : makeAll n names.reverse d = .ok ⟨⟩ e) :
    d.find? (Disk.start d.here n) = some .directory ∧ d.IsOpen (Disk.start d.here n) names := by
  induction names using List.reverseRecOn generalizing e with
  | nil =>
    obtain ⟨l, hl, -⟩ := exists_locate_of_makeOne h
    have hstart := Disk.start_of_locate hclean hl
    refine ⟨hstart, fun k content hk => ?_⟩
    rw [Disk.onWay_nil.1 hk, hstart]
    exact fun h => nomatch h
  | append_singleton names name ih =>
    rcases cases_of_makeAll_concat h with h | ⟨u, hrun, h⟩
    · -- whoever gets there has come along directories
      obtain ⟨l, hl, hfree⟩ := exists_locate_of_makeOne h
      have hstart := Disk.start_of_locate hclean hl
      rw [Disk.locate_render hclean hstart] at hl
      have hway := Disk.onWay_of_follow_concat hl
      rw [Disk.follow_concat hway] at hl
      obtain rfl := Except.ok.inj hl
      refine ⟨hstart, fun k content hk hfile => ?_⟩
      rcases Disk.onWay_concat.1 hk with hk | rfl
      · cases (hway k hk).symm.trans hfile
      · exact hfree content hfile
    · obtain ⟨hstart, hopen⟩ := ih hclean.of_append hrun
      obtain ⟨v, hrun', hpaves⟩ := exists_paves_of_makeAll hclean.of_append hstart hopen
      cases hrun.symm.trans hrun'
      obtain ⟨l, hl, hfree⟩ := exists_locate_of_makeOne h
      rw [hpaves.locate_concat hclean] at hl
      obtain rfl := Except.ok.inj hl
      refine ⟨hstart, fun k content hk hfile => ?_⟩
      by_cases hon : Disk.OnWay (Disk.start d.here n) names k
      · exact hopen k content hon hfile
      · obtain rfl := (Disk.onWay_concat.1 hk).resolve_left hon
        exact hfree content ((hpaves.elsewhere _ hon).trans hfile)

/-! ## Writing the query anew -/

/-- **A location on the way** to the directory of the query. -/
def IsAbove (d : Disk) (api : Text) (l : Location) : Prop :=
  Disk.OnWay (Disk.start d.here (form api).slashes) (form api).names l

/-- **There is room for the query**: its way starts in a directory, no file stands on it, the query
is no directory, and its place is not on the way as well, as it could be through dots. -/
structure HasRoom (d : Disk) (api : Text) : Prop where
  start : d.find? (Disk.start d.here (form api).slashes) = some .directory
  isOpen : ∀ l content, IsAbove d api l → d.find? l ≠ some (.file content)
  isFile : d.find? (Disk.place d.here (file api)) ≠ some .directory
  isApart : ¬IsAbove d api (Disk.place d.here (file api))

/-- **The query is renewed**: it has its text, the locations on the way to it are directories, and
nothing else has changed. -/
structure Renews (d : Disk) (api : Text) (e : Disk) : Prop where
  here : e.here = d.here
  written : e.readBytes (file api) = .ok (Utf8.encode document.write)
  above : ∀ l, IsAbove d api l → e.find? l = some .directory
  elsewhere : ∀ l, ¬IsAbove d api l → l ≠ Disk.place d.here (file api) → e.find? l = d.find? l

/-- **Where the way is paved** the query has its place. -/
theorem locate_file {u : Disk}
    (h : d.Paves (Disk.start d.here (form api).slashes) (form api).names u) :
    u.locate (file api) = .ok (Disk.place d.here (file api)) := by
  have hclean : Path.Form.IsClean ⟨(form api).slashes, (form api).names ++ [fileName]⟩ :=
    (isClean_form api).append (List.forall_mem_singleton.2 isStep_fileName)
  have hlocate := h.locate_concat hclean
  rw [← file_eq] at hlocate
  rw [hlocate, Disk.locate_eq_ok hlocate, h.here]

/-- Once the directory is made, the query is written. -/
theorem renew_apply (h : makeAll (form api).slashes (form api).names.reverse d = .ok ⟨⟩ e) :
    renew api d = match e.write (file api) (Utf8.encode document.write) with
      | .ok v => .ok ⟨⟩ v
      | .error fault => .error fault e := by
  rw [renew, ofText_directory, run_bind, h]
  change (match e.write (file api) (Utf8.encode document.write) with
    | .ok v => set v
    | .error fault => throw fault : EStateM FileFault Disk Unit) e = _
  cases e.write (file api) (Utf8.encode document.write) <;> rfl

/-- **Where there is room** the query is renewed. -/
theorem exists_renews_of_hasRoom (h : HasRoom d api) :
    ∃ e, renew api d = .ok ⟨⟩ e ∧ Renews d api e := by
  obtain ⟨u, hrun, hpaves⟩ := exists_paves_of_makeAll (isClean_form api) h.start h.isOpen
  have hfile : u.find? (Disk.place d.here (file api)) ≠ some .directory := by
    rw [hpaves.elsewhere _ h.isApart]
    exact h.isFile
  have hwrite : u.write (file api) (Utf8.encode document.write) =
      .ok (u.put (Disk.place d.here (file api)) (.file (Utf8.encode document.write))) :=
    Disk.write_eq_ok_iff.2 ⟨_, locate_file hpaves, hfile, rfl⟩
  have hrenew : renew api d =
      .ok ⟨⟩ (u.put (Disk.place d.here (file api)) (.file (Utf8.encode document.write))) := by
    rw [renew_apply hrun, hwrite]
  refine ⟨_, hrenew, hpaves.here, Disk.readBytes_write_self hwrite, ?_, ?_⟩
  · intro l hl
    have hplace : l ≠ Disk.place d.here (file api) := by
      rintro rfl
      exact h.isApart hl
    rw [Disk.find?_put_of_ne u hplace]
    exact hpaves.onWay l hl
  · intro l hl hplace
    rw [Disk.find?_put_of_ne u hplace]
    exact hpaves.elsewhere l hl

/-- **The query is renewed only where there is room** for it. -/
theorem hasRoom_of_renew (h : renew api d = .ok ⟨⟩ e) : HasRoom d api := by
  cases hrun : makeAll (form api).slashes (form api).names.reverse d with
  | error fault u =>
    rw [renew, ofText_directory, run_bind, hrun] at h
    cases h
  | ok done u =>
    obtain ⟨hstart, hopen⟩ := isOpen_of_makeAll (isClean_form api) hrun
    obtain ⟨v, hrun', hpaves⟩ := exists_paves_of_makeAll (isClean_form api) hstart hopen
    cases hrun.symm.trans hrun'
    have hfile : u.find? (Disk.place d.here (file api)) ≠ some .directory := by
      intro hdirectory
      rw [renew_apply hrun, Disk.write, locate_file hpaves] at h
      dsimp only at h
      rw [if_pos hdirectory] at h
      cases h
    have hapart : ¬IsAbove d api (Disk.place d.here (file api)) := fun habove =>
      hfile (hpaves.onWay _ habove)
    exact ⟨hstart, hopen, hpaves.elsewhere _ hapart ▸ hfile, hapart⟩

end Query

end BuildLint
