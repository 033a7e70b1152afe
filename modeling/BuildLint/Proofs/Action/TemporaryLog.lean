import BuildLint.Proofs.Action.Events
import BuildLint.Proofs.Disk.Paths
import BuildLint.Proofs.Keyed
import BuildLint.Proofs.Text.Cutting
import Mathlib.Data.List.Nodup

/-!
# Proofs/Action/TemporaryLog — temporary logs come fresh and go for good

A log is allocated at the first of more paths than the disk has entries, so nothing stands there
(`isThere_freshLogPath`), and it is allocated unless the logs have run out (`allocateLog_run`).
Discarding logs takes exactly them away: it succeeds if none of them has become a directory
(`discardLogs_eq_ok`), and all it ever does is remove some of them (`discardLogs_does`).
-/

namespace BuildLint

namespace Action

/-! ## The paths of logs -/

/-- The name of a temporary log. -/
def logName (n : Nat) : Text := "log" ++ Decimal.ofNat n ++ ".sarif"

theorem logName_injective : Function.Injective logName := fun m n h => by
  rw [← Decimal.value_ofNat m, ← Decimal.value_ofNat n]
  exact congrArg _ (List.append_cancel_left (List.append_cancel_right h))

/-- No slash stands in the name of a log. -/
theorem ne_slash_of_mem_logName {n : Nat} {c : CodePoint} (h : c ∈ logName n) :
    decide (c = '/') = false := by
  refine decide_eq_false fun hc => ?_
  rcases List.mem_append.1 h with h | h
  · rcases List.mem_append.1 h with h | h
    · subst hc
      exact absurd h (by decide)
    · subst hc
      exact absurd (Decimal.isDigit_of_mem_ofNat h) (by decide)
  · subst hc
    exact absurd h (by decide)

theorem parts_logPath (n : Nat) : Path.parts (logPath n) = [[], "tmp", logName n] := by
  have hpath : logPath n =
      ('/' : CodePoint) :: (Text.ofString "tmp" ++ ('/' : CodePoint) :: logName n) := rfl
  have htmp : ∀ c ∈ Text.ofString "tmp", decide (c = '/') = false := by decide
  rw [Path.parts, hpath, Text.cutWhere, if_pos (by decide),
    Text.cutWhere_append_cons htmp (by decide),
    Text.cutWhere_of_forall fun c hc => ne_slash_of_mem_logName hc]

/-- A log's name leads into a directory. -/
theorem stepTo_logName (base : Location) (n : Nat) :
    Disk.stepTo base (logName n) = base ++ [logName n] := by
  have hlog : logName n = ('l' : CodePoint) :: (Text.ofString "og" ++ Decimal.ofNat n ++
      Text.ofString ".sarif") := rfl
  have hname : Path.isName (logName n) = true := by
    rw [hlog, Path.isName]
    simp [Text.ofString, CodePoint.ofChar]
  have hup : logName n ≠ Text.ofString ".." := by
    rw [hlog]
    simp [Text.ofString, CodePoint.ofChar]
  rw [Disk.stepTo, hname, if_pos rfl, if_neg hup]

/-- **Logs stand side by side** in the directory for temporary files. -/
theorem place_logPath (here : Location) (n : Nat) :
    Disk.place here (logPath n) = [Text.ofString "tmp", logName n] := by
  have habs : Path.isAbsolute (logPath n) = true := rfl
  rw [Disk.place, parts_logPath, habs, if_pos rfl, List.foldl_cons, List.foldl_cons,
    List.foldl_cons, List.foldl_nil, stepTo_logName]
  rfl

/-- The path of a log is tidy. -/
theorem tidy_logPath (n : Nat) : Path.tidy (logPath n) = logPath n := by
  have hlog : logName n = ('l' : CodePoint) :: (Text.ofString "og" ++ Decimal.ofNat n ++
      Text.ofString ".sarif") := rfl
  have hname : Path.isName (logName n) = true := by
    rw [hlog, Path.isName]
    simp [Text.ofString, CodePoint.ofChar]
  have hnames : (Path.parts (logPath n)).filter Path.isName = [Text.ofString "tmp", logName n] := by
    rw [parts_logPath, List.filter_cons_of_neg (by decide), List.filter_cons_of_pos (by decide),
      List.filter_cons_of_pos hname, List.filter_nil]
  have hslashes : Path.leadingSlashes (logPath n) = 1 := rfl
  rw [Path.tidy, Path.Form.ofText, hnames, hslashes]
  rfl

/-! ## Allocation -/

/-- What stands somewhere but at the root is an entry. -/
theorem mem_entries_of_isThere {d : Disk} {p : Text} (h : d.isThere p = true)
    (hroot : Disk.place d.here p ≠ []) : Disk.place d.here p ∈ d.entries.map Prod.fst := by
  refine Classical.byContradiction fun hmem => ?_
  have hnone := Keyed.get?_eq_none hmem
  rw [Disk.isThere, Disk.look?] at h
  cases hp : d.locate p with
  | error problem => simp [hp] at h
  | ok l =>
    rw [hp, Disk.locate_eq_ok hp] at h
    simp [Disk.find?, hroot, hnone] at h

/-- **A log is allocated where nothing stands.** -/
theorem isThere_freshLogPath (d : Disk) (n : Nat) : d.isThere (freshLogPath d n) = false := by
  rw [freshLogPath]
  cases hfind : (((List.range (d.entries.length + 1)).map fun k => logPath (n + k)).find?
      fun p => !d.isThere p) with
  | some p => simpa using List.find?_some hfind
  | none =>
    exfalso
    have hthere : ∀ k < d.entries.length + 1, d.isThere (logPath (n + k)) = true := fun k hk => by
      simpa using List.find?_eq_none.1 hfind _ (List.mem_map_of_mem (List.mem_range.2 hk))
    -- all these paths have locations of their own, one more than there are entries
    have hnodup : ((List.range (d.entries.length + 1)).map
        fun k => Disk.place d.here (logPath (n + k))).Nodup := by
      refine List.nodup_range.map fun j k hjk => ?_
      rw [place_logPath, place_logPath] at hjk
      have := logName_injective (List.cons.inj (List.cons.inj hjk).2).1
      omega
    have hsub : ((List.range (d.entries.length + 1)).map
        fun k => Disk.place d.here (logPath (n + k))) ⊆ d.entries.map Prod.fst := by
      intro l hl
      obtain ⟨k, hk, rfl⟩ := List.mem_map.1 hl
      exact mem_entries_of_isThere (hthere k (List.mem_range.1 hk)) (by simp [place_logPath])
    have hlength := hnodup.length_le_of_subset hsub
    simp only [List.length_map, List.length_range] at hlength
    omega

/-- A log is allocated at a path for logs. -/
theorem exists_freshLogPath_eq (d : Disk) (n : Nat) : ∃ m, freshLogPath d n = logPath m := by
  rw [freshLogPath]
  cases hfind : (((List.range (d.entries.length + 1)).map fun k => logPath (n + k)).find?
      fun p => !d.isThere p) with
  | none => exact ⟨n, rfl⟩
  | some p =>
    obtain ⟨k, -, rfl⟩ := List.mem_map.1 (List.mem_of_find?_eq_some hfind)
    exact ⟨n + k, rfl⟩

theorem isDirectory_tmp_iff {d : Disk} :
    d.isDirectory "/tmp" = true ↔ d.find? ["tmp"] = some .directory := by
  have hlocate : d.locate "/tmp" = .ok ["tmp"] := rfl
  rw [Disk.isDirectory, Disk.look?_of_locate hlocate, beq_iff_eq]

/-- **A log has a location** exactly if there is a directory for logs. -/
theorem exists_locate_logPath_iff {d : Disk} (n : Nat) :
    (∃ l, d.locate (logPath n) = .ok l) ↔ d.isDirectory "/tmp" = true := by
  have hlocate : d.locate (logPath n) = d.follow ["tmp"] [logName n] := by
    have habs : Path.isAbsolute (logPath n) = true := rfl
    have hne : logPath n ≠ [] := List.cons_ne_nil _ _
    rw [Disk.locate, if_neg hne, habs, parts_logPath]
    rfl
  rw [isDirectory_tmp_iff, hlocate]
  by_cases h : d.find? ["tmp"] = some .directory
  · rw [Disk.follow_cons h]
    exact iff_of_true ⟨_, rfl⟩ h
  · refine iff_of_false ?_ h
    rintro ⟨l, hl⟩
    exact Disk.follow_cons_ne_ok h _ _ hl

/-- **The logs run out**: an allocation fails after some more of them, because there are as many as
there may be or because there is no directory for them. -/
def RunsOut (host : Host) (w : World) (more : Nat) : Prop :=
  host.logLimit.any (· ≤ w.logs.length + more) = true ∨ w.disk.isDirectory "/tmp" = false

/-- **Allocating a log** fails exactly if the logs have run out. -/
theorem allocateLog_run (host : Host) (w : World) :
    (RunsOut host w 0 ∧
        ∃ fault, allocateLog host w = .error (.failure (.synthesis (.noLog fault))) w) ∨
      ¬RunsOut host w 0 ∧ ∃ log v, allocateLog host w = .ok log v ∧ (∃ n, log = logPath n) ∧
        Event.perform host w (.allocate log) = some v := by
  simp only [allocateLog, bind_apply, get_apply, read_apply]
  by_cases hfull : host.logLimit.any (· ≤ w.logs.length) = true
  · simp only [hfull, if_true]
    exact .inl ⟨.inl hfull, _, rfl⟩
  have hfresh := isThere_freshLogPath w.disk w.logs.length
  obtain ⟨n, hn⟩ := exists_freshLogPath_eq w.disk w.logs.length
  simp only [hfull]
  cases hwrite : w.disk.write (freshLogPath w.disk w.logs.length) [] with
  | error fault =>
    refine .inl ⟨.inr (Bool.eq_false_iff.2 fun htmp => ?_), _, rfl⟩
    obtain ⟨l, hl⟩ := (exists_locate_logPath_iff n).2 htmp
    rw [← hn] at hl
    have hvacant : w.disk.find? l ≠ some .directory := by
      intro hdirectory
      rw [Disk.isThere, Disk.look?_of_locate hl, hdirectory] at hfresh
      cases hfresh
    cases hwrite.symm.trans (Disk.write_eq_ok_iff.2 ⟨l, hl, hvacant, rfl⟩)
  | ok d =>
    refine .inr ⟨?_, _, _, rfl, ⟨n, hn⟩, Event.perform_allocate.2 ⟨hfresh, d, hwrite, rfl⟩⟩
    obtain ⟨l, hl, -, -⟩ := Disk.write_eq_ok_iff.1 hwrite
    rw [hn] at hl
    rintro (h | h)
    · exact hfull h
    · exact Bool.eq_false_iff.1 h ((exists_locate_logPath_iff n).1 ⟨l, hl⟩)

/-- **Allocation fails without a trace, or it is the allocation of a log.** -/
theorem allocateLog_cases (host : Host) (w : World) :
    (∃ fault, allocateLog host w = .error fault w) ∨
      ∃ log w', allocateLog host w = .ok log w' ∧ (∃ n, log = logPath n) ∧
        Event.perform host w (.allocate log) = some w' := by
  rcases allocateLog_run host w with ⟨-, cause, hrun⟩ | ⟨-, hlog⟩
  · exact .inl ⟨_, hrun⟩
  · exact .inr hlog

/-- After an allocation the logs run out one sooner. -/
theorem runsOut_of_allocate {host : Host} {w v : World} {log : Text}
    (h : Event.perform host w (.allocate log) = some v) (more : Nat) :
    RunsOut host v more ↔ RunsOut host w (more + 1) := by
  obtain ⟨-, d, hd, rfl⟩ := Event.perform_allocate.1 h
  have hlength : (w.logs ++ [log]).length + more = w.logs.length + (more + 1) := by
    rw [List.length_append, List.length_singleton]
    omega
  rw [RunsOut, RunsOut, hlength, Disk.isDirectory_write hd]

/-! ## Discarding -/

/-- **One disk is another without some files.** -/
structure Clears (paths : List Text) (d e : Disk) : Prop where
  gone : ∀ p ∈ paths, ∀ q, d.locate q = d.locate p → e.isThere q = false
  here : e.here = d.here
  locate : ∀ q l, e.locate q = .ok l ↔ d.locate q = .ok l
  absent : ∀ q, d.isThere q = false → e.isThere q = false
  directory : ∀ q, e.isDirectory q = d.isDirectory q
  apart : ∀ q, (∀ p ∈ paths, Disk.place d.here q ≠ Disk.place d.here p) → e.look? q = d.look? q

theorem Clears.nil (d : Disk) : Clears [] d d where
  gone := fun _ h => absurd h List.not_mem_nil
  here := rfl
  locate := fun _ _ => Iff.rfl
  absent := fun _ h => h
  directory := fun _ => rfl
  apart := fun _ _ => rfl

theorem Clears.cons {p : Text} {paths : List Text} {d e f : Disk} (h : Clears [p] d e)
    (h' : Clears paths e f) : Clears (p :: paths) d f where
  gone := fun q hq r hr => by
    rcases List.mem_cons.1 hq with rfl | hq
    · exact h'.absent r (h.gone q (List.mem_singleton.2 rfl) r hr)
    · cases hlocate : d.locate q with
      | error problem =>
        -- what has no location is not there, so it is not there later
        refine h'.absent r (h.absent r ?_)
        rw [Disk.isThere, Disk.look?, hr, hlocate]
        rfl
      | ok l =>
        refine h'.gone q hq r ?_
        rw [(h.locate r l).2 (hr.trans hlocate), (h.locate q l).2 hlocate]
  here := h'.here.trans h.here
  locate := fun q l => (h'.locate q l).trans (h.locate q l)
  absent := fun q hq => h'.absent q (h.absent q hq)
  directory := fun q => (h'.directory q).trans (h.directory q)
  apart := fun q hq => by
    rw [h'.apart q fun r hr => h.here ▸ hq r (List.mem_cons_of_mem _ hr)]
    exact h.apart q fun r hr => hq r (List.mem_singleton.1 hr ▸ List.mem_cons_self)

/-- A file that is removed is cleared away. -/
theorem Clears.of_remove {p : Text} {d e : Disk} (h : d.remove p = .ok e) : Clears [p] d e where
  gone := fun q hq r hr => by
    obtain rfl := List.mem_singleton.1 hq
    rw [Disk.isThere, Disk.look?_remove_self h hr]
    rfl
  here := Disk.here_remove h
  locate := Disk.locate_remove h
  absent := fun _ hq => Disk.isThere_remove h hq
  directory := Disk.isDirectory_remove h
  apart := fun _ hq => Disk.look?_remove_of_place_ne h (hq p (List.mem_singleton.2 rfl))

/-- Nothing has to be cleared away where nothing stands. -/
theorem Clears.of_absent {p : Text} {d : Disk} (h : d.isThere p = false) : Clears [p] d d where
  gone := fun q hq r hr => by
    obtain rfl := List.mem_singleton.1 hq
    rw [Disk.isThere, Disk.look?] at h ⊢
    rwa [hr]
  here := rfl
  locate := fun _ _ => Iff.rfl
  absent := fun _ hq => hq
  directory := fun _ => rfl
  apart := fun _ _ => rfl

/-- Discarding a log, step by step. -/
theorem discardLog_apply (p : Text) (host : Host) (w : World) :
    discardLog p host w =
      if w.disk.isThere p then
        match w.disk.remove p with
        | .error fault => .error (.file fault) w
        | .ok d => .ok () { w with disk := d }
      else .ok () w := by
  simp only [discardLog, bind_apply, disk_apply]
  split
  · cases w.disk.remove p <;> rfl
  · rfl

/-- **A log that is no directory is taken away.** -/
theorem discardLog_eq_ok (host : Host) {w : World} {p : Text} (hp : w.disk.isDirectory p = false) :
    ∃ e, Clears [p] w.disk e ∧ discardLog p host w = .ok () { w with disk := e } := by
  by_cases hthere : w.disk.isThere p = true
  · obtain ⟨e, he⟩ := Disk.exists_remove_eq_ok hthere hp
    refine ⟨e, .of_remove he, ?_⟩
    rw [discardLog_apply, if_pos hthere, he]
  · refine ⟨w.disk, .of_absent (Bool.eq_false_iff.2 hthere), ?_⟩
    rw [discardLog_apply, if_neg hthere]

theorem discardLogs_cons (p : Text) (rest : List Text) :
    discardLogs (p :: rest) = discardLog p >>= fun _ => discardLogs rest := rfl

/-- **Logs that are no directories are taken away**, and nothing else is. -/
theorem discardLogs_eq_ok {paths : List Text} (host : Host) {w : World}
    (h : ∀ p ∈ paths, w.disk.isDirectory p = false) :
    ∃ e, Clears paths w.disk e ∧ discardLogs paths host w = .ok () { w with disk := e } := by
  induction paths generalizing w with
  | nil => exact ⟨w.disk, .nil _, rfl⟩
  | cons p rest ih =>
    obtain ⟨e, he, hrun⟩ := discardLog_eq_ok host (h p List.mem_cons_self)
    obtain ⟨f, hf, hrest⟩ := ih (w := { w with disk := e }) fun q hq =>
      (he.directory q).trans (h q (List.mem_cons_of_mem _ hq))
    refine ⟨f, he.cons hf, ?_⟩
    rw [discardLogs_cons, bind_of_eq_ok hrun]
    exact hrest

/-- Discarding a log changes nothing, or it is the removal of that log. -/
theorem discardLog_cases (p : Text) (host : Host) (w : World) :
    (discardLog p).after host w = w ∨
      Event.perform host w (.remove p) = some ((discardLog p).after host w) := by
  rw [after, discardLog_apply]
  by_cases hthere : w.disk.isThere p = true
  · rw [if_pos hthere]
    cases hremove : w.disk.remove p with
    | error fault => exact .inl rfl
    | ok d => exact .inr (Event.perform_remove.2 ⟨d, hremove, rfl⟩)
  · rw [if_neg hthere]
    exact .inl rfl

theorem discardLog_does {p : Text} {paths : List Text} (h : p ∈ paths) :
    (discardLog p).Does (Event.Removes paths) := by
  intro host w
  rcases discardLog_cases p host w with hsame | hremove
  · exact .of_after_eq hsame
  · have he : Event.Removes paths (.remove p) := h
    exact .of_perform he hremove

/-- **All that discarding does** is to remove some of the logs. -/
theorem discardLogs_does {some paths : List Text} (h : some ⊆ paths) :
    (discardLogs some).Does (Event.Removes paths) := by
  induction some with
  | nil => exact does_pure ()
  | cons p rest ih =>
    rw [discardLogs_cons]
    exact (discardLog_does (h List.mem_cons_self)).bind fun _ =>
      ih fun _ hq => h (List.mem_cons_of_mem _ hq)

theorem orElseUndo_eq_ok {α : Type} {x : Action α} {undo : Action Unit} {host : Host}
    {w v : World} {a : α} : x.orElseUndo undo host w = .ok a v ↔ x host w = .ok a v := by
  rw [orElseUndo]
  cases x host w with
  | ok b u => exact Iff.rfl
  | error fault u =>
    dsimp only
    cases undo host u <;> exact ⟨fun h => (nomatch h), fun h => (nomatch h)⟩

/-- **A fault that changes nothing, and the logs taken away after it.** -/
theorem orElseUndo_discardLogs {α : Type} {x : Action α} {paths : List Text} {host : Host}
    {w : World} {fault : Fault} (hx : x host w = .error fault w)
    (h : ∀ p ∈ paths, w.disk.isDirectory p = false) :
    ∃ es v, (∀ e ∈ es, e.Removes paths) ∧ Event.replay host w es = some v ∧
      x.orElseUndo (discardLogs paths) host w = .error fault v ∧
      ∀ p ∈ paths, v.disk.isThere p = false := by
  obtain ⟨e, hclears, hrun⟩ := discardLogs_eq_ok host h
  obtain ⟨es, hes, hreplay⟩ := discardLogs_does (List.Subset.refl paths) host w
  refine ⟨es, { w with disk := e }, hes, ?_, ?_, fun p hp => hclears.gone p hp p rfl⟩
  · rw [hreplay, after_of_eq_ok hrun]
  · simp only [orElseUndo, hx, hrun]

end Action

end BuildLint
