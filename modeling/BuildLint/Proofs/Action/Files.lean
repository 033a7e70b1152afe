import BuildLint.Proofs.Action.Events
import BuildLint.Proofs.Disk.Paths

/-!
# Proofs/Action/Files — what events leave standing

A program may do anything to a disk, so what is so of a disk stays so only if the programs keep it
(`Event.ProgramsKeep`).  The program's own events are better known: only removals take files away,
and only `makeDirectory` makes directories.

* `isThere_replay` — if all that is removed are own logs, whatever else stands somewhere stays.
* `isDirectory_replay` — where no directory stands, none is made.
-/

namespace BuildLint

namespace Event

variable {host : Host} {w v w' : World} {es fs : List Event} {e : Event} {p q : Text}

/-- **The programs that events start keep** what is so of a disk. -/
def ProgramsKeep (I : Disk → Prop) (host : Host) (w : World) (es : List Event) : Prop :=
  ∀ before call rest v, es = before ++ .launch call :: rest → replay host w before = some v →
    I v.disk → I (host.left v.calls call v.disk)

theorem ProgramsKeep.left {I : Disk → Prop} (h : ProgramsKeep I host w (es ++ fs)) :
    ProgramsKeep I host w es := fun before call rest v heq =>
  h before call (rest ++ fs) v (by rw [heq, List.append_assoc, List.cons_append])

theorem ProgramsKeep.right {I : Disk → Prop} (h : ProgramsKeep I host w (es ++ fs))
    (hes : replay host w es = some v) : ProgramsKeep I host v fs := fun before call rest u heq hu =>
  h (es ++ before) call rest u (by rw [heq, List.append_assoc]) (replay_append hes hu)

theorem ProgramsKeep.head {I : Disk → Prop} {call : Call}
    (h : ProgramsKeep I host w (.launch call :: es)) (hw : I w.disk) :
    I (host.left w.calls call w.disk) :=
  h [] call es w rfl rfl hw

theorem ProgramsKeep.tail {I : Disk → Prop} (h : ProgramsKeep I host w (e :: es))
    (he : perform host w e = some v) : ProgramsKeep I host v es := by
  have he' : replay host w [e] = some v := by
    rw [replay_cons, he]
    rfl
  exact ProgramsKeep.right h he'

/-- No event moves the program to another directory. -/
theorem here_perform (h : perform host w e = some w') : w'.disk.here = w.disk.here := by
  cases e with
  | tell message => exact Option.some.inj h ▸ rfl
  | launch call => exact Option.some.inj h ▸ rfl
  | write path content =>
    obtain ⟨d, hd, rfl⟩ := perform_write.1 h
    exact Disk.here_write hd
  | makeDirectory path =>
    obtain ⟨d, hd, rfl⟩ := perform_makeDirectory.1 h
    obtain ⟨l, -, -, rfl⟩ := Disk.makeDirectory_eq_ok_iff.1 hd
    rfl
  | allocate log =>
    obtain ⟨-, d, hd, rfl⟩ := perform_allocate.1 h
    exact Disk.here_write hd
  | remove path =>
    obtain ⟨d, hd, rfl⟩ := perform_remove.1 h
    exact Disk.here_remove hd

/-! ## Nothing goes but own logs -/

/-- Something stands at a path, which is not the place of any of some logs. -/
def Stands (owned : List Text) (q : Text) (w : World) : Prop :=
  w.disk.isThere q = true ∧
    ∀ log ∈ owned, Disk.place w.disk.here q ≠ Disk.place w.disk.here log

theorem Stands.of_perform {owned : List Text} (h : Stands owned q w)
    (hw : perform host w e = some w') (hthere : w'.disk.isThere q = true) : Stands owned q w' :=
  ⟨hthere, by rw [here_perform hw]; exact h.2⟩

/-- **Whatever stands somewhere stays**, if events remove own logs only and the programs keep it. -/
theorem isThere_replay {owned : List Text} (hown : OwnRemovals owned es)
    (hkeep : ProgramsKeep (fun d => d.isThere q = true) host w es)
    (h : replay host w es = some w') (hw : Stands owned q w) : w'.disk.isThere q = true := by
  induction es generalizing owned w with
  | nil => exact Option.some.inj h ▸ hw.1
  | cons e es ih =>
    rw [replay_cons] at h
    obtain ⟨v, hv, hrest⟩ := Option.bind_eq_some_iff.1 h
    have hkeep' := hkeep.tail hv
    cases e with
    | tell message =>
      obtain rfl := Option.some.inj hv
      exact ih hown hkeep' hrest hw
    | launch call =>
      have hthere := hkeep.head hw.1
      obtain rfl := Option.some.inj hv
      exact ih hown hkeep' hrest ⟨hthere, hw.2⟩
    | write path content =>
      obtain ⟨d, hd, rfl⟩ := perform_write.1 hv
      exact ih hown hkeep' hrest (hw.of_perform hv (Disk.isThere_write hd hw.1))
    | makeDirectory path =>
      obtain ⟨d, hd, rfl⟩ := perform_makeDirectory.1 hv
      exact ih hown hkeep' hrest (hw.of_perform hv (Disk.isThere_makeDirectory hd hw.1))
    | allocate log =>
      obtain ⟨hfresh, d, hd, rfl⟩ := perform_allocate.1 hv
      -- the log comes where nothing stands, so not at the place of `q`
      have hne := Disk.place_ne_of_write hd hfresh hw.1
      have hw' : Stands (owned ++ [log]) q w := ⟨hw.1, fun other hother =>
        (List.mem_append.1 hother).elim (hw.2 other) fun h => List.mem_singleton.1 h ▸ hne⟩
      exact ih hown hkeep' hrest (hw'.of_perform hv (Disk.isThere_write hd hw.1))
    | remove path =>
      obtain ⟨d, hd, rfl⟩ := perform_remove.1 hv
      have hthere : d.isThere q = true := by
        rw [Disk.isThere, Disk.look?_remove_of_place_ne hd (hw.2 path hown.1)]
        exact hw.1
      exact ih hown.2 hkeep' hrest (hw.of_perform hv hthere)

/-! ## No directory comes -/

/-- The program makes no directory. -/
def MakesNoDirectory : Event → Prop
  | .makeDirectory _ => False
  | _ => True

theorem IsQuiet.makesNoDirectory {e : Event} (h : e.IsQuiet) : e.MakesNoDirectory := by
  cases e <;> trivial

/-- **Where no directory stands, none is made** by events that make none, if the programs keep it
so. -/
theorem isDirectory_replay (hes : ∀ e ∈ es, e.MakesNoDirectory)
    (hkeep : ProgramsKeep (fun d => d.isDirectory p = false) host w es)
    (h : replay host w es = some w') (hw : w.disk.isDirectory p = false) :
    w'.disk.isDirectory p = false := by
  induction es generalizing w with
  | nil => exact Option.some.inj h ▸ hw
  | cons e es ih =>
    rw [replay_cons] at h
    obtain ⟨v, hv, hrest⟩ := Option.bind_eq_some_iff.1 h
    refine ih (fun e he => hes e (List.mem_cons_of_mem _ he)) (hkeep.tail hv) hrest ?_
    cases e with
    | tell message => exact Option.some.inj hv ▸ hw
    | launch call =>
      have hleft := hkeep.head hw
      exact Option.some.inj hv ▸ hleft
    | write path content =>
      obtain ⟨d, hd, rfl⟩ := perform_write.1 hv
      exact (Disk.isDirectory_write hd p).trans hw
    | makeDirectory path => exact (hes _ List.mem_cons_self).elim
    | allocate log =>
      obtain ⟨-, d, hd, rfl⟩ := perform_allocate.1 hv
      exact (Disk.isDirectory_write hd p).trans hw
    | remove path =>
      obtain ⟨d, hd, rfl⟩ := perform_remove.1 hv
      exact (Disk.isDirectory_remove hd p).trans hw

end Event

end BuildLint
