import BuildLint.CMake.Index
import BuildLint.Proofs.Action.Events

/-!
# Proofs/CMake/Request — what asking CMake does to a build directory

Putting the query in place makes directories and writes one file; whatever else belongs to the
request only talks and starts CMake.  No temporary log comes and no file goes.

* `Event.IsOfQuery`, `Event.AsksCMake` — the events of the two halves of a request.
* `Query.create_does`, `Index.answer_does` — what each half does; `Index.request_does`.
* `Index.request_cases` — a request is refused at once, or puts the query in place first.
-/

namespace BuildLint

namespace Event

/-- A directory is made, or the query of an API directory is written. -/
def IsOfQuery (apiDirectory : Text) : Event → Prop
  | .makeDirectory _ => True
  | .write path _ => path = Query.file apiDirectory
  | _ => False

/-- The user is told something, or CMake is started on a build directory. -/
def AsksCMake (host : Host) (buildRoot : Text) : Event → Prop
  | .tell _ => True
  | .launch call => ∃ path, host.executable "cmake" = some path ∧
      call = ⟨[path, buildRoot], none, none⟩
  | _ => False

theorem IsOfQuery.keepsLogs {apiDirectory : Text} {e : Event} (h : e.IsOfQuery apiDirectory) :
    e.KeepsLogs := by
  cases e <;> first | exact trivial | exact h

theorem AsksCMake.isQuiet {host : Host} {buildRoot : Text} {e : Event}
    (h : e.AsksCMake host buildRoot) : e.IsQuiet := by
  cases e <;> first | exact trivial | exact h

end Event

namespace Query

variable {α β : Type} {apiDirectory : Text}

/-- Going on from where a change of files ends, if it does not fail. -/
theorem run_bind (x : EStateM FileFault Disk α) (f : α → EStateM FileFault Disk β)
    (d : Disk) : (x >>= f) d = match x d with
      | .ok a e => f a e
      | .error fault e => .error fault e := by
  rw [Bind.bind, Monad.toBind, EStateM.instMonad]
  simp only [EStateM.bind]
  cases x d <;> rfl

/-- The disk that a change of files ends with, whether or not it fails. -/
def diskOf : EStateM.Result FileFault Disk α → Disk
  | .ok _ d => d
  | .error _ d => d

/-- **A change of files** makes directories and writes the query, and nothing else. -/
def Makes (apiDirectory : Text) (x : EStateM FileFault Disk α) : Prop :=
  ∀ host w, ∃ es, (∀ e ∈ es, e.IsOfQuery apiDirectory) ∧
    Event.replay host w es = some { w with disk := diskOf (x w.disk) }

theorem Makes.of_diskOf_eq {x : EStateM FileFault Disk α} (h : ∀ d, diskOf (x d) = d) :
    Makes apiDirectory x := fun host w =>
  ⟨[], fun _ he => absurd he List.not_mem_nil, by rw [h, Event.replay_nil]⟩

theorem Makes.bind {x : EStateM FileFault Disk α} {f : α → EStateM FileFault Disk β}
    (hx : Makes apiDirectory x) (hf : ∀ a, Makes apiDirectory (f a)) :
    Makes apiDirectory (x >>= f) := by
  intro host w
  obtain ⟨es, hes, hreplay⟩ := hx host w
  rw [run_bind]
  cases hrun : x w.disk with
  | error fault e =>
    rw [hrun] at hreplay
    exact ⟨es, hes, hreplay⟩
  | ok a e =>
    rw [hrun] at hreplay
    obtain ⟨fs, hfs, hrest⟩ := hf a host { w with disk := e }
    exact ⟨es ++ fs, fun e he => (List.mem_append.1 he).elim (hes e) (hfs e),
      Event.replay_append hreplay hrest⟩

theorem makes_pure (a : α) : Makes apiDirectory (pure a) := .of_diskOf_eq fun _ => rfl

theorem makes_throw (fault : FileFault) :
    Makes apiDirectory (throw fault : EStateM FileFault Disk α) :=
  .of_diskOf_eq fun _ => rfl

/-- Changing the disk to what an event makes of it, or going on with another change. -/
theorem makes_change {r : Disk → Except FileFault Disk} {e : Event} (he : e.IsOfQuery apiDirectory)
    (hr : ∀ host w d, r w.disk = .ok d → Event.perform host w e = some { w with disk := d })
    {rest : Disk → FileFault → EStateM FileFault Disk PUnit}
    (hrest : ∀ d fault, Makes apiDirectory (rest d fault)) :
    Makes apiDirectory (do
      let d ← get
      match r d with
      | .ok d => set d
      | .error fault => rest d fault) := by
  intro host w
  have hrun : (do
      let d ← get
      match r d with
      | .ok d => set d
      | .error fault => rest d fault : EStateM FileFault Disk PUnit) w.disk =
      match r w.disk with
      | .ok d => .ok ⟨⟩ d
      | .error fault => rest w.disk fault w.disk := by
    change (match r w.disk with
      | .ok d => set d
      | .error fault => rest w.disk fault : EStateM FileFault Disk PUnit) w.disk = _
    cases r w.disk <;> rfl
  cases h : r w.disk with
  | ok d =>
    refine ⟨[e], fun d hd => List.mem_singleton.1 hd ▸ he, ?_⟩
    rw [Event.replay_cons, hr host w d h, hrun, h]
    rfl
  | error fault =>
    obtain ⟨es, hes, hreplay⟩ := hrest w.disk fault host w
    exact ⟨es, hes, by rw [hreplay, hrun, h]⟩

/-- Making a directory, or going on if it cannot be made. -/
theorem makes_makeDirectory {path : Text}
    {rest : Disk → FileFault → EStateM FileFault Disk PUnit}
    (hrest : ∀ d fault, Makes apiDirectory (rest d fault)) :
    Makes apiDirectory (do
      let d ← get
      match d.makeDirectory path with
      | .ok d => set d
      | .error fault => rest d fault) :=
  makes_change (e := .makeDirectory path) trivial
    (fun _ _ d h => Event.perform_makeDirectory.2 ⟨d, h, rfl⟩) hrest

theorem makes_makeOne (path : Text) : Makes apiDirectory (makeOne path) :=
  makes_makeDirectory fun d fault => by
    split
    · exact makes_pure ()
    · exact makes_throw fault

/-- **All directories on the way** are made one by one. -/
theorem makes_makeAll (slashes : Nat) (names : List Text) :
    Makes apiDirectory (makeAll slashes names) := by
  induction names with
  | nil => exact makes_makeOne _
  | cons name above ih =>
    refine makes_makeDirectory fun d fault => ?_
    split
    · exact ih.bind fun _ => makes_makeOne _
    · split
      · exact makes_pure ()
      · exact makes_throw fault

theorem makes_renew (apiDirectory : Text) : Makes apiDirectory (renew apiDirectory) :=
  (makes_makeAll _ _).bind fun _ =>
    makes_change (e := .write (file apiDirectory) (Utf8.encode document.write)) rfl
      (fun _ _ d h => Event.perform_write.2 ⟨d, h, rfl⟩) fun _ fault => makes_throw fault

/-- Going on with what came of writing the query anew. -/
def settle (apiDirectory : Text) : EStateM.Result FileFault Disk Unit → Action Text
  | .ok _ d => do
    Action.setDisk d
    pure (file apiDirectory)
  | .error fault d => do
    Action.setDisk d
    Action.fail (.metadata (.queryUnwritable fault))
    pure (file apiDirectory)

theorem after_settle (apiDirectory : Text) (r : EStateM.Result FileFault Disk Unit) (host : Host)
    (w : World) : (settle apiDirectory r).after host w = { w with disk := diskOf r } := by
  cases r <;> rfl

/-- **What becomes of the query** is decided by what its file says. -/
theorem create_apply (api : Text) (host : Host) (w : World) : create api host w =
    if w.disk.isThere (file api) = true then
      match isInPlace w.disk (file api) with
      | .error fault => .error fault w
      | .ok true => .ok (file api) w
      | .ok false => settle api (renew api w.disk) host w
    else settle api (renew api w.disk) host w := by
  simp only [create, Action.bind_apply, Action.disk_apply]
  generalize renew api w.disk = r
  by_cases hthere : w.disk.isThere (file api) = true
  · simp only [if_pos hthere, Action.bind_apply, Action.consult_apply]
    cases isInPlace w.disk (file api) with
    | error fault => rfl
    | ok done => cases done <;> rfl
  · simp only [if_neg hthere]
    rfl

/-- **Putting the query in place** stops, or finds it there, or writes it anew. -/
theorem create_cases (apiDirectory : Text) (host : Host) (w : World) :
    (∃ fault, create apiDirectory host w = .error fault w) ∨
      create apiDirectory host w = .ok (file apiDirectory) w ∨
      create apiDirectory host w = settle apiDirectory (renew apiDirectory w.disk) host w := by
  rw [create_apply]
  by_cases hthere : w.disk.isThere (file apiDirectory) = true
  · rw [if_pos hthere]
    cases isInPlace w.disk (file apiDirectory) with
    | error fault => exact .inl ⟨fault, rfl⟩
    | ok done => cases done with
      | true => exact .inr (.inl rfl)
      | false => exact .inr (.inr rfl)
  · rw [if_neg hthere]
    exact .inr (.inr rfl)

/-- **Putting the query in place** makes directories and writes it. -/
theorem create_does (apiDirectory : Text) :
    (create apiDirectory).Does (Event.IsOfQuery apiDirectory) := by
  intro host w
  rcases create_cases apiDirectory host w with ⟨fault, hrun⟩ | hrun | hrun
  · exact .of_after_eq (Action.after_of_eq_error hrun)
  · exact .of_after_eq (Action.after_of_eq_ok hrun)
  · rw [Action.DoesAt, Action.after, hrun, ← Action.after, after_settle]
    exact makes_renew apiDirectory host w

end Query

namespace Index

theorem reconfigure_does (buildRoot : Text) (host : Host) (w : World) :
    (reconfigure buildRoot).DoesAt (Event.AsksCMake host buildRoot) host w := by
  refine .bind (Action.does_executable _ host w) fun cmake v hcmake => ?_
  have hcall : Event.AsksCMake host buildRoot (.launch ⟨[cmake, buildRoot], none, none⟩) :=
    ⟨cmake, Action.executable_of_eq_ok hcmake, rfl⟩
  refine .bind (Action.does_tell _ _ trivial host v) fun _ u _ =>
    .bind (Action.does_launch _ hcall host u) fun outcome u' _ => ?_
  split
  · exact Action.does_fail _ host u'
  · exact Action.does_pure _ host u'

theorem load_does {P : Event → Prop} (htell : ∀ message, P (.tell message)) (apiDirectory : Text) :
    (load apiDirectory).Does P :=
  Action.does_disk.bind fun d => by
    split
    · exact Action.does_fail _
    · exact (Action.does_consult _).bind fun document =>
        (Action.does_ofExcept _).bind fun index =>
          (Action.does_tell _ _ (htell _)).bind fun _ => Action.does_pure _

/-- What a request does once the query is in place. -/
def answer (buildRoot : Text) : Action Index := do
  reconfigure buildRoot
  let index ← load (apiDirectory buildRoot)
  Action.ofExcept (Version.check index.version Version.minimum)
  return index

theorem answer_does (buildRoot : Text) (host : Host) (w : World) :
    (answer buildRoot).DoesAt (Event.AsksCMake host buildRoot) host w :=
  .bind (reconfigure_does buildRoot host w) fun _ v _ =>
    .bind (load_does (fun _ => trivial) _ host v) fun _ u _ =>
      .bind (Action.does_ofExcept _ host u) fun _ u' _ => Action.does_pure _ host u'

/-- **A request** is refused at once, or it puts the query in place and waits for the answer. -/
theorem request_cases (buildRoot : Text) (host : Host) (w : World) :
    (∃ fault, request buildRoot host w = .error fault w) ∨
      request buildRoot host w =
        (Query.create (apiDirectory buildRoot) >>= fun _ => answer buildRoot) host w := by
  rw [request, Action.bind_apply, Action.disk_apply]
  by_cases hempty : isEmptyDirectory w.disk buildRoot = true
  · refine .inl ⟨.failure (.configuration .emptyBuildRoot), ?_⟩
    simp only [if_pos hempty]
    rfl
  · exact .inr (by simp only [if_neg hempty, answer])

/-- An answered request has put the query in place first. -/
theorem request_eq_ok {buildRoot : Text} {host : Host} {w v : World} {index : Index}
    (h : request buildRoot host w = .ok index v) : ∃ path u,
      Query.create (apiDirectory buildRoot) host w = .ok path u ∧
        answer buildRoot host u = .ok index v := by
  rcases request_cases buildRoot host w with ⟨fault, hrefused⟩ | hasked
  · cases hrefused.symm.trans h
  · exact Action.bind_eq_ok.1 (hasked.symm.trans h)

/-- **All that a request does** is to put the query in place and to ask CMake. -/
theorem request_does (buildRoot : Text) (host : Host) (w : World) :
    (request buildRoot).DoesAt
      (fun e => e.IsOfQuery (apiDirectory buildRoot) ∨ e.AsksCMake host buildRoot) host w := by
  rcases request_cases buildRoot host w with ⟨fault, hrefused⟩ | hasked
  · exact .of_after_eq (Action.after_of_eq_error hrefused)
  · have hboth : (Query.create (apiDirectory buildRoot) >>= fun _ => answer buildRoot).DoesAt
        (fun e => e.IsOfQuery (apiDirectory buildRoot) ∨ e.AsksCMake host buildRoot) host w :=
      .bind (.mono (Query.create_does _ host w) fun _ => .inl) fun _ v _ =>
        (answer_does buildRoot host v).mono fun _ => .inr
    rw [Action.DoesAt, Action.after] at hboth ⊢
    rwa [hasked]

end Index

end BuildLint
