import BuildLint.Action

/-!
# Proofs/Action/Events — what an action does, event by event

An action changes the world through a few kinds of **event**: it tells the user something, starts a
program, writes or removes a file, makes a directory, or allocates a temporary log.  A list of
events, replayed from a world, gives the world after it, so whatever happened between two worlds can
be read off the list.

* `Event.perform`, `replay` — the world after an event, and after a list of them.
* `Action.Does` — all that an action does are events of a kind; `Does.bind` and its companions show
  it for an action part by part.
-/

namespace BuildLint

/-- **One thing that the program does to its surroundings.** -/
inductive Event where
  | tell (message : Message)
  | launch (call : Call)
  | write (path : Text) (content : Bytes)
  | makeDirectory (path : Text)
  | allocate (log : Text)
  | remove (path : Text)

namespace Event

/-- The world after an event, if the event can happen there.  A log is allocated where nothing
stands. -/
def perform (host : Host) (w : World) : Event → Option World
  | .tell message => some { w with messages := w.messages ++ [message] }
  | .launch call =>
    some { w with disk := host.left w.calls call w.disk, calls := w.calls ++ [call] }
  | .write path content => (w.disk.write path content).toOption.map fun d => { w with disk := d }
  | .makeDirectory path => (w.disk.makeDirectory path).toOption.map fun d => { w with disk := d }
  | .allocate log =>
    if w.disk.isThere log then none
    else (w.disk.write log []).toOption.map fun d => { w with disk := d, logs := w.logs ++ [log] }
  | .remove path => (w.disk.remove path).toOption.map fun d => { w with disk := d }

/-- **The world after a list of events.** -/
def replay (host : Host) (w : World) (es : List Event) : Option World :=
  es.foldlM (perform host) w

variable {host : Host} {w w' : World} {es : List Event}

@[simp] theorem replay_nil : replay host w [] = some w := rfl

@[simp] theorem replay_cons (e : Event) :
    replay host w (e :: es) = (perform host w e).bind fun v => replay host v es := rfl

theorem replay_singleton (e : Event) : replay host w [e] = perform host w e :=
  Option.bind_fun_some _

/-- **Events after others** happen where the others have led. -/
theorem replay_append_iff {fs : List Event} : replay host w (es ++ fs) = some w' ↔
    ∃ v, replay host w es = some v ∧ replay host v fs = some w' := by
  rw [replay, List.foldlM_append]
  exact Option.bind_eq_some_iff

theorem replay_append {v : World} {fs : List Event} (h : replay host w es = some v)
    (h' : replay host v fs = some w') : replay host w (es ++ fs) = some w' :=
  replay_append_iff.2 ⟨v, h, h'⟩

/-! ## What one event can do -/

/-- Going on with what an operation gives, if it gives something. -/
theorem map_toOption_eq_some {ε α β : Type} {r : Except ε α} {f : α → β} {b : β} :
    r.toOption.map f = some b ↔ ∃ a, r = .ok a ∧ b = f a := by
  cases r <;> simp [Except.toOption, eq_comm]

theorem perform_write {path : Text} {content : Bytes} :
    perform host w (.write path content) = some w' ↔
      ∃ d, w.disk.write path content = .ok d ∧ w' = { w with disk := d } := map_toOption_eq_some

theorem perform_makeDirectory {path : Text} :
    perform host w (.makeDirectory path) = some w' ↔
      ∃ d, w.disk.makeDirectory path = .ok d ∧ w' = { w with disk := d } := map_toOption_eq_some

theorem perform_remove {path : Text} :
    perform host w (.remove path) = some w' ↔
      ∃ d, w.disk.remove path = .ok d ∧ w' = { w with disk := d } := map_toOption_eq_some

theorem perform_allocate {log : Text} :
    perform host w (.allocate log) = some w' ↔
      w.disk.isThere log = false ∧
        ∃ d, w.disk.write log [] = .ok d ∧ w' = { w with disk := d, logs := w.logs ++ [log] } := by
  rw [perform]
  cases w.disk.isThere log with
  | true => simp
  | false => simpa using map_toOption_eq_some

/-! ## Logs and removals -/

/-- The program only tells the user something or starts a program. -/
def IsQuiet : Event → Prop
  | .tell _ => True
  | .launch _ => True
  | _ => False

/-- Neither a temporary log comes nor a file goes. -/
def KeepsLogs : Event → Prop
  | .allocate _ => False
  | .remove _ => False
  | _ => True

/-- An event that removes one of some paths. -/
def Removes (paths : List Text) : Event → Prop
  | .remove p => p ∈ paths
  | _ => False

/-- A temporary log comes at a path of its own, or a file goes. -/
def IsOfLog : Event → Prop
  | .allocate log => ∃ n, log = Action.logPath n
  | .remove _ => True
  | _ => False

theorem Removes.isOfLog {paths : List Text} {e : Event} (h : e.Removes paths) : e.IsOfLog := by
  cases e <;> trivial

theorem IsQuiet.keepsLogs {e : Event} (h : e.IsQuiet) : e.KeepsLogs := by
  cases e <;> first | exact trivial | exact h

/-- The log that an event allocates. -/
def allocated? : Event → Option Text
  | .allocate log => some log
  | _ => none

/-- **The logs that events allocate.** -/
def allocated (es : List Event) : List Text := es.filterMap allocated?

/-- **Whatever file the events remove** is a log that the program owns: one of some logs, or one
that an earlier event has allocated. -/
def OwnRemovals : List Text → List Event → Prop
  | _, [] => True
  | owned, .allocate log :: es => OwnRemovals (owned ++ [log]) es
  | owned, .remove p :: es => p ∈ owned ∧ OwnRemovals owned es
  | owned, _ :: es => OwnRemovals owned es

@[simp] theorem allocated_nil : allocated [] = [] := rfl

theorem mem_allocated {log : Text} : log ∈ allocated es ↔ .allocate log ∈ es := by
  rw [allocated, List.mem_filterMap]
  constructor
  · rintro ⟨e, he, hlog⟩
    cases e with
    | allocate log' => exact Option.some.inj hlog ▸ he
    | _ => cases hlog
  · intro he
    exact ⟨.allocate log, he, rfl⟩

theorem allocated_append (es fs : List Event) :
    allocated (es ++ fs) = allocated es ++ allocated fs := List.filterMap_append

theorem allocated_eq_nil (h : ∀ e ∈ es, allocated? e = none) : allocated es = [] :=
  List.filterMap_eq_nil_iff.2 h

theorem KeepsLogs.allocated? {e : Event} (h : e.KeepsLogs) : allocated? e = none := by
  cases e <;> first | rfl | exact h.elim

theorem Removes.allocated? {paths : List Text} {e : Event} (h : e.Removes paths) :
    allocated? e = none := by
  cases e <;> first | rfl | exact h.elim

theorem OwnRemovals.append {owned : List Text} {es fs : List Event} (h : OwnRemovals owned es)
    (h' : OwnRemovals (owned ++ allocated es) fs) : OwnRemovals owned (es ++ fs) := by
  induction es generalizing owned with
  | nil => simpa using h'
  | cons e es ih =>
    cases e with
    | allocate log => exact ih h (by simpa [allocated, allocated?] using h')
    | remove p => exact ⟨h.1, ih h.2 h'⟩
    | _ => exact ih h h'

theorem OwnRemovals.of_keepsLogs (owned : List Text) {es : List Event}
    (h : ∀ e ∈ es, e.KeepsLogs) : OwnRemovals owned es := by
  induction es with
  | nil => trivial
  | cons e es ih =>
    have he := h e List.mem_cons_self
    have hes := ih fun e he => h e (List.mem_cons_of_mem _ he)
    cases e <;> first | exact hes | exact he.elim

theorem OwnRemovals.of_removes {owned paths : List Text} {es : List Event}
    (h : ∀ e ∈ es, e.Removes paths) (hsub : paths ⊆ owned) : OwnRemovals owned es := by
  induction es with
  | nil => trivial
  | cons e es ih =>
    have he := h e List.mem_cons_self
    have hes := ih fun e he => h e (List.mem_cons_of_mem _ he)
    cases e <;> first | exact ⟨hsub he, hes⟩ | exact he.elim

/-- **Events lead from one world to another**, and whatever file they remove is an own log. -/
structure Leads (host : Host) (owned : List Text) (w : World) (es : List Event) (w' : World) :
    Prop where
  replay : replay host w es = some w'
  own : OwnRemovals owned es

theorem Leads.nil (owned : List Text) (w : World) : Leads host owned w [] w := ⟨rfl, trivial⟩

theorem Leads.append {owned : List Text} {v : World} {fs : List Event}
    (h : Leads host owned w es v) (h' : Leads host (owned ++ allocated es) v fs w') :
    Leads host owned w (es ++ fs) w' :=
  ⟨replay_append h.replay h'.replay, h.own.append h'.own⟩

/-! ## What grows -/

/-- The call that an event launches. -/
def launched? : Event → Option Call
  | .launch call => some call
  | _ => none

/-- **The calls that events launch.** -/
def launched (es : List Event) : List Call := es.filterMap launched?

theorem Removes.launched? {paths : List Text} {e : Event} (h : e.Removes paths) :
    launched? e = none := by
  cases e <;> first | rfl | exact h.elim

theorem launched_eq_nil (h : ∀ e ∈ es, launched? e = none) : launched es = [] :=
  List.filterMap_eq_nil_iff.2 h

/-- The lists of logs and of calls grow by what an event allocates and launches. -/
theorem grows_perform {e : Event} (h : perform host w e = some w') :
    w'.logs = w.logs ++ (allocated? e).toList ∧ w'.calls = w.calls ++ (launched? e).toList := by
  cases e with
  | tell message =>
    obtain rfl := Option.some.inj h
    exact ⟨(List.append_nil _).symm, (List.append_nil _).symm⟩
  | launch call =>
    obtain rfl := Option.some.inj h
    exact ⟨(List.append_nil _).symm, rfl⟩
  | write path content =>
    obtain ⟨d, -, rfl⟩ := perform_write.1 h
    exact ⟨(List.append_nil _).symm, (List.append_nil _).symm⟩
  | makeDirectory path =>
    obtain ⟨d, -, rfl⟩ := perform_makeDirectory.1 h
    exact ⟨(List.append_nil _).symm, (List.append_nil _).symm⟩
  | allocate log =>
    obtain ⟨-, d, -, rfl⟩ := perform_allocate.1 h
    exact ⟨rfl, (List.append_nil _).symm⟩
  | remove path =>
    obtain ⟨d, -, rfl⟩ := perform_remove.1 h
    exact ⟨(List.append_nil _).symm, (List.append_nil _).symm⟩

theorem grows_replay (h : replay host w es = some w') :
    w'.logs = w.logs ++ allocated es ∧ w'.calls = w.calls ++ launched es := by
  induction es generalizing w with
  | nil =>
    obtain rfl := Option.some.inj h
    exact ⟨(List.append_nil _).symm, (List.append_nil _).symm⟩
  | cons e es ih =>
    rw [replay_cons] at h
    obtain ⟨v, hv, hrest⟩ := Option.bind_eq_some_iff.1 h
    obtain ⟨hlogs, hcalls⟩ := grows_perform hv
    have hallocated : allocated (e :: es) = (allocated? e).toList ++ allocated es := by
      rw [allocated, allocated, List.filterMap_cons]
      cases allocated? e <;> rfl
    have hlaunched : launched (e :: es) = (launched? e).toList ++ launched es := by
      rw [launched, launched, List.filterMap_cons]
      cases launched? e <;> rfl
    rw [(ih hrest).1, (ih hrest).2, hlogs, hcalls, hallocated, hlaunched, List.append_assoc,
      List.append_assoc]
    exact ⟨rfl, rfl⟩

theorem logs_perform {e : Event} (h : perform host w e = some w') :
    w'.logs = w.logs ++ (allocated? e).toList := (grows_perform h).1

/-- **The list of logs** grows by what the events allocate. -/
theorem logs_replay (h : replay host w es = some w') : w'.logs = w.logs ++ allocated es :=
  (grows_replay h).1

/-- **The list of calls** grows by what the events launch. -/
theorem calls_replay (h : replay host w es = some w') : w'.calls = w.calls ++ launched es :=
  (grows_replay h).2

end Event

/-! ## What an action does -/

namespace Action

variable {α β : Type}

/-- The world in which an action ends, whether or not a fault stops it. -/
def after (x : Action α) (host : Host) (w : World) : World :=
  match x host w with
  | .ok _ w' => w'
  | .error _ w' => w'

theorem after_of_eq_ok {x : Action α} {host : Host} {w v : World} {a : α}
    (h : x host w = .ok a v) : x.after host w = v := by rw [after, h]

theorem after_of_eq_error {x : Action α} {host : Host} {w v : World} {fault : Fault}
    (h : x host w = .error fault v) : x.after host w = v := by rw [after, h]

/-- **All that an action does in a world** are events of a kind. -/
def DoesAt (P : Event → Prop) (x : Action α) (host : Host) (w : World) : Prop :=
  ∃ es, (∀ e ∈ es, P e) ∧ Event.replay host w es = some (x.after host w)

/-- **All that an action does are events of a kind.** -/
def Does (P : Event → Prop) (x : Action α) : Prop := ∀ host w, x.DoesAt P host w

variable {P Q : Event → Prop} {x : Action α} {f : α → Action β}

theorem bind_apply (x : Action α) (f : α → Action β) (host : Host) (w : World) :
    (x >>= f) host w = match x host w with
      | .ok a w' => f a host w'
      | .error e w' => .error e w' := by
  simp only [Bind.bind, ReaderT.bind, EStateM.bind]
  cases x host w <;> rfl

theorem bind_of_eq_ok {host : Host} {w v : World} {a : α} (h : x host w = .ok a v) :
    (x >>= f) host w = f a host v := by rw [bind_apply, h]

theorem bind_of_eq_error {host : Host} {w v : World} {fault : Fault}
    (h : x host w = .error fault v) : (x >>= f) host w = .error fault v := by rw [bind_apply, h]

/-- An action and then another come to an end if both do. -/
theorem bind_eq_ok {host : Host} {w w' : World} {b : β} : (x >>= f) host w = .ok b w' ↔
    ∃ a v, x host w = .ok a v ∧ f a host v = .ok b w' := by
  rw [bind_apply]
  cases x host w with
  | ok a v => exact ⟨fun h => ⟨a, v, rfl, h⟩, fun ⟨_, _, hx, hf⟩ => by cases hx; exact hf⟩
  | error fault v => exact ⟨fun h => (nomatch h), fun ⟨_, _, hx, _⟩ => (nomatch hx)⟩

/-! ### Running the parts -/

@[simp] theorem pure_apply (a : α) (host : Host) (w : World) :
    (pure a : Action α) host w = .ok a w := rfl

@[simp] theorem throw_apply (fault : Fault) (host : Host) (w : World) :
    (throw fault : Action α) host w = .error fault w := rfl

@[simp] theorem fail_apply (failure : Failure) (host : Host) (w : World) :
    (fail failure : Action α) host w = .error (.failure failure) w := rfl

@[simp] theorem read_apply (host : Host) (w : World) : (read : Action Host) host w = .ok host w :=
  rfl

@[simp] theorem get_apply (host : Host) (w : World) : (get : Action World) host w = .ok w w := rfl

@[simp] theorem set_apply (v : World) (host : Host) (w : World) :
    (set v : Action PUnit) host w = .ok ⟨⟩ v := rfl

@[simp] theorem disk_apply (host : Host) (w : World) : disk host w = .ok w.disk w := rfl

@[simp] theorem setDisk_apply (d : Disk) (host : Host) (w : World) :
    setDisk d host w = .ok () { w with disk := d } := rfl

@[simp] theorem tell_apply (level : Level) (text : Text) (host : Host) (w : World) :
    tell level text host w = .ok () { w with messages := w.messages ++ [⟨level, text⟩] } := rfl

@[simp] theorem ofExcept_ok_apply (a : α) (host : Host) (w : World) :
    ofExcept (.ok a) host w = .ok a w := rfl

@[simp] theorem ofExcept_error_apply (fault : Fault) (host : Host) (w : World) :
    (ofExcept (.error fault) : Action α) host w = .error fault w := rfl

/-- The world after a launch is the same whatever comes of it. -/
theorem launch_apply (call : Call) (host : Host) (w : World) :
    launch call host w = ofExcept (host.outcome w.calls call w.disk) host
      { w with disk := host.left w.calls call w.disk, calls := w.calls ++ [call] } := rfl

theorem after_ofExcept (r : Except Fault α) (host : Host) (w : World) :
    (ofExcept r).after host w = w := by
  cases r <;> rfl

theorem ofExcept_eq_ok {r : Except Fault α} {a : α} {host : Host} {w v : World} :
    ofExcept r host w = .ok a v ↔ r = .ok a ∧ v = w := by
  cases r with
  | error fault => exact ⟨fun h => (nomatch h), fun h => (nomatch h.1)⟩
  | ok b =>
    constructor
    · rintro ⟨⟩
      exact ⟨rfl, rfl⟩
    · rintro ⟨⟨⟩, rfl⟩
      rfl

theorem consult_apply (question : Disk → Except Fault α) (host : Host) (w : World) :
    consult question host w = ofExcept (question w.disk) host w := rfl

theorem consult_eq_ok {question : Disk → Except Fault α} {a : α} {host : Host} {w v : World} :
    consult question host w = .ok a v ↔ question w.disk = .ok a ∧ v = w := by
  rw [consult_apply, ofExcept_eq_ok]

theorem consult_of_eq_error {question : Disk → Except Fault α} {fault : Fault} {host : Host}
    {w : World} (h : question w.disk = .error fault) :
    consult question host w = .error fault w := by
  rw [consult_apply, h]
  rfl

/-! ### Runs that can be computed -/

variable {host : Host} {w : World}

/-- Whether a run gives something that passes a test with the world in which it ends. -/
def gives (test : α → World → Bool) : EStateM.Result Fault World α → Bool
  | .ok a v => test a v
  | .error _ _ => false

/-- Whether a run is stopped by a fault that passes a test with the world in which it ends. -/
def isStopped (test : Fault → World → Bool) : EStateM.Result Fault World α → Bool
  | .ok _ _ => false
  | .error fault v => test fault v

theorem exists_of_gives {test : α → World → Bool} (h : gives test (x host w) = true) :
    ∃ a v, x host w = .ok a v ∧ test a v = true := by
  cases hrun : x host w with
  | ok a v =>
    rw [hrun] at h
    exact ⟨a, v, rfl, h⟩
  | error fault v =>
    rw [hrun] at h
    cases h

theorem exists_of_isStopped {test : Fault → World → Bool} (h : isStopped test (x host w) = true) :
    ∃ fault v, x host w = .error fault v ∧ test fault v = true := by
  cases hrun : x host w with
  | ok a v =>
    rw [hrun] at h
    cases h
  | error fault v =>
    rw [hrun] at h
    exact ⟨fault, v, rfl, h⟩

/-! ### Kinds of events -/

theorem DoesAt.mono (h : x.DoesAt P host w) (hPQ : ∀ e, P e → Q e) : x.DoesAt Q host w :=
  h.imp fun _ hes => ⟨fun e he => hPQ e (hes.1 e he), hes.2⟩

theorem Does.mono (h : x.Does P) (hPQ : ∀ e, P e → Q e) : x.Does Q := fun host w =>
  (h host w).mono hPQ

/-- What keeps the logs leads on without a log. -/
theorem DoesAt.leads (h : x.DoesAt P host w) (hP : ∀ e, P e → e.KeepsLogs) (owned : List Text) :
    ∃ es, Event.Leads host owned w es (x.after host w) ∧ (∀ e ∈ es, P e) ∧
      Event.allocated es = [] := by
  obtain ⟨es, hes, hreplay⟩ := h
  have hkeeps : ∀ e ∈ es, e.KeepsLogs := fun e he => hP e (hes e he)
  exact ⟨es, ⟨hreplay, .of_keepsLogs owned hkeeps⟩, hes,
    Event.allocated_eq_nil fun e he => (hkeeps e he).allocated?⟩

/-- An action that leaves the world as it is does nothing. -/
theorem DoesAt.of_after_eq (h : x.after host w = w) :
    x.DoesAt P host w :=
  ⟨[], fun _ he => absurd he List.not_mem_nil, by rw [h, Event.replay_nil]⟩

/-- An action that is one event does that. -/
theorem DoesAt.of_perform {e : Event} (he : P e)
    (h : Event.perform host w e = some (x.after host w)) : x.DoesAt P host w := by
  refine ⟨[e], fun d hd => List.mem_singleton.1 hd ▸ he, ?_⟩
  rw [Event.replay_cons, h]
  exact Event.replay_nil

/-- **One action and then another**, from the world that the first leaves. -/
theorem DoesAt.bind (hx : x.DoesAt P host w)
    (hf : ∀ a v, x host w = .ok a v → (f a).DoesAt P host v) : (x >>= f).DoesAt P host w := by
  obtain ⟨es, hes, hreplay⟩ := hx
  rw [after] at hreplay
  rw [DoesAt, after, bind_apply]
  cases hrun : x host w with
  | error fault v => exact ⟨es, hes, by rw [hreplay, hrun]⟩
  | ok a v =>
    rw [hrun] at hreplay
    obtain ⟨fs, hfs, hrest⟩ := hf a v hrun
    exact ⟨es ++ fs, fun e he => (List.mem_append.1 he).elim (hes e) (hfs e),
      Event.replay_append hreplay hrest⟩

theorem Does.bind (hx : x.Does P) (hf : ∀ a, (f a).Does P) : (x >>= f).Does P := fun host w =>
  (hx host w).bind fun a v _ => hf a host v

theorem does_pure (a : α) : (pure a : Action α).Does P := fun _ _ => .of_after_eq rfl

theorem does_throw (fault : Fault) : (throw fault : Action α).Does P := fun _ _ =>
  .of_after_eq rfl

theorem does_fail (failure : Failure) : (fail failure : Action α).Does P := does_throw _

theorem does_ofExcept (r : Except Fault α) : (ofExcept r).Does P := by
  cases r with
  | ok a => exact does_pure a
  | error fault => exact does_throw fault

theorem does_disk : disk.Does P := fun _ _ => .of_after_eq rfl

theorem does_read : (read : Action Host).Does P := fun _ _ => .of_after_eq rfl

theorem does_consult (question : Disk → Except Fault α) : (consult question).Does P :=
  .bind (fun _ _ => .of_after_eq rfl) fun _ => does_ofExcept _

theorem does_tell (level : Level) (text : Text) (h : P (.tell ⟨level, text⟩)) :
    (tell level text).Does P := fun _ _ => .of_perform h rfl

theorem does_launch (call : Call) (h : P (.launch call)) : (launch call).Does P := fun host _ =>
  .of_perform h (congrArg some (after_ofExcept _ host _).symm)

theorem does_executable (name : Text) : (executable name).Does P :=
  .bind does_read fun host => by
    split
    · exact does_fail _
    · exact does_pure _
    · exact does_fail _

/-- The path of an executable is the host's. -/
theorem executable_of_eq_ok {name path : Text} {v : World}
    (h : executable name host w = .ok path v) : host.executable name = some path := by
  simp only [executable, bind_apply, read_apply] at h
  cases hpath : host.executable name with
  | none =>
    rw [hpath] at h
    cases h
  | some found =>
    rw [hpath] at h
    cases found with
    | nil => cases h
    | cons c found =>
      cases h
      rfl

theorem andFinally_eq_ok {last : Action Unit} {v : World} {a : α} :
    x.andFinally last host w = .ok a v ↔
      ∃ u, x host w = .ok a u ∧ last host u = .ok () v := by
  rw [andFinally]
  cases x host w with
  | error fault u =>
    dsimp only
    cases last host u <;> exact ⟨fun h => (nomatch h), fun ⟨_, h, _⟩ => (nomatch h)⟩
  | ok b u =>
    dsimp only
    cases hlast : last host u with
    | error other t =>
      refine ⟨fun h => (nomatch h), ?_⟩
      rintro ⟨_, ⟨⟩, h⟩
      cases hlast.symm.trans h
    | ok _ t =>
      constructor
      · rintro ⟨⟩
        exact ⟨u, rfl, hlast⟩
      · rintro ⟨_, ⟨⟩, h⟩
        cases hlast.symm.trans h
        rfl

theorem andFinally_of_eq_ok {last : Action Unit} {v u : World} {a : α}
    (hx : x host w = .ok a v) (hlast : last host v = .ok () u) :
    x.andFinally last host w = .ok a u := by
  simp only [andFinally, hx, hlast]

theorem andFinally_of_eq_error {last : Action Unit} {v u : World} {fault : Fault}
    (hx : x host w = .error fault v) (hlast : last host v = .ok () u) :
    x.andFinally last host w = .error fault u := by
  simp only [andFinally, hx, hlast]

/-- An action ends where what follows it in any case ends. -/
theorem after_andFinally (x : Action α) (last : Action Unit) (host : Host) (w : World) :
    (x.andFinally last).after host w = last.after host (x.after host w) := by
  rw [after, after, after]
  simp only [andFinally]
  cases x host w with
  | ok a v =>
    simp only
    cases last host v <;> rfl
  | error fault v =>
    simp only
    cases last host v <;> rfl

end Action

end BuildLint
