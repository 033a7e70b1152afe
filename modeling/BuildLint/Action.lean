import BuildLint.Failure

/-!
# Action — what the program does to its surroundings

A **host** is what stays the same during a run: the environment, where executables are, and how
programs behave when they are started.  A **world** is what changes: the disk, the temporary logs,
the calls made so far and the messages for the user.  An **action** reads the one and changes the
other; when a fault stops it, the world stays as it was at that moment.

* `launch` — start a program and wait for its outcome, which not every call has.
* `allocateLog`, `discardLogs` — temporary logs.
* `orElseUndo`, `andFinally` — clearing up after a fault, and in any case.
-/

namespace BuildLint

/-- **Environment variables**, each name once. -/
abbrev Environment := Keyed Text Text

/-- The value of a variable, empty if there is none. -/
def Environment.get (name : Text) (env : Environment) : Text := (env.get? name).getD []

/-- **A call of a program**: its arguments, the program's own path first, and the directory and
environment if they are not those of the caller. -/
structure Call where
  arguments : List Text
  directory : Option Text
  environment : Option Environment

/-- **What the system makes of a call**: it does not pass the call on, the program cannot be
started, or the program ends and has printed bytes. -/
inductive Reply where
  | refused (fault : CallFault)
  | notStarted (reason : Text)
  | ended (exitCode : Int) (output errors : Bytes)

/-- **What came of a call**, with what the program has printed as texts. -/
structure Outcome where
  exitCode : Int
  output : Text
  errors : Text

namespace Outcome

/-- A call succeeds with exit code zero. -/
def ok (o : Outcome) : Bool := o.exitCode = 0

/-- The exit code that stands for a program that could not be started. -/
def notStarted : Int := 127

end Outcome

/-- How much a message matters. -/
inductive Level where
  | info
  | warning
deriving DecidableEq

/-- A message for the user. -/
structure Message where
  level : Level
  text : Text

/-- **What stays the same during a run.**  A program's behaviour may depend on the calls before its
own and on the disk it finds, and it leaves a disk behind.  What programs print is text only if the
host can decode it. -/
structure Host where
  environment : Environment
  promptScript : Text
  executable : Text → Option Text
  respond : List Call → Call → Disk → Reply × Disk
  decode : Bytes → Option Text
  logLimit : Option Nat

namespace Host

/-- **The disk that a program leaves behind.**  It cannot move the caller to another directory. -/
def left (host : Host) (before : List Call) (call : Call) (d : Disk) : Disk :=
  { (host.respond before call d).2 with here := d.here }

/-- What a reply comes to.  A program that cannot be started has an outcome all the same; a call
that is not passed on has none, and neither has a program that prints what is no text. -/
def outcomeOf (host : Host) : Reply → Except Fault Outcome
  | .refused fault => .error (.call fault)
  | .notStarted reason => .ok ⟨Outcome.notStarted, [], reason⟩
  | .ended exitCode output errors =>
    match host.decode output, host.decode errors with
    | some output, some errors => .ok ⟨exitCode, output, errors⟩
    | _, _ => .error .notText

/-- **The outcome of a call**, or the fault that it stops with. -/
def outcome (host : Host) (before : List Call) (call : Call) (d : Disk) : Except Fault Outcome :=
  host.outcomeOf (host.respond before call d).1

end Host

/-- **What changes during a run.** -/
structure World where
  disk : Disk
  logs : List Text
  calls : List Call
  messages : List Message

/-- **An action** on the world. -/
abbrev Action := ReaderT Host (EStateM Fault World)

namespace Action

/-- Stop with a failure. -/
def fail {α : Type} (f : Failure) : Action α := throw (.failure f)

/-- Go on with a result, or stop with its fault. -/
def ofExcept {α : Type} : Except Fault α → Action α
  | .ok a => pure a
  | .error e => throw e

/-- Ask the disk, without changing it. -/
def consult {α : Type} (question : Disk → Except Fault α) : Action α := do
  ofExcept (question (← get).disk)

/-- The disk as it is now. -/
def disk : Action Disk := return (← get).disk

/-- Let the disk be another. -/
def setDisk (d : Disk) : Action Unit := modify fun w => { w with disk := d }

/-- Tell the user something. -/
def tell (level : Level) (text : Text) : Action Unit :=
  modify fun w => { w with messages := w.messages ++ [⟨level, text⟩] }

/-! ## Programs -/

/-- **Start a program** and wait for its outcome. -/
def launch (call : Call) : Action Outcome := fun host world =>
  ofExcept (host.outcome world.calls call world.disk) host
    { world with disk := host.left world.calls call world.disk, calls := world.calls ++ [call] }

/-- The path of an executable, which has to be there. -/
def executable (name : Text) : Action Text := do
  match (← read).executable name with
  | some [] => fail (.configuration (.noExecutable name))
  | some path => pure path
  | none => fail (.configuration (.noExecutable name))

/-! ## Temporary logs -/

/-- The path of a temporary log. -/
def logPath (n : Nat) : Text := "/tmp/log" ++ Decimal.ofNat n ++ ".sarif"

/-- The first log path from a number on at which nothing stands. -/
def freshLogPath (d : Disk) (n : Nat) : Text :=
  let candidates := (List.range (d.entries.length + 1)).map fun k => logPath (n + k)
  (candidates.find? fun p => !d.isThere p).getD (logPath n)

/-- **Allocate a temporary log**: a new and empty file. -/
def allocateLog : Action Text := do
  let world ← get
  if (← read).logLimit.any (· ≤ world.logs.length) then
    fail (.synthesis (.noLog ⟨.noSpace, none⟩))
  else
    let path := freshLogPath world.disk world.logs.length
    match world.disk.write path [] with
    | .error fault => fail (.synthesis (.noLog fault))
    | .ok disk =>
      set { world with disk, logs := world.logs ++ [path] }
      pure path

/-- Take a log away if it is still there. -/
def discardLog (path : Text) : Action Unit := do
  let d ← disk
  if d.isThere path then
    match d.remove path with
    | .error fault => throw (.file fault)
    | .ok d => setDisk d

/-- **Take away whichever logs are still there.** -/
def discardLogs (paths : List Text) : Action Unit := paths.forM discardLog

/-! ## Clearing up -/

/-- Run an action; if a fault stops it, run another and stop with the same fault. -/
def orElseUndo {α : Type} (action : Action α) (undo : Action Unit) : Action α := fun host world =>
  match action host world with
  | .ok a world => .ok a world
  | .error fault world =>
    match undo host world with
    | .ok _ world => .error fault world
    | .error other world => .error other world

/-- Run an action and then, whether or not a fault stopped it, another. -/
def andFinally {α : Type} (action : Action α) (last : Action Unit) : Action α := fun host world =>
  match action host world with
  | .ok a world =>
    match last host world with
    | .ok _ world => .ok a world
    | .error other world => .error other world
  | .error fault world =>
    match last host world with
    | .ok _ world => .error fault world
    | .error other world => .error other world

end Action

end BuildLint
