import BuildLint.Analysis.CompilerEnvironment

/-!
# Analysis/Invocation — one call of a compiler for every source

* `Table.build` — arguments and environment of each compiler, worked out once.
* `Invocation.ofUnits` — a call for every source that has a toolchain, each with a log of its own.
* `Invocation.run` — make one of these calls.
-/

namespace BuildLint

/-- **What all sources of a compiler share.** -/
structure Shared where
  compiler : Text
  arguments : List Text
  environment : Environment

/-- **The toolchains of a build**, and what the sources of each compiler share. -/
structure Table where
  toolchains : Toolchains
  shared : List Shared

namespace Table

/-- What the sources of a compiler share. -/
def find? (compiler : Text) : List Shared → Option Shared
  | [] => none
  | s :: rest => if s.compiler = compiler then some s else find? compiler rest

/-- Add what the sources of a toolchain's compiler share, unless it is known. -/
def extend (options : Options) (env : Environment) (known : List Shared) (t : Toolchain) :
    Action (List Shared) :=
  match find? t.compiler known with
  | some _ => return known
  | none => do
    let arguments ← Arguments.shared t options
    let environment ← CompilerEnvironment.shared t options env
    return known ++ [⟨t.compiler, arguments, environment⟩]

/-- What the sources of each compiler share, toolchain after toolchain. -/
def extendAll (options : Options) (env : Environment) (known : List Shared) :
    Toolchains → Action (List Shared)
  | [] => return known
  | (_, t) :: rest => do extendAll options env (← extend options env known t) rest

/-- **The table of a build's toolchains.** -/
def build (toolchains : Toolchains) (options : Options) (env : Environment) : Action Table :=
  return ⟨toolchains, ← extendAll options env [] toolchains⟩

end Table

/-- **A call of a compiler** that analyses one source, on top of the program's environment. -/
structure Invocation where
  source : Text
  compiler : Text
  arguments : List Text
  environment : Environment
  log : Text

namespace Invocation

/-- The toolchain for a unit's language; a language that is a list or an object is no key. -/
def toolchainFor? (toolchains : Toolchains) (u : CompileUnit) : Json.Access (Option Toolchain) :=
  match u.language with
  | .string language => .ok (toolchains.get? language)
  | .array _ => .error .wrongShape
  | .object _ => .error .wrongShape
  | _ => .ok none

/-- The arguments and the environment that a compiler's sources share. -/
def sharedOf (table : Table) (compiler : Text) : Json.Access Shared :=
  match Table.find? compiler table.shared with
  | some s => .ok s
  | none => .error (.absent (.string compiler))

/-- The call for a unit that has a toolchain. -/
def ofUnit (table : Table) (options : Options) (u : CompileUnit) (t : Toolchain) :
    Action Invocation := do
  let arguments ← Action.ofExcept (Arguments.ofUnit u t options)
  let log ← Action.allocateLog
  let shared ← Action.ofExcept (Configuration.step (sharedOf table t.compiler))
  return { source := u.source, compiler := t.compiler
           arguments := arguments ++ ["/analyze:log" ++ log] ++ shared.arguments
           environment := shared.environment, log }

/-- The calls for some units, after those `before`.  A fault leaves none of the logs. -/
def extend (table : Table) (options : Options) (before : List Invocation) :
    List CompileUnit → Action (List Invocation)
  | [] => return before
  | u :: rest => do
    let undo := Action.discardLogs (before.map (·.log))
    match ← Action.orElseUndo
        (Action.ofExcept (Configuration.step (toolchainFor? table.toolchains u))) undo with
    | none => extend table options before rest
    | some t =>
      let invocation ← Action.orElseUndo (ofUnit table options u t) undo
      extend table options (before ++ [invocation]) rest

/-- **The calls for some units**, one for each that has a toolchain. -/
def ofUnits (units : List CompileUnit) (table : Table) (options : Options) :
    Action (List Invocation) :=
  extend table options [] units

/-- **The calls for a build**: its units, its table, and a call for each unit. -/
def ofBuild (codemodel : Option Text) (toolchains : Toolchains) (options : Options)
    (env : Environment) : Action (List Invocation) := do
  let units ← Action.consult
    (CompileUnit.load · codemodel options.buildConfiguration options.ignoredTargetPaths)
  let table ← Table.build toolchains options env
  ofUnits units table options

/-- **Make the call** in a directory, and show what it prints. -/
def run (i : Invocation) (directory : Text) : Action Outcome := do
  let env := (← read).environment.overlay i.environment
  let outcome ← Action.launch ⟨i.compiler :: i.arguments, some directory, some env⟩
  if !Text.isBlank outcome.output then Action.tell .info (Text.trimRight outcome.output)
  return outcome

end Invocation

end BuildLint
