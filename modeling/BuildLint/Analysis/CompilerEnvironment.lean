import BuildLint.Analysis.Arguments

/-!
# Analysis/CompilerEnvironment — the environment that a compiler analyses in

A compiler finds the standard headers and libraries through two variables, `INCLUDE` and `LIB`.  The
Visual Studio command prompt knows their values; a script runs it and prints them.  What comes from
there is searched but never analysed.

* `ofOutput` — the two variables in the script's output.
* `prompt` — the two variables of a toolchain.
* `shared` — the environment of every source that a compiler compiles.
-/

namespace BuildLint

/-- **What the command prompt knows**: where headers and where libraries are. -/
structure PromptVariables where
  headers : Text
  libraries : Text

namespace CompilerEnvironment

/-- Take one line of output in: a variable is set where its name stands before the first equals
sign. -/
def readLine (v : PromptVariables) (line : Text) : PromptVariables :=
  match line.cutAt? '=' with
  | some (name, value) =>
    if name = "INCLUDE" then { v with headers := value }
    else if name = "LIB" then { v with libraries := value }
    else v
  | none => v

/-- **The variables in the script's output**; the last line for a name counts. -/
def ofOutput (output : Text) : PromptVariables := (Text.lines output).foldl readLine ⟨[], []⟩

/-- The path of the command prompt's setup. -/
def promptPath (t : Toolchain) : Text :=
  Path.join (Path.levelsUp 7 t.compiler) "Auxiliary/Build/vcvarsall.bat"

/-- The architectures as the command prompt wants them. -/
def architectures (t : Toolchain) : Text :=
  if t.host = t.target then t.host else t.host ++ "_" ++ t.target

/-- The call of the script. -/
def promptCall (script : Text) (t : Toolchain) : Call :=
  ⟨[script, promptPath t, architectures t, t.toolset], none, none⟩

/-- **The variables of a toolchain**, from the command prompt. -/
def prompt (t : Toolchain) : Action PromptVariables := do
  Action.tell .info "Extracting environment from VS Command Prompt"
  let outcome ← Action.launch (promptCall (← read).promptScript t)
  if outcome.ok then return ofOutput outcome.output
  else Action.fail (.synthesis .promptFailed)

/-- Two lists of directories as one; an empty one adds nothing. -/
def append (base more : Text) : Text :=
  Text.joinWith ";" ([base, more].filter (· != []))

/-- What a compiler is given without the command prompt. -/
def inherited (env : Environment) : Environment :=
  [("CAEmitSarifLog", "1"), ("CAExcludePath", env.get "CAExcludePath"),
    ("INCLUDE", env.get "INCLUDE"), ("LIB", env.get "LIB")]

/-- What a compiler is given with the variables of the command prompt. -/
def extended (env : Environment) (v : PromptVariables) : Environment :=
  [("CAEmitSarifLog", "1"), ("CAExcludePath", append (env.get "CAExcludePath") v.headers),
    ("INCLUDE", append (env.get "INCLUDE") v.headers),
    ("LIB", append (env.get "LIB") v.libraries)]

/-- **The environment shared by all sources of a compiler**, on top of another. -/
def shared (t : Toolchain) (options : Options) (env : Environment) : Action Environment := do
  if options.loadCompilerEnvironment then return extended env (← prompt t)
  else return inherited env

end CompilerEnvironment

end BuildLint
