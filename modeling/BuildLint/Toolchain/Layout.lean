import BuildLint.Path.Drive

/-!
# Toolchain/Layout — what the place of a compiler says about it

A Visual Studio installation keeps its compilers at
`…/MSVC/<toolset>/bin/Host<host>/<target>/cl.exe`.  The toolset and the two architectures are read
off that path, counted from its end, with slashes or with backslashes.
-/

namespace BuildLint

/-- **What the place of a compiler says**: its toolset, the architecture it runs on and the one it
compiles for. -/
structure Layout where
  toolset : Text
  host : Text
  target : Text
deriving DecidableEq

/-- **Why a path is no place of a compiler.** -/
inductive LayoutError where
  | pathTooShort
  | unknownHostDirectory
deriving DecidableEq

/-- A layout error in words. -/
def LayoutError.text : LayoutError → Text
  | .pathTooShort => "compiler path is too short for a Visual Studio layout"
  | .unknownHostDirectory => "unknown MSVC toolset layout"

namespace Layout

/-- How many names stand between the compiler's name and the toolset's, both counted in. -/
def toolsetLevels : Nat := 4

/-- The host architecture that a directory is named for. -/
def hostOf? (directory : Text) : Option Text :=
  if directory = "Hostx86" then some "x86"
  else if directory = "Hostx64" then some "x64"
  else none

/-- The names of a compiler's normal path, last one first. -/
def components (path : Text) : List Text :=
  let spelling := Path.Spelling.ofPath path
  spelling.namesFromEnd (spelling.normalize path)

/-- **The layout of a compiler path.** -/
def ofPath (path : Text) : Except LayoutError Layout :=
  match components path with
  | _ :: target :: host :: _ :: toolset :: _ =>
    match hostOf? host with
    | some host => .ok ⟨toolset, host, target⟩
    | none => .error .unknownHostDirectory
  | _ => .error .pathTooShort

end Layout

end BuildLint
