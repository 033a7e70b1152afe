import BuildLint.Console.Switches

/-!
# Main — the command line

The program runs on a disk that holds what its arguments can name, and what it changes there is then
done outside.  It starts no other program from here: a command that has to start one ends with the
failure of an executable that is not there, while reports are merged as ever.
-/

namespace BuildLint

namespace Console

/-- What an argument can name: all of it, or the value behind a switch. -/
def names (argument : Text) : List Text :=
  let attached := (argument.cutAt? '=').map (·.2)
  ([argument, argument.drop 2] ++ attached.toList).filter (· != [])

/-- The paths to look at for a name: the directory above it, itself, and the settings below it. -/
def around (name : Text) : List Text :=
  [Path.tidyParent name, name, Path.below name Config.fileName]

/-- What stands at a path, if it can be seen: a directory cannot be read as a file. -/
def inspect (path : String) : IO (Option Entry) := do
  try
    return some (.file (← IO.FS.readBinFile path).toList)
  catch _ =>
    try
      let _ ← IO.FS.realPath path
      return some .directory
    catch _ => return none

/-- Take what stands at a path onto a disk. -/
def take (d : Disk) (path : Text) : IO Disk := do
  match ← inspect path.toString with
  | some entry => return d.putWithParents (Program.realPath d path) entry
  | none => return d

/-- The paths right below a directory, none if it cannot be listed. -/
def listed (path : Text) : IO (List Text) := do
  try
    let entries ← (← IO.FS.realPath path.toString).readDir
    return entries.toList.map fun e => Path.below path e.fileName
  catch _ => return []

/-- Do what changed between two disks: files and directories that are new, and files that went. -/
def settle (before after : Disk) : IO Unit := do
  for (l, entry) in after.entries do
    if before.find? l != some entry then
      let path := (Disk.pathOf l).toString
      match entry with
      | .file content => IO.FS.writeBinFile path ⟨content.toArray⟩
      | .directory => IO.FS.createDirAll path
  for (l, entry) in before.entries do
    if after.find? l = none && entry != .directory then
      IO.FS.removeFile (Disk.pathOf l).toString

/-- The variables of the environment that the program reads. -/
def environment : IO Environment := do
  let mut found := []
  for name in ["GITHUB_WORKSPACE", "CAExcludePath", "INCLUDE", "LIB"] do
    if let some value ← IO.getEnv name then
      found := found ++ [((name : Text), (value : Text))]
  return found

end Console

end BuildLint

open BuildLint in
/-- **The command line.** -/
def main (arguments : List String) : IO UInt32 := do
  let given := arguments.map Text.ofString
  let environment ← Console.environment
  let here := Path.Form.ofText (← IO.currentDir).toString
  let named := given.flatMap Console.names
  let roots : List Text := [".", environment.get "GITHUB_WORKSPACE"]
  let seen := (roots ++ named).flatMap Console.around ++ (← named.mapM Console.listed).flatten
  let before ← seen.foldlM Console.take ⟨here.names, []⟩
  let host : Host :=
    { environment
      promptScript := "vc_env.bat"
      executable := fun _ => none
      respond := fun _ _ d => (.notStarted FileProblem.notFound.text, d)
      decode := fun bytes => (Utf8.decode bytes).map Text.unifyLineEnds
      logLimit := none }
  let ending := Program.run Program.libraries given host ⟨before, [], [], []⟩
  Console.settle before ending.world.disk
  (← IO.getStdout).write ⟨(Utf8.encode ending.output).toArray⟩
  return ending.exitCode.toNat.toUInt32
