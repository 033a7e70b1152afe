import BuildLint.CMake.Query

/-!
# CMake/CompileUnit — the sources that a build compiles

The code model lists configurations; a configuration lists targets, each with a file of its own; a
target has compile groups, and a group has sources.  A **compile unit** is one source in one group.

* `Configuration.select` — the configuration to analyse.
* `CompileUnit.ofGroup` — one source of a group.
* `CompileUnit.ofTarget` — all units of a target.
* `CompileUnit.load` — the units of every target that is not excluded.
-/

namespace BuildLint

/-- **A directory to include from**, and whether its headers are the system's. -/
structure IncludePath where
  path : Json
  isSystem : Bool

/-- **A compile unit**: one source and how it is compiled.  What the build data gives for the
language, the standard, a directory or a definition is kept as it is. -/
structure CompileUnit where
  source : Text
  language : Json
  flags : Text
  standard : Json
  includes : List IncludePath
  defines : List Json

namespace Configuration

/-- Whether a configuration has a name. -/
def isNamed (name : Text) (configuration : Json) : Json.Access Bool := do
  match ← configuration.lookup "name" with
  | .string n => return n = name
  | _ => return false

/-- The configurations that have a name. -/
def named (name : Text) : List Json → Json.Access (List Json)
  | [] => .ok []
  | configuration :: rest => do
    let keep ← isNamed name configuration
    let others ← named name rest
    return if keep then configuration :: others else others

/-- A step into a value, as part of an action that can stop. -/
def step {α : Type} (access : Json.Access α) : Except Fault α := access.mapError .access

/-- How many values there are to go through. -/
def count (v : Json) : Except Fault Nat := return (← step v.iterate).length

/-- **The configuration to analyse**: the only one, which a name that is given has to match, or the
first of several that has the name; an empty name counts as none. -/
def select (configurations : Json) (name : Option Text) : Except Fault Json := do
  let name := name.getD []
  if !configurations.isTruthy then throw (.failure (.metadata .noConfigurations))
  else if 1 < (← count configurations) then
    if name = [] then throw (.failure (.configuration .configurationRequired))
    else
      match ← step (do named name (← configurations.iterate)) with
      | [] => throw (.failure (.configuration .configurationUnknown))
      | configuration :: _ => return configuration
  else
    let only ← step (configurations.element (.int 0))
    if name = [] then return only
    else if ← step (isNamed name only) then return only
    else throw (.failure (.configuration (.configurationMismatch (← step (only.lookup "name")))))

end Configuration

namespace CompileUnit

/-- The values under an optional member that is a list, none if it does not count as present. -/
def listed (v : Json) (key : Text) : Json.Access (List Json) := do
  ((← v.lookup key).orElse (.array [])).iterate

/-- One directory to include from. -/
def includeOf (entry : Json) : Json.Access IncludePath := do
  return ⟨← entry.field "path", ((← entry.lookup? "isSystem").getD (.bool false)).isTruthy⟩

/-- **The unit of one source in a compile group.** -/
def ofGroup (group : Json) (source : Text) : Json.Access CompileUnit := do
  let standard := (← group.lookup "languageStandard").orElse (.object [])
  let language := (← group.lookup? "language").getD (.string [])
  let standard ← standard.lookup "standard"
  let fragments ← (← listed group "compileCommandFragments").mapM (·.field "fragment")
  let flags := Text.joinWith " " (← Json.texts fragments)
  let includes ← (← listed group "includes").mapM includeOf
  let defines ← (← listed group "defines").mapM (·.field "define")
  return { source, language, flags, standard, includes, defines }

/-- A path from the build data, taken from the root of the sources. -/
def sourcePath (root path : Json) : Json.Access Text := do
  return Path.join (← root.text) (← path.text)

/-- The unit of the source with an index. -/
def ofIndex (root sources group index : Json) : Json.Access CompileUnit := do
  let path ← (← sources.element index).field "path"
  ofGroup group (Path.normalize (← sourcePath root path))

/-- The units of a compile group. -/
def ofIndexes (root sources group : Json) : Json.Access (List CompileUnit) := do
  let indexes ← ((← group.lookup? "sourceIndexes").getD (.array [])).iterate
  indexes.mapM (ofIndex root sources group)

/-- **The units of a target**, group by group. -/
def ofTarget (root target : Json) : Json.Access (List CompileUnit) := do
  let sources := (← target.lookup? "sources").getD (.array [])
  return (← (← listed target "compileGroups").mapM (ofIndexes root sources)).flatten

/-- What the code model says about one target: the directory of its sources, and its file. -/
structure TargetEntry where
  directory : Text
  file : Json

/-- An entry for a target. -/
def targetEntry (root directories entry : Json) : Json.Access TargetEntry := do
  let directory ← (← directories.element (← entry.field "directoryIndex")).field "source"
  return ⟨← sourcePath root directory, ← entry.field "jsonFile"⟩

/-- The units of one target of the code model, none if its directory is excluded. -/
def ofEntry (d : Disk) (replyDirectory : Text) (excluded : List Text)
    (root directories entry : Json) : Except Fault (List CompileUnit) :=
  match targetEntry root directories entry with
  | .error _ => .error (.failure (.metadata (.targetEntryMalformed entry)))
  | .ok target =>
    if Path.isCovered excluded target.directory then .ok []
    else
      match target.file with
      | .string file => do
        let document ← ReplyFile.read d (Path.below replyDirectory file)
        match ofTarget root document with
        | .error fault => throw (.failure (.metadata (.targetMalformed target.file fault)))
        | .ok units => return units
      | _ => .error (.access .wrongShape)

/-- What the code model says about one configuration. -/
structure Selection where
  root : Json
  directories : Json
  targets : Json

/-- A fault in the code model: a part that is missing or of the wrong shape is a failure. -/
def codemodelFault : Fault → Fault
  | .access (.absent key) => .failure (.metadata (.codemodelMalformed (.absent key)))
  | .access .wrongShape => .failure (.metadata (.codemodelMalformed .wrongShape))
  | fault => fault

/-- The selected configuration of a code model. -/
def selection (codemodel : Json) (configuration : Option Text) : Except Fault Selection :=
  Except.mapError codemodelFault do
    let root ← Configuration.step do (← codemodel.field "paths").field "source"
    let configurations ← Configuration.step (codemodel.field "configurations")
    let selected ← Configuration.select configurations configuration
    let directories ← Configuration.step (selected.field "directories")
    let targets ← Configuration.step (selected.field "targets")
    return { root, directories, targets }

/-- **The compile units of a build**, target by target. -/
def load (d : Disk) (codemodel : Option Text) (configuration : Option Text)
    (excluded : List Text) : Except Fault (List CompileUnit) := do
  let path := codemodel.getD []
  if path = [] || !d.isThere (Path.tidy path) then throw (.failure (.metadata .noCodemodel))
  else
    let chosen ← selection (← ReplyFile.read d path) configuration
    let entries ← Configuration.step chosen.targets.iterate
    let units ← entries.mapM
      (ofEntry d (Path.tidyParent path) excluded chosen.root chosen.directories)
    return units.flatten

end CompileUnit

end BuildLint
