import BuildLint.CMake.CompileUnit

/-!
# Toolchain/Toolchain — the compilers that a build uses

* `Toolchain.ofReply` — one entry of CMake's toolchains document.
* `Toolchains.ofReply` — for each language the first entry that can analyse.
-/

namespace BuildLint

/-- **A toolchain**: a compiler for a language, and the headers it includes by itself. -/
structure Toolchain where
  language : Json
  compiler : Text
  version : Json
  toolset : Text
  host : Text
  target : Text
  implicitIncludes : List IncludePath

/-- **The toolchains of a build**, one for each language. -/
abbrev Toolchains := Keyed Text Toolchain

namespace Toolchain

/-- The compiler that can analyse. -/
def analysingCompiler : Text := "MSVC"

/-- The languages whose sources can be analysed. -/
def languages : List Text := ["C", "CXX"]

/-- The compiler in an entry. -/
def compilerOf (entry : Json) : Json.Access Json := do
  return (← entry.lookup "compiler").orElse (.object [])

/-- The toolchain of an entry whose compiler has a path and a layout. -/
def ofParts (entry compiler : Json) (path : Text) (layout : Layout) : Json.Access Toolchain := do
  let implicit := (← compiler.lookup "implicit").orElse (.object [])
  let directories := (← implicit.lookup "includeDirectories").orElse (.array [])
  let language ← entry.field "language"
  let version := (← compiler.lookup? "version").getD (.string [])
  let includes ← directories.iterate
  return { language, compiler := path, version, toolset := layout.toolset, host := layout.host
           target := layout.target, implicitIncludes := includes.map (⟨·, true⟩) }

/-- **The toolchain of an entry.** -/
def ofReply (entry : Json) : Except Fault Toolchain := do
  let compiler ← Configuration.step (compilerOf entry)
  let path ← Configuration.step (compiler.lookup "path")
  if !path.isTruthy then
    throw (.failure (.toolchain (.noCompilerPath (← Configuration.step (entry.lookup "language")))))
  else
    let path ← Configuration.step path.text
    match Layout.ofPath path with
    | .error error => throw (.failure (.toolchain (.unknownLayout error path)))
    | .ok layout => Configuration.step (ofParts entry compiler path layout)

/-- Whether an entry is for a language and its compiler can analyse. -/
def serves (language : Text) (entry : Json) : Json.Access Bool := do
  match ← entry.lookup "language" with
  | .string l =>
    if l = language then
      match ← (← compilerOf entry).lookup "id" with
      | .string id => return id = analysingCompiler
      | _ => return false
    else return false
  | _ => return false

/-- The first entry that serves a language. -/
def findFor (language : Text) : List Json → Json.Access (Option Json)
  | [] => .ok none
  | entry :: rest => do if ← serves language entry then return some entry else findFor language rest

end Toolchain

namespace Toolchains

/-- The toolchain that a document has for a language, if any. -/
def forLanguage (document : Json) (language : Text) : Except Fault Toolchains := do
  let entries ← Configuration.step do ((← document.lookup? "toolchains").getD (.array [])).iterate
  match ← Configuration.step (Toolchain.findFor language entries) with
  | none => return []
  | some entry => return [(language, ← Toolchain.ofReply entry)]

/-- **The toolchains of a document**: for each language the first entry that serves it. -/
def ofReply (document : Json) : Except Fault Toolchains := do
  match (← Toolchain.languages.mapM (forLanguage document)).flatten with
  | [] => throw (.failure (.toolchain .noneUsable))
  | toolchains => return toolchains

/-- **The toolchains of a build.** -/
def load (d : Disk) (path : Option Text) : Except Fault Toolchains := do
  let path := path.getD []
  if path = [] || !d.isThere (Path.tidy path) then throw (.failure (.toolchain .noReply))
  else ofReply (← ReplyFile.read d path)

end Toolchains

end BuildLint
