import BuildLint.CMake.Query
import BuildLint.CMake.Version

/-!
# CMake/Index — the index of a reply

The index of CMake's reply names the documents that answer each client.  Of several indexes the one
with the greatest name is the newest.

* `newest?` — the newest index of a reply directory.
* `ofReply` — the documents that the index names for this client.
* `Index.request` — query, let CMake answer, and load the index.
-/

namespace BuildLint

/-- **What an index says**: the documents with the code model and the toolchains, and CMake's
version. -/
structure Index where
  codemodel : Option Text
  toolchains : Option Text
  version : Text
  path : Text

namespace Index

/-- The greater of two names, in the order of code points. -/
def greater (a b : Text) : Text := if a < b then b else a

/-- The greatest of some names. -/
def greatest? : List Text → Option Text
  | [] => none
  | name :: rest => some (rest.foldl greater name)

/-- **The newest index** of a reply directory. -/
def newest? (d : Disk) (replyDirectory : Text) : Option Text :=
  let replyDirectory := Path.tidy replyDirectory
  if d.isDirectory replyDirectory then
    (greatest? ((d.names replyDirectory).filter (·.startsWith "index-"))).map
      (Path.below replyDirectory)
  else none

/-- The first of some responses that answers a kind of request and names a document. -/
def responsePath? (replyDirectory kind : Text) : List Json → Json.Access (Option Text)
  | [] => .ok none
  | response :: rest => do
    match ← response.lookup "kind" with
    | .string k =>
      if k = kind then
        let document ← response.lookup "jsonFile"
        if document.isTruthy then
          return some (Path.below (Path.tidy replyDirectory) (← document.text))
        else responsePath? replyDirectory kind rest
      else responsePath? replyDirectory kind rest
    | _ => responsePath? replyDirectory kind rest

/-- The responses to this client, and CMake's version. -/
def parts (document : Json) : Json.Access (Json × Json) := do
  let responses ← (← (← (← document.field "reply").field Query.clientName).field
    Query.fileName).field "responses"
  let version ← (← (← document.field "cmake").field "version").field "string"
  return (responses, version)

/-- **What an index document says.** -/
def ofReply (replyDirectory : Text) (document : Json) (path : Text) : Except Fault Index :=
  match parts document with
  | .error fault => .error (.failure (.metadata (.noResponses fault)))
  | .ok (responses, version) =>
    let read : Json.Access Index := do
      let codemodel ← responsePath? replyDirectory "codemodel" (← responses.iterate)
      let toolchains ← responsePath? replyDirectory "toolchains" (← responses.iterate)
      return ⟨codemodel, toolchains, version.plain, path⟩
    read.mapError .access

/-- **Load the newest index** of an API directory. -/
def load (apiDirectory : Text) : Action Index := do
  let replyDirectory := Path.below (Path.tidy apiDirectory) "reply"
  match newest? (← Action.disk) replyDirectory with
  | none => Action.fail (.metadata .noIndex)
  | some path =>
    let document ← Action.consult (ReplyFile.read · path)
    let index ← Action.ofExcept (ofReply replyDirectory document path)
    Action.tell .info ("Loaded '" ++ path ++ "' reply generated from CMake API.")
    return index

/-- Whether a directory is unnamed, missing or without entries. -/
def isEmptyDirectory (d : Disk) (path : Text) : Bool :=
  path = [] || !d.isDirectory (Path.tidy path) || (d.names (Path.tidy path)).isEmpty

/-- Let CMake answer the queries of a build directory. -/
def reconfigure (buildRoot : Text) : Action Unit := do
  let cmake ← Action.executable "cmake"
  Action.tell .info "Running CMake to generate reply data."
  let outcome ← Action.launch ⟨[cmake, buildRoot], none, none⟩
  if !outcome.ok then
    Action.fail (.metadata (.reconfigureFailed outcome.exitCode (Text.trim outcome.errors)))

/-- The directory below a build directory where CMake is asked and answers. -/
def apiDirectory (buildRoot : Text) : Text := Path.below (Path.tidy buildRoot) ".cmake/api/v1"

/-- **Query a build directory** and load the answer's index. -/
def request (buildRoot : Text) : Action Index := do
  if isEmptyDirectory (← Action.disk) buildRoot then
    Action.fail (.configuration .emptyBuildRoot)
  else
    let _ ← Query.create (apiDirectory buildRoot)
    reconfigure buildRoot
    let index ← load (apiDirectory buildRoot)
    Action.ofExcept (Version.check index.version Version.minimum)
    return index

end Index

end BuildLint
