import BuildLint.Action
import BuildLint.Json.Writer

/-!
# CMake/Query — asking CMake for its data, and reading an answer

CMake answers the queries it finds in its API directory.  This client's query asks for the code
model and the toolchains; the file is written unless it already says the same.

CMake answers with JSON files.  Reading one fails if the file is missing, cannot be opened or is
malformed; bytes that are no text and numbers that are too long stop the action as they are.

* `Query.create` — the query, put in place.
* `ReplyFile.read` — one document of an answer.
-/

namespace BuildLint

namespace Query

/-- The name under which this client asks and is answered. -/
def clientName : Text := "client-msvc-ca-action"

/-- The name of the query file, and of its answer. -/
def fileName : Text := "query.json"

/-- A request for one kind of data in one version. -/
def request (kind : Text) (version : Int) : Json :=
  .object [("kind", .string kind), ("version", .int version)]

/-- **What is asked for.** -/
def document : Json :=
  .object [("requests", .array [request "codemodel" 2, request "toolchains" 1])]

/-- The directory of this client's query. -/
def directory (apiDirectory : Text) : Text :=
  Path.below (Path.below (Path.tidy apiDirectory) "query") clientName

/-- The query file. -/
def file (apiDirectory : Text) : Text := Path.below (directory apiDirectory) fileName

/-- Whether a file says what is to be asked; a file that cannot be read or is malformed does not,
but bytes that are no text stop the action. -/
def isInPlace (d : Disk) (path : Text) : Except Fault Bool :=
  match d.readText path with
  | .error (.file _) => .ok false
  | .error .notText => .error .notText
  | .ok t =>
    match Json.read t with
    | .ok v => .ok (v.same document)
    | .error fault => if fault.problem = .tooManyDigits then .error .badNumber else .ok false

/-- Make a directory whose parents are there; one that is already there will do. -/
def makeOne (path : Text) : EStateM FileFault Disk Unit := do
  let d ← get
  match d.makeDirectory path with
  | .ok d => set d
  | .error fault => if d.isDirectory path then pure () else throw fault

/-- Make a directory and whatever is missing above it; its names are given last one first. -/
def makeAll (slashes : Nat) : List Text → EStateM FileFault Disk Unit
  | [] => makeOne (Path.Form.render ⟨slashes, []⟩)
  | name :: above => do
    let path := Path.Form.render ⟨slashes, (name :: above).reverse⟩
    let d ← get
    match d.makeDirectory path with
    | .ok d => set d
    | .error fault =>
      if fault.problem = .notFound then
        makeAll slashes above
        makeOne path
      else if d.isDirectory path then pure ()
      else throw fault

/-- Write the query anew. -/
def renew (apiDirectory : Text) : EStateM FileFault Disk Unit := do
  let form := Path.Form.ofText (directory apiDirectory)
  makeAll form.slashes form.names.reverse
  match (← get).write (file apiDirectory) (Utf8.encode document.write) with
  | .ok d => set d
  | .error fault => throw fault

/-- **Put the query in place**, and give its path. -/
def create (apiDirectory : Text) : Action Text := do
  let path := file apiDirectory
  let d ← Action.disk
  let done ← if d.isThere path then Action.consult (isInPlace · path) else pure false
  if !done then
    match renew apiDirectory d with
    | .ok _ d => Action.setDisk d
    | .error fault d =>
      Action.setDisk d
      Action.fail (.metadata (.queryUnwritable fault))
  pure path

end Query

namespace ReplyFile

/-- **The document in a reply file.** -/
def read (d : Disk) (path : Text) : Except Fault Json :=
  let path := Path.tidy path
  if !d.isThere path then .error (.failure (.metadata (.noReplyFile path)))
  else
    match d.readText path with
    | .error (.file fault) => .error (.failure (.metadata (.replyUnreadable path fault)))
    | .error .notText => .error .notText
    | .ok t =>
      match Json.read t with
      | .ok document => .ok document
      | .error fault =>
        if fault.problem = .tooManyDigits then .error .badNumber
        else .error (.failure (.metadata (.replyMalformed path fault)))

end ReplyFile

end BuildLint
