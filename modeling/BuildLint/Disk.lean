import BuildLint.Keyed
import BuildLint.Numeral.Decimal
import BuildLint.Path.Lexical
import BuildLint.Text.Blank
import BuildLint.Text.Quoted
import BuildLint.Text.Utf8

/-!
# Disk — files and directories

A disk is a list of entries, each at a **location**: its names from the root.  A path is followed
name by name, so every directory on the way has to be there, also one that a `..` leaves again.

* `find?`, `put` and `erase` — the entry at a location; `find?_put_self`, `find?_put_of_ne`,
  `find?_erase_self` and `find?_erase_of_ne` say how they meet.
* `locate` — the location that a path names.
* `look?`, `isThere`, `isFile`, `isDirectory` — what stands at a path.
* `readText`, `write`, `makeDirectory`, `remove` — the operations, each with its faults.
-/

namespace BuildLint

/-- The names from the root to an entry. -/
abbrev Location := List Text

/-- **What stands at a location.** -/
inductive Entry where
  | file (content : Bytes)
  | directory
deriving DecidableEq

/-- **A disk**, together with the directory that relative paths start from. -/
structure Disk where
  here : Location
  entries : Keyed Location Entry

/-- **Why an operation on a path fails.** -/
inductive FileProblem where
  | notFound
  | alreadyThere
  | notDirectory
  | isDirectory
  | noSpace
deriving DecidableEq

/-- The number under which the system knows a problem. -/
def FileProblem.number : FileProblem → Nat
  | .notFound => 2
  | .alreadyThere => 17
  | .notDirectory => 20
  | .isDirectory => 21
  | .noSpace => 28

/-- A problem in the system's words. -/
def FileProblem.text : FileProblem → Text
  | .notFound => "No such file or directory"
  | .alreadyThere => "File exists"
  | .notDirectory => "Not a directory"
  | .isDirectory => "Is a directory"
  | .noSpace => "No space left on device"

/-- **A failed operation**: the problem, and the path if one was named. -/
structure FileFault where
  problem : FileProblem
  path : Option Text
deriving DecidableEq

/-- A failed operation in the system's words. -/
def FileFault.text (f : FileFault) : Text :=
  "[Errno " ++ Decimal.ofNat f.problem.number ++ "] " ++ f.problem.text ++
    match f.path with
    | some p => ": " ++ p.quoted
    | none => []

/-- **Why a text cannot be read** from a file. -/
inductive ReadFault where
  | file (fault : FileFault)
  | notText

namespace Disk

/-! ## Entries -/

/-- **The entry at a location**; the root is always a directory. -/
def find? (d : Disk) (l : Location) : Option Entry :=
  if l = [] then some .directory else d.entries.get? l

/-- Let an entry stand at a location. -/
def put (d : Disk) (l : Location) (e : Entry) : Disk := { d with entries := d.entries.set l e }

/-- Let nothing stand at a location. -/
def erase (d : Disk) (l : Location) : Disk := { d with entries := d.entries.erase l }

theorem find?_put_self (d : Disk) {l : Location} (h : l ≠ []) (e : Entry) :
    (d.put l e).find? l = some e := by
  simp [find?, put, h, Keyed.get?_set_self]

theorem find?_put_of_ne (d : Disk) {l k : Location} (h : k ≠ l) (e : Entry) :
    (d.put l e).find? k = d.find? k := by
  simp [find?, put, Keyed.get?_set_of_ne h]

theorem find?_erase_self (d : Disk) {l : Location} (h : l ≠ []) : (d.erase l).find? l = none := by
  simp only [find?, erase, if_neg h, Keyed.get?_erase_self]

theorem find?_erase_of_ne (d : Disk) {l k : Location} (h : k ≠ l) :
    (d.erase l).find? k = d.find? k := by
  simp only [find?, erase, Keyed.get?_erase_of_ne h]

/-! ## Paths -/

/-- Follow names from a location; only a directory can be left for another entry. -/
def follow (d : Disk) (base : Location) : List Text → Except FileProblem Location
  | [] => .ok base
  | name :: rest =>
    match d.find? base with
    | none => .error .notFound
    | some (.file _) => .error .notDirectory
    | some .directory =>
      if Path.isName name then
        follow d (if name = ".." then base.dropLast else base ++ [name]) rest
      else follow d base rest

/-- **The location that a path names**; whether something stands there is another question. -/
def locate (d : Disk) (p : Text) : Except FileProblem Location :=
  if p = [] then .error .notFound
  else d.follow (if Path.isAbsolute p then [] else d.here) (Path.parts p)

/-- What stands at a path, if anything does. -/
def look? (d : Disk) (p : Text) : Option Entry :=
  match d.locate p with
  | .ok l => d.find? l
  | .error _ => none

/-- Whether anything stands at a path. -/
def isThere (d : Disk) (p : Text) : Bool := (d.look? p).isSome

/-- Whether a directory stands at a path. -/
def isDirectory (d : Disk) (p : Text) : Bool := d.look? p == some .directory

/-- Whether a file stands at a path. -/
def isFile (d : Disk) (p : Text) : Bool :=
  match d.look? p with
  | some (.file _) => true
  | _ => false

/-- The names of the entries right below a location, in no particular order. -/
def namesAt (d : Disk) (l : Location) : List Text :=
  d.entries.filterMap fun e => if e.1.dropLast = l then e.1.getLast? else none

/-- The names of the entries of the directory at a path. -/
def names (d : Disk) (p : Text) : List Text :=
  match d.locate p with
  | .ok l => d.namesAt l
  | .error _ => []

/-- The path that spells a location. -/
def pathOf (l : Location) : Text := '/' :: Text.joinWith "/" l

/-! ## Operations -/

/-- **The bytes of the file** at a path. -/
def readBytes (d : Disk) (p : Text) : Except FileFault Bytes :=
  match d.locate p with
  | .error problem => .error ⟨problem, p⟩
  | .ok l =>
    match d.find? l with
    | none => .error ⟨.notFound, p⟩
    | some .directory => .error ⟨.isDirectory, p⟩
    | some (.file content) => .ok content

/-- **The text of the file** at a path, with the line ends of any system read as line feeds. -/
def readText (d : Disk) (p : Text) : Except ReadFault Text :=
  match d.readBytes p with
  | .error fault => .error (.file fault)
  | .ok bytes =>
    match Utf8.decode bytes with
    | none => .error .notText
    | some t => .ok (Text.unifyLineEnds t)

/-- **Write the file** at a path anew; its directory has to be there. -/
def write (d : Disk) (p : Text) (content : Bytes) : Except FileFault Disk :=
  match d.locate p with
  | .error problem => .error ⟨problem, p⟩
  | .ok l =>
    if d.find? l = some .directory then .error ⟨.isDirectory, p⟩ else .ok (d.put l (.file content))

/-- Make the directory at a path; the one above it has to be there. -/
def makeDirectory (d : Disk) (p : Text) : Except FileFault Disk :=
  match d.locate p with
  | .error problem => .error ⟨problem, p⟩
  | .ok l =>
    if (d.find? l).isSome then .error ⟨.alreadyThere, p⟩ else .ok (d.put l .directory)

/-- Take the file at a path away. -/
def remove (d : Disk) (p : Text) : Except FileFault Disk :=
  match d.locate p with
  | .error problem => .error ⟨problem, p⟩
  | .ok l =>
    match d.find? l with
    | none => .error ⟨.notFound, p⟩
    | some .directory => .error ⟨.isDirectory, p⟩
    | some (.file _) => .ok (d.erase l)

/-! ## Whole trees -/

/-- Let an entry stand at a location, and directories at all locations above it where nothing
stands. -/
def putWithParents (d : Disk) (l : Location) (e : Entry) : Disk :=
  let above := (List.range l.length).map l.take
  let d := above.foldl (fun d k => if (d.find? k).isSome then d else d.put k .directory) d
  if l = [] ∨ (e = .directory ∧ d.find? l = some .directory) then d else d.put l e

end Disk

end BuildLint
