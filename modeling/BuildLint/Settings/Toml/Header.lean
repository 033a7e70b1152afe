import BuildLint.Settings.Toml.Lines

/-!
# Settings/Toml/Header — the line that opens a table

A header names a table by the names that lead to it, one bracket around them, or the next item of
an array of tables, two brackets around them.

* `Header.ofText` — the header of a line.
* `Place` — where a table is inside a document.
* `Header.visit` — the document with the table made, and the place of the table.

A table that was made only because a header named one inside it is **implied**, and may be opened
once.  Implied tables are known by their names alone.
-/

namespace BuildLint

namespace Toml

/-- **A header.** -/
structure Header where
  kind : HeaderKind
  names : List Text

namespace Header

/-! ## The line of a header -/

/-- What the name of a table consists of when it is not quoted. -/
def isPlain (c : CodePoint) : Bool := c.isLetter || c.isDigit || c = '_' || c = '-'

/-- Whether a name is closed by the quote it opens with. -/
def isClosed (name : Text) : Bool := 1 < name.length && name.head? = name.getLast?

/-- **The names between dots.**  A name in quotes goes on over dots until it is closed; `begun` is
one that is not yet. -/
def namesOf : Option Text → List Text → Result (List Text)
  | none, [] => .ok []
  | some _, [] => .error .malformed
  | none, piece :: rest => do
    let name := piece.trim
    if name.head?.any isQuote then
      if isClosed name then return inner 1 name :: (← namesOf none rest)
      else namesOf (some name) rest
    else if !name.isEmpty && name.all isPlain then return name :: (← namesOf none rest)
    else .error .malformed
  | some begun, piece :: rest => do
    let whole : Text := begun ++ "." ++ piece
    if isClosed whole.trim then return inner 1 whole.trim :: (← namesOf none rest)
    else namesOf (some whole) rest

/-- The closing bracket of a header, or both. -/
def closing : HeaderKind → Text
  | .table => "]"
  | .item => "]]"

/-- **The header of a line**, which the first closing bracket outside quotes ends. -/
def ofText (line : Text) : Result Header := do
  let kind := if line.startsWith "[[" then .item else .table
  let body := line.drop (closing kind).length
  let n := firstOutside (closing kind) false (quoteSplits body)
  let (names, rest) := cutNth (closing kind) n body
  if line.length = 1 || count (closing kind) body < n || !Text.isBlank rest then .error .malformed
  else return ⟨kind, ← namesOf none (names.cutWhere (· = '.'))⟩

end Header

/-! ## Places -/

/-- A step into a document: to a member of a table, or to the last item of an array. -/
inductive Step where
  | member (name : Text)
  | last

/-- **A place in a document**, by the steps that lead to it. -/
abbrev Place := List Step

/-- Act on the value at a place; a step that the value does not have is passed over. -/
def Place.act {α : Type} (f : Json → Result (Json × α)) : Place → Json → Result (Json × α)
  | [], v => f v
  | .member name :: place, .object members => do
    let (v, a) ← act f place ((Keyed.get? members name).getD (.object []))
    return (.object (Keyed.set members name v), a)
  | .last :: place, .array items => do
    let (v, a) ← act f place (items.getLast?.getD (.object []))
    return (.array (items.dropLast ++ [v]), a)
  | _ :: place, v => act f place v

/-! ## Opening tables -/

/-- **What a header leaves behind**: the document, the place of its table, and the names of the
implied tables. -/
structure Opened where
  document : Json
  place : Place
  implied : List Text

namespace Opened

/-- What is opened inside a member. -/
def inMember (name : Text) (members : Json.Members) (o : Opened) : Opened :=
  { o with
    document := .object (Keyed.set members name o.document)
    place := .member name :: o.place }

/-- What is opened inside the last item of an array. -/
def inLast (items : List Json) (o : Opened) : Opened :=
  { o with
    document := .array (items.dropLast ++ [o.document])
    place := .last :: o.place }

end Opened

namespace Header

/-- The value that a header makes where there is none. -/
def fresh (kind : HeaderKind) (isFinal : Bool) : Json :=
  if isFinal && kind = .item then .array [.object []] else .object []

/-- The value under the last name of a header that is there already, and the implied tables that
are left: an implied one is opened, and an array gets its next item. -/
def reopen (kind : HeaderKind) (name : Text) (implied : List Text) (v : Json) :
    Result (Json × List Text) :=
  if name ∈ implied then
    if kind = .item then .error .malformed else .ok (v, implied.erase name)
  else
    match kind, v with
    | .table, _ => .error .malformed
    | .item, .array items => .ok (.array (items ++ [.object []]), implied)
    | .item, _ => .error .noParts

/-- **Go on from the value under a name.**  A header of an item takes the last item in place of
every array.  It goes on from a table, and from a text that is not empty, where nothing can be
opened later; other values have no last item. -/
def enter (kind : HeaderKind) (visit : Json → Result Opened) (v : Json) : Result Opened :=
  match kind, v with
  | .table, _ => visit v
  | .item, .object _ => visit v
  | .item, .array items =>
    match items.getLast? with
    | none => .error .ended
    | some item => do return (← visit item).inLast items
  | .item, .string (_ :: _) => visit v
  | .item, .string [] => .error .ended
  | .item, _ => .error .noParts

/-- The value under a name of a table, and the implied tables.  One that is missing is made; on the
way to a later name it is implied. -/
def inside (kind : HeaderKind) (name : Text) (isFinal : Bool) (implied : List Text)
    (members : Json.Members) : Result (Json × List Text) :=
  match Keyed.get? members name with
  | none => .ok (fresh kind isFinal, if isFinal then implied else implied ++ [name])
  | some v => if isFinal then reopen kind name implied v else .ok (v, implied)

/-- **Open the table of a header**, from the value that its first name is looked up in.  In place of
an array its last item is taken; what is there under the name is opened whatever it is, and what is
made is not implied. -/
def visit (kind : HeaderKind) : List Text → List Text → Json → Result Opened
  | implied, [], v => .ok ⟨v, [], implied⟩
  | _, [] :: _, _ => .error .malformed
  | implied, name :: names, .object members => do
    let (v, implied) ← inside kind name names.isEmpty implied members
    return (← enter kind (visit kind implied names) v).inMember name members
  | implied, name :: names, .array items =>
    match items.getLast? with
    | none => .error .ended
    | some (.object members) => do
      let v := (Keyed.get? members name).getD (fresh kind names.isEmpty)
      let o ← enter kind (visit kind implied names) v
      return (o.inMember name members).inLast items
    | some _ => .error .noParts
  | _, _ :: _, .string [] => .error .ended
  | _, _ :: _, _ => .error .noParts

end Header

end Toml

end BuildLint
