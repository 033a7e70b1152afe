import BuildLint.Settings.Toml.Header
import BuildLint.Settings.Toml.Value

/-!
# Settings/Toml/Document — reading a settings document

A document is a sequence of lines: a header opens a table, and an entry gives the open table a
member.  Tables become objects and arrays become arrays.

* `Document` — the tables so far, and where the next line stands.
* `Document.step` — one line.
* `Toml.read` — the members of a document.

An entry whose value goes on takes up lines until one closes it.  Its key may have several parts,
but its value goes to the open table, under the last of them.
-/

namespace BuildLint

namespace Toml

/-- **A document so far**: its tables, the place of the open one, the names of the implied ones, and
a value that goes on. -/
structure Document where
  tables : Json := .object []
  place : Place := []
  implied : List Text := []
  pending : Option Pending := none

namespace Document

/-- Put a value into the open table. -/
def putMember (d : Document) (name : Text) (v : Json) : Result Document := do
  let put : Json → Result (Json × Unit)
    | .object members => .ok (.object (Keyed.set members name v), ())
    | _ => .error .noParts
  return { d with tables := (← d.place.act put d.tables).1 }

/-- Whether a line closes a value, all of which is `text`. -/
def closes (text line : Text) : Result Bool :=
  match text with
  | [] => .ok false
  | c :: _ =>
    if c = '[' then
      match line.getLast? with
      | none => .error .ended
      | some last => .ok (last = ']')
    else .ok (line.endsWith [c, c, c])

/-- **A line of a value that goes on.** -/
def continuation (d : Document) (p : Pending) (line : Text) : Result Document := do
  let line := if p.isJoined then line.trim else line
  if p.isJoined && line = [] then return d
  else
    let text := p.text ++ line
    if ← closes text line then
      let v ← value true text
      { d with pending := none }.putMember p.name v.content
    else return { d with pending := some (.ofText p.name text) }

/-- **A line that opens a table.** -/
def header (d : Document) (line : Text) : Result Document := do
  let h ← Header.ofText line
  let o ← Header.visit h.kind d.implied h.names d.tables
  return { d with tables := o.document, place := o.place, implied := o.implied }

/-- A line in braces: its members are put into the open table. -/
def inlineTable (d : Document) (line : Text) : Result Document := do
  if line.getLast?.any fun (c : CodePoint) => c = '\x7d' then
    let lines ← Pieces.members line
    let put (level : Json) : Result (Json × Unit) := return (← putAll value lines level, ())
    return { d with tables := (← d.place.act put d.tables).1 }
  else .error .malformed

/-- **A line with an entry.** -/
def entry (d : Document) (line : Text) : Result Document := do
  let e ← Entry.ofText line
  let (tables, pending) ← d.place.act (e.put value) d.tables
  return { d with tables, pending }

/-- **One line of a document.**  What neither opens a table nor has an equals sign is passed
over. -/
def step (d : Document) (line : Text) : Result Document :=
  match d.pending with
  | some p => d.continuation p line
  | none =>
    match line.trim with
    | [] => .ok d
    | c :: rest =>
      if c = '[' then d.header (c :: rest)
      else if c = '\x7b' then d.inlineTable (c :: rest)
      else if Text.holds (c :: rest) '=' then d.entry (c :: rest)
      else .ok d

/-- The members of the document itself. -/
def members (d : Document) : Json.Members :=
  match d.tables with
  | .object members => members
  | _ => []

end Document

/-- **The members of a document.**  A value that is not closed is not one of them. -/
def read (t : Text) : Result Json.Members := do
  return (← (← Lines.ofText t).foldlM Document.step {}).members

end Toml

end BuildLint
