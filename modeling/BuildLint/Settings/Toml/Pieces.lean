import BuildLint.Settings.Toml.Basic

/-!
# Settings/Toml/Pieces — the items of an array and the members of a table on one line

Both are cut at commas, and pieces that belong together are joined again.  What belongs together
depends on how the first item begins.

* Arrays of arrays are cut where no bracket is open (`Pieces.cutNested`).
* Arrays of tables are the parts between matching braces (`Braces`).
* Arrays of texts are cut at every comma, and a text that is not closed is joined with the next
  piece (`Pieces.joinTexts`).
* Of a table on one line, a member whose value is not complete is joined with the next piece
  (`Pieces.members`).
-/

namespace BuildLint

namespace Toml

namespace Pieces

/-- The pieces of a text between commas. -/
def atCommas (t : Text) : List Text := t.cutWhere (· = ',')

/-! ## Texts -/

/-- Whether the first item of an array is a text. -/
def isTextArray (array : Text) : Bool := (inner 1 array).trim.head?.any isQuote

/-- Whether a text is closed by the quote it opens with; none is closed too. -/
def isBounded (t : Text) : Bool :=
  t.head? = t.getLast? && !isEscaped (t.drop 1).dropLast

/-- Whether a text opens with three quotes and has none of them before its last one. -/
def opensLong : Text → Bool
  | a :: b :: c :: rest =>
    let behind := (a :: b :: c :: rest).reverse.drop 1
    b = a && c = a && behind.head? != some a && (behind.drop 1).head? != some a
  | _ => false

/-- Whether a text goes on in the next piece. -/
def isOpen (t : Text) : Bool := !isBounded t.trim || opensLong t.trim

/-- **Texts that commas cut in pieces, joined again.**  `isJoined` says that the first piece has
been; the last piece of all is not looked at if it stands alone. -/
def joinTexts (isJoined : Bool) : Text → List Text → Result (List Text)
  | piece, [] => if isJoined && isOpen piece then .error .ended else .ok [piece]
  | piece, next :: rest =>
    if isOpen piece then joinTexts true (piece ++ "," ++ next) rest
    else return piece :: (← joinTexts false next rest)

/-! ## Arrays and tables -/

/-- **Items cut where no bracket is open**; `piece` is the one that has begun, in reverse. -/
def cutNested (depth : Int) (piece : Text) : Text → List Text
  | [] => [piece.reverse]
  | c :: rest =>
    if c = ',' && depth = 0 then piece.reverse :: cutNested depth [] rest
    else
      let depth := if c = '[' then depth + 1 else if c = ']' then depth - 1 else depth
      cutNested depth (c :: piece) rest

end Pieces

/-- **Where a pass over an array of tables stands**: the tables so far and the one that has begun,
both in reverse.  Right behind a table, at its `isEdge`, anything may stand. -/
structure Braces where
  tables : List Text := []
  table : Option Text
  isEdge : Bool := false
  depth : Nat
  inQuotes : Bool := false

namespace Braces

/-- One code point of a table. -/
def inTable (s : Braces) (table : Text) (c : CodePoint) : Braces :=
  let inQuotes := if isQuote c then !s.inQuotes || isOdd table else s.inQuotes
  let depth := if !inQuotes && c = '\x7b' then s.depth + 1 else s.depth
  let table := c :: table
  if inQuotes || c != '\x7d' then { s with table := some table, depth, inQuotes }
  else if 1 < depth then { s with table := some table, depth := depth - 1, inQuotes }
  else
    { tables := table.reverse :: s.tables, table := none, isEdge := true, depth, inQuotes }

/-- One code point of an array of tables. -/
def step (s : Braces) (c : CodePoint) : Braces :=
  match s.table with
  | some table => s.inTable table c
  | none =>
    if s.isEdge then { s with isEdge := false }
    else if c = '\x7b' then { s with table := some [c] }
    else s

/-- **The tables of an array**, without what stands between them. -/
def cut : Text → List Text
  | [] => []
  | c :: rest =>
    let start : Braces := { table := some [c], depth := if c = '\x7b' then 1 else 0 }
    (rest.foldl step start).tables.reverse

end Braces

namespace Pieces

/-- **The items of an array**, by how the first of them begins. -/
def ofArray (array : Text) : Result (List Text) :=
  let items := inner 1 array
  match items.trim with
  | [] => .ok [[]]
  | first :: _ =>
    if first = '[' then .ok (cutNested 0 [] items)
    else if first = '\x7b' then .ok (Braces.cut items)
    else
      match atCommas items with
      | [] => .ok []
      | piece :: rest => if isQuote first then joinTexts false piece rest else .ok (piece :: rest)

/-- Whether the value of a member is complete, by its first and its last code point. -/
def isComplete (first : CodePoint) (value : Text) : Bool :=
  let last := value.getLast?.getD first
  isQuoted value || first = '-' || first.isDigit || value = "true" || value = "false" ||
    first = '[' && last = ']' || first = '\x7b' && last = '\x7d'

/-- **The members of a table on one line**, from its pieces between commas. -/
def joinMembers : Text → List Text → Result (List Text)
  | piece, rest =>
    match Text.cutAt? '=' piece with
    | none => .error .malformed
    | some (_, value) =>
      match value.trim with
      | [] => .error .ended
      | first :: value =>
        if isComplete first (first :: value) then
          match rest with
          | [] => .ok [piece]
          | next :: rest => return piece :: (← joinMembers next rest)
        else
          match rest with
          | [] => .error .malformed
          | next :: rest => joinMembers (piece ++ "," ++ next) rest
termination_by structural _ rest => rest

/-- The members of a table on one line. -/
def members (table : Text) : Result (List Text) :=
  match atCommas (inner 1 table) with
  | [] => .ok []
  | piece :: rest => if rest.isEmpty && Text.isBlank piece then .ok [] else joinMembers piece rest

end Pieces

end Toml

end BuildLint
