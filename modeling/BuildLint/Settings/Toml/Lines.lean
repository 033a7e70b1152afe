import BuildLint.Settings.Toml.Basic
import BuildLint.Text.Alphanumeric

/-!
# Settings/Toml/Lines — a document as the lines that hold its entries

A first pass goes over a document code point by code point.  It knows whether it stands in a key,
in quotes, in brackets or in a comment, and gives the document back in a form whose lines can be
read one by one: comments are blank, and a line end inside brackets is a blank.

* `Scan` — where the pass stands.
* `Scan.step` — one code point.
* `Lines.ofText` — the lines of a document.

What a quote opens or closes is decided by what stands **behind** it: a quote behind two of its
kind begins or ends a text of several lines.  The line end right behind the three quotes that begin
such a text is given up.
-/

namespace BuildLint

namespace Toml

/-- **What a line opens with its first bracket**: a table, or an item of an array of tables. -/
inductive HeaderKind where
  | table
  | item
deriving DecidableEq

/-- **How far a key has come**: into a name, or behind one. -/
inductive KeyPhase where
  | inName
  | behindName
deriving DecidableEq

/-- **Where the pass stands**; `before` is what it has given so far, in reverse.  `isFresh` says
that only blanks stand before on the line, `isDotted` that the key has more than one part. -/
structure Scan where
  before : Text := []
  isFresh : Bool := true
  header : Option HeaderKind := none
  key : Option KeyPhase := none
  isDotted : Bool := false
  quote : Option CodePoint := none
  isLong : Bool := false
  brackets : Int := 0
  inComment : Bool := false

namespace Scan

/-- Give a code point. -/
def give (s : Scan) (c : CodePoint) : Scan := { s with before := c :: s.before }

/-! ## Keys -/

/-- Behind a dot or a blank in a dotted key the next name begins, unless another dot or blank
follows; something has to follow. -/
def awaitName (s : Scan) : Option CodePoint → Result Scan
  | none => .error .ended
  | some next => .ok (if next.isBlank || next = '.' then s else { s with key := some .inName })

/-- What is no part of a key ends it, and has to be the equals sign. -/
def endKey (s : Scan) (c : CodePoint) : Result Scan :=
  if c = '=' then .ok { s with key := none, isDotted := false } else .error .malformed

/-- Inside a quoted part of a key only its closing quote matters. -/
def quotedKey (s : Scan) (quote c : CodePoint) : Scan :=
  if c = quote && !isOdd s.before then { s with key := some .behindName, quote := none } else s

/-- Inside a name of a key. -/
def nameStep (s : Scan) (c : CodePoint) : Result Scan :=
  if c.isBlank then .ok { s with key := some .behindName }
  else if c = '.' then .ok { s with isDotted := true }
  else if c.isAlphanumeric || c = '_' || c = '-' then .ok s
  else if s.isDotted && s.before.beginsWith '.' && isQuote c then .ok { s with quote := some c }
  else s.endKey c

/-- Behind a name of a key. -/
def spaceStep (s : Scan) (next : Option CodePoint) (c : CodePoint) : Result Scan :=
  if c.isBlank then if s.isDotted then s.awaitName next else .ok s
  else if c = '.' then { s with isDotted := true }.awaitName next
  else s.endKey c

/-- **One code point of a key.** -/
def keyStep (s : Scan) (phase : KeyPhase) (next : Option CodePoint) (c : CodePoint) :
    Result Scan :=
  if c = '\n' then .error .malformed
  else
    match s.quote, phase with
    | some quote, _ => .ok (s.quotedKey quote c)
    | none, .inName => s.nameStep c
    | none, .behindName => s.spaceStep next c

/-! ## Quotes and brackets -/

/-- What lies behind, in reverse.  Behind the beginning of a document lies its end: `ending` is the
whole document in reverse. -/
def behind (s : Scan) (ending : Text) : Text :=
  match s.before with
  | a :: b :: c :: rest => a :: b :: c :: rest
  | few => few ++ ending

/-- How many quotes of one kind lie behind; more than two make no difference. -/
def quotesBehind (quote : CodePoint) (behind : Text) : Nat :=
  ((behind.take 2).takeWhile (· = quote)).length

/-- A quote opens or closes a text; the third in a row opens or closes one of several lines. -/
def turn (s : Scan) (quote : CodePoint) (isThird : Bool) : Scan :=
  if isThird then
    { s with isLong := !s.isLong, quote := if s.isLong then none else some quote }
  else { s with quote := if s.quote.isSome then none else some quote }

/-- A single quote counts unless a double one is open. -/
def singleQuote (s : Scan) (ending : Text) : Scan :=
  if s.quote = some Quote.double then s
  else s.turn Quote.single (quotesBehind Quote.single (s.behind ending) = 2)

/-- A double quote counts unless a single one is open, or a backslash escapes it; behind one other
double quote no backslash is looked for. -/
def doubleQuote (s : Scan) (ending : Text) : Scan :=
  let behind := s.behind ending
  let n := quotesBehind Quote.double behind
  if s.quote = some Quote.single || n != 1 && isOdd (behind.drop n) then s
  else s.turn Quote.double (n = 2)

/-- An opening bracket: at the front of a line that of a header. -/
def openBracket (s : Scan) (next : Option CodePoint) : Scan :=
  if s.quote.isSome || s.header.isSome then s
  else if s.isFresh then
    let isItem := next.any fun (d : CodePoint) => d = '['
    { s with header := some (if isItem then .item else .table) }
  else { s with brackets := s.brackets + 1 }

/-- A closing bracket: two of them end the header of an item. -/
def closeBracket (s : Scan) : Scan :=
  if s.quote.isSome then s
  else
    match s.header with
    | some .table => { s with header := none }
    | some .item => if s.before.beginsWith ']' then { s with header := none } else s
    | none => { s with brackets := s.brackets - 1 }

/-! ## Lines -/

/-- A line end in a text of several lines.  Right behind two quotes it is given up: a quote takes
its place, and a blank that of the quote before the two. -/
def longLineEnd (s : Scan) : Scan :=
  match s.before with
  | a :: b :: c :: rest =>
    if isQuote a && b = a then
      { s with before := a :: a :: b :: (if c = a then ' ' else c) :: rest }
    else s.give '\n'
  | _ => s.give '\n'

/-- **A line end.** -/
def lineEnd (s : Scan) : Result Scan :=
  if s.isLong then .ok s.longLineEnd
  else if s.quote.isSome then .error .malformed
  else if s.brackets != 0 then .ok (s.give ' ')
  else .ok ({ s with isFresh := true }.give '\n')

/-- What is no blank at the front of a line begins a key, unless it began a header. -/
def beginLine (s : Scan) (c : CodePoint) : Result Scan :=
  if !s.isFresh || c = ' ' || c = '\t' then .ok s
  else if s.header.isSome then .ok { s with isFresh := false }
  else if c = '=' then .error .malformed
  else .ok { s with isFresh := false, key := some .inName }

/-- What a quote or a bracket outside a key does. -/
def mark (s : Scan) (ending : Text) (next : Option CodePoint) (c : CodePoint) : Scan :=
  if c = Quote.single then s.singleQuote ending
  else if c = Quote.double then s.doubleQuote ending
  else if c = '[' then s.openBracket next
  else if c = ']' then s.closeBracket
  else s

/-- **One code point of a document**; `next` is the one after it. -/
def step (s : Scan) (ending : Text) (next : Option CodePoint) (c : CodePoint) : Result Scan :=
  match s.key with
  | some phase => return (← s.keyStep phase next c).give c
  | none =>
    if c = '\n' then { s with inComment := false }.lineEnd
    else if s.inComment then .ok (s.give ' ')
    else if c = '#' && s.quote.isNone && s.header.isNone then
      .ok ({ s with inComment := true }.give ' ')
    else return (← (s.mark ending next c).beginLine c).give c

/-- The rest of a document. -/
def run (ending : Text) : Scan → Text → Result Scan
  | s, [] => .ok s
  | s, c :: rest => do run ending (← s.step ending rest.head? c) rest

end Scan

/-- **The lines of a document.**  At its end no key and no quote may be open. -/
def Lines.ofText (t : Text) : Result (List Text) := do
  let s ← Scan.run t.reverse {} t
  if s.key.isSome || s.quote.isSome then .error .malformed
  else .ok (Text.cutWhere (· = '\n') s.before.reverse)

end Toml

end BuildLint
