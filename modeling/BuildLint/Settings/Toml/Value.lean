import BuildLint.Settings.Toml.Entry

/-!
# Settings/Toml/Value — values, and entries put into a table

* `Kind` and `Value` — a value together with its kind; the items of an array have one kind.
* `value` — the value of a text.
* `Entry.put` — an entry put into a table.
* `Pending` — an entry whose value goes on in the lines that follow.

Values nest: the items of an array and the members of a table on one line are texts inside the text
of the value.  What reads them is a parameter of `readItems` and `Entry.put`, and `value` ties the
knot.
-/

namespace BuildLint

namespace Toml

/-- **The kinds of values.**  A table written on one line is one, an array of any items another. -/
inductive Kind where
  | truth
  | text
  | array
  | table
  | time
  | date
  | whole
  | float
deriving DecidableEq

/-- **A value and its kind.**  Days and times are without content. -/
structure Value where
  content : Json
  kind : Kind

/-! ## Values in one piece -/

/-- A number, written strictly. -/
def number (t : Text) : Option Value := do
  let (negative, size) := Number.unsigned t
  let size : Text := size.filter fun (c : CodePoint) => c != '_'
  let isFloat := size.holds '.' || !size.holds 'x' && (size.holds 'e' || size.holds 'E')
  let isName := Number.lower size = "inf" || Number.lower size = "nan"
  if isFloat && (Text.cutAt? '.' size).any (·.2.isEmpty) then none
  else if isFloat && !size.head?.any CodePoint.isDigit then none
  else if isFloat || isName then
    let x ← Number.float? size
    return ⟨.float (if negative then Number.negate x else x), .float⟩
  else
    let n ← Number.inBase? size
    return ⟨.int (if negative then -n else n), .whole⟩

/-- A value without quotes and brackets. -/
def plainValue (isStrict : Bool) (t : Text) : Result Value :=
  if t = "true" then .ok ⟨.bool true, .truth⟩
  else if t = "false" then .ok ⟨.bool false, .truth⟩
  else if Moment.isTime t then if Moment.isValid t then .ok ⟨.null, .time⟩ else .error .malformed
  else if Moment.isDate t then .ok ⟨.null, .date⟩
  else if isStrict then (number t).elim (.error .malformed) .ok
  else .error .malformed

/-! ## Arrays -/

/-- **The items of an array**, which have one kind; those of blanks only are passed over. -/
def readItems (read : Text → Result Value) : Option Kind → List Text → Result (List Json)
  | _, [] => .ok []
  | kind, t :: rest =>
    if Text.isBlank t then readItems read kind rest
    else do
      let v ← read t.trim
      if kind.any (· != v.kind) then .error .malformed
      else return v.content :: (← readItems read (some v.kind) rest)

/-! ## Tables -/

/-- **A value that goes on in the lines that follow**: the name of its member, what stands of it so
far, and whether the next line is joined to the last. -/
structure Pending where
  name : Text
  text : Text
  isJoined : Bool

/-- Take what stands of a value so far: a backslash that ends it joins the next line to it, else a
line end follows. -/
def Pending.ofText (name text : Text) : Pending :=
  if isEscaped text then ⟨name, text.dropLast, true⟩ else ⟨name, text ++ "\n", false⟩

/-- Act on the table below another to which a path leads; tables that are missing are made. -/
def below {α : Type} (act : Json → Result (Json × α)) : List Text → Json → Result (Json × α)
  | [], level => act level
  | name :: path, .object members => do
    let table := (Keyed.get? members name).getD (.object [])
    let (table, a) ← below act path table
    return (.object (Keyed.set members name table), a)
  | _ :: _, _ => .error .noParts

namespace Entry

/-- Give the member of an entry its value; what is no table, or has the member, takes none. -/
def give (e : Entry) (read : Bool → Text → Result Value) (level : Json) :
    Result (Json × Option Pending) := do
  let v? ← if ← isLong e.value then pure none else some <$> read e.isStrict e.value
  match level with
  | .object members =>
    if (Keyed.get? members e.name).isSome then .error .malformed
    else
      match v? with
      | some v => .ok (.object (Keyed.set members e.name v.content), none)
      | none =>
        if e.name = [] then .error .noValue
        else .ok (level, some (.ofText e.name e.value))
  | _ => .error .malformed

/-- **Put an entry into a table**; if its value goes on, the table stays as it is. -/
def put (e : Entry) (read : Bool → Text → Result Value) (level : Json) :
    Result (Json × Option Pending) :=
  below (e.give read) e.path level

end Entry

/-- Put the entries of some lines into a table, up to one whose value goes on. -/
def putAll (read : Bool → Text → Result Value) : List Text → Json → Result Json
  | [], level => .ok level
  | line :: rest, level => do
    let (level, pending) ← (← Entry.ofText line).put read level
    if pending.isSome then .ok level else putAll read rest level

/-! ## All values -/

/-- **The value of a text.**  Each call inside another reads a shorter text, so `fuel` above the
length of the text is never used up. -/
def valueWithin : Nat → Bool → Text → Result Value
  | 0, _, _ => .error .malformed
  | _ + 1, _, [] => .error .malformed
  | fuel + 1, isStrict, c :: t =>
    if isQuote c then return ⟨.string (← Quoted.read c (c :: t)), .text⟩
    else if c = '[' then do
      let items ← Pieces.ofArray (c :: t)
      return ⟨.array (← readItems (valueWithin fuel true) none items), .array⟩
    else if c = '\x7b' then do
      return ⟨← putAll (valueWithin fuel) (← Pieces.members (c :: t)) (.object []), .table⟩
    else plainValue isStrict (c :: t)

/-- **The value of a text.** -/
def value (isStrict : Bool) (t : Text) : Result Value := valueWithin (t.length + 1) isStrict t

end Toml

end BuildLint
