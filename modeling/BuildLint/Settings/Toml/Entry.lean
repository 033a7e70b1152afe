import BuildLint.Settings.Toml.Number
import BuildLint.Settings.Toml.Pieces
import BuildLint.Settings.Toml.Quoted

/-!
# Settings/Toml/Entry — a line `key = value`, cut into its parts

An **entry** gives a member of a table a value.  The equals sign between the two is the first one
outside quotes, unless what stands behind it cannot be a value: then it is a later one.

* `Entry.cut` — the two sides of a line.
* `Entry.ofKey` — the parts of a key, which dots separate.
* `Entry.ofText` — an entry.
* `Entry.isLong` — whether its value goes on in the lines that follow.
-/

namespace BuildLint

namespace Toml

/-- **An entry**: the tables that its key leads through, the name of the member, and the text of its
value.  If that is a number, `isStrict` says whether it is written strictly. -/
structure Entry where
  path : List Text
  name : Text
  value : Text
  isStrict : Bool

namespace Entry

/-! ## The two sides -/

/-- Whether a text can be a value as far as the place of the equals sign goes: it begins with a
blank, a quote or a bracket, or is a truth value, a number, a day or a time. -/
def isPlausible (value : Text) : Bool :=
  match value with
  | [] => true
  | c :: _ =>
    c = ' ' || c = '\t' || isQuote c || c = '[' || c = '\x7b' || value.trim = "true" ||
      value.trim = "false" || (Number.float? value).isSome || Moment.isDate value ||
      Moment.isTime value

/-- The underscores are dropped from what begins with a digit. -/
def dropUnderscores (value : Text) : Text :=
  if value.head?.any CodePoint.isDigit then value.filter fun (c : CodePoint) => c != '_' else value

/-- **Which equals sign separates key and value**: the `n`-th if the value behind it is plausible,
else a later one.  One that changes nothing is the last. -/
def settle (line : Text) : Nat → Nat → Text → Bool → Result (Nat × Text × Bool)
  | 0, _, _, _ => .error .malformed
  | fuel + 1, n, value, isStrict =>
    if isPlausible value then .ok (n, value, isStrict)
    else
      let next := (cutNth "=" (n + 1) line).2
      if next = value then .error .malformed
      else settle line fuel (n + 1) next (isStrict && Number.isStrict next)

/-- **The key and the value of a line**, and whether the value is written strictly; a line has at
most as many equals signs as code points. -/
def cut (line : Text) : Result (Text × Text × Bool) := do
  let n := firstOutside "=" false (quoteSplits line)
  let value := (cutNth "=" n line).2
  let (n, value, isStrict) ←
    settle line (line.length + 2) n (dropUnderscores value) (Number.isStrict value)
  return ((cutNth "=" n line).1.trim, value.trim, isStrict)

/-! ## Keys -/

/-- The parts of a key between dots. -/
def atDots (t : Text) : List Text := t.cutWhere (· = '.')

/-- The parts of a key that is cut at its quotes: between quotes a dot does not count, and outside
them no blank. -/
def partsAround : Bool → List Text → List Text
  | _, [] => []
  | true, piece :: rest => piece :: partsAround false rest
  | false, piece :: rest => (atDots piece).map Text.trim ++ partsAround true rest

/-- The parts of a key. -/
def parts (key : Text) : List Text :=
  if key.any isQuote then partsAround false (quoteSplits key) else atDots key

/-- **The path and the name that a key stands for.**  Empty parts lead nowhere; a key that is one
name in quotes may escape. -/
def ofKey (key : Text) : Result (List Text × Text) :=
  if key.holds '.' then
    match ((parts key).reverse.dropWhile List.isEmpty) with
    | [] => .error .ended
    | name :: path => .ok (path.reverse.filter (!·.isEmpty), Text.trim name)
  else if key = [] then .error .ended
  else if isQuoted key then return ([], ← Quoted.unescape (inner 1 key))
  else .ok ([], key)

/-- **The entry of a line.** -/
def ofText (line : Text) : Result Entry := do
  let (key, value, isStrict) ← cut line
  let (path, name) ← ofKey key
  return { path, name, value, isStrict }

/-! ## Values of several lines -/

/-- The last item of an array of texts that is not complete; `before` are the earlier pieces
between commas, the nearest first. -/
def lastItem : Text → List Text → Result Text
  | item, [] => .ok item
  | item, piece :: before =>
    match item.head? with
    | none => .error .ended
    | some c => if isQuote c then .ok item else lastItem (piece ++ "," ++ item) before

/-- Whether a text begins with three quotes and does not end with three others. -/
def opensThree : Text → Result Bool
  | [] => .error .ended
  | a :: rest =>
    if !isQuote a then .ok false
    else
      match rest with
      | [] => .error .ended
      | b :: rest =>
        if b != a then .ok false
        else
          match rest with
          | [] => .error .ended
          | c :: rest =>
            .ok (c = a && !(2 < rest.length && Text.endsWith rest [a, a, a]))

/-- **Whether a value goes on in the lines that follow**: it is a text that three quotes open, or an
array with such a text at its end. -/
def isLong (value : Text) : Result Bool :=
  if value.length < 3 then .ok false
  else if value.head?.any (fun (c : CodePoint) => c = '[') &&
      value.getLast?.any (fun (c : CodePoint) => c != ']') && Pieces.isTextArray value then
    match (Pieces.atCommas (Text.trim (value.drop 1))).reverse with
    | [] => .error .ended
    | item :: before => do opensThree (← lastItem item before)
  else opensThree value

end Entry

end Toml

end BuildLint
