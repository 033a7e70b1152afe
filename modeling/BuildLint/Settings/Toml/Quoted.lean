import BuildLint.Json.Reader
import BuildLint.Settings.Toml.Basic

/-!
# Settings/Toml/Quoted — the text that a quoted value stands for

A value in quotes is handed over with them: one quote at each end, or three.  Between double quotes
a backslash **escapes**: a letter names a control character, a quote or a backslash stands for
itself, and `\u` or `\U` names a code point by four or eight hexadecimal digits.

* `Quoted.closesOnce` — nothing stands behind the closing quote.
* `Quoted.unescape?` — the escapes of one letter.
* `Quoted.replaceNumbers` — the escapes by number.
* `Quoted.read` — the text of a value.

Numbers are replaced first.  A backslash that a number names therefore escapes what follows it.
-/

namespace BuildLint

namespace Toml

namespace Quoted

/-! ## Quotes -/

/-- **Whether nothing stands behind the closing quote**, from the pieces between the quotes of a
value.  A piece with a backslash at its end does not count; between three quotes a single one may
stand, and `quotes` counts those in a row. -/
def closesOnce (isLong : Bool) : Bool → Nat → List Text → Bool
  | _, _, [] => true
  | isClosed, quotes, piece :: rest =>
    if piece = [] then
      if isLong then closesOnce isLong isClosed (quotes + 1) rest
      else closesOnce isLong true quotes rest
    else if isEscaped piece then closesOnce isLong isClosed quotes rest
    else if isClosed then false
    else if !isLong || 1 < quotes then closesOnce isLong true quotes rest
    else closesOnce isLong isClosed 0 rest

/-- A value without its quotes: three at each end if it begins with three, or is nothing but two. -/
def content (quote : CodePoint) (v : Text) : Text :=
  match v.drop 1 with
  | a :: rest =>
    if a = quote && (rest.isEmpty || rest.head? == some quote) then inner 1 (inner 2 v)
    else inner 1 v
  | [] => inner 1 v

/-! ## Escapes -/

/-- What an escape of one letter stands for. -/
def named? (c : CodePoint) : Option CodePoint :=
  if c = '"' ∨ c = '\\' then some c
  else if c = '0' then some '\x00'
  else if c = 'b' then some '\x08'
  else if c = 't' then some '\t'
  else if c = 'n' then some '\n'
  else if c = 'f' then some '\x0c'
  else if c = 'r' then some '\r'
  else none

/-- **The escapes of one letter replaced**, if all of them are known; an escape by number stays, and
so does a backslash at the end. -/
def unescape? : Text → Option Text
  | [] => some []
  | [c] => some [c]
  | c :: d :: rest =>
    if c = '\\' then
      match named? d with
      | some p => (unescape? rest).map (p :: ·)
      | none => if d = 'u' ∨ d = 'U' then (unescape? rest).map (c :: d :: ·) else none
    else (unescape? (d :: rest)).map (c :: ·)

/-- The code point with a number, if it is not too large. -/
def numbered (n : Nat) : Result CodePoint :=
  match CodePoint.ofNat? n with
  | some c => .ok c
  | none => .error (if n < Nat.pow 2 31 then .malformed else .tooLarge)

/-- **The code point that hexadecimal digits name.**  There has to be one digit; digits that begin
with `d` need a second, which is below eight, so that four of them never name half of a surrogate
pair. -/
def codePoint (digits : Text) : Result CodePoint :=
  match digits.mapM Json.hexValue? with
  | none => .error .malformed
  | some [] => .error .ended
  | some [n] => if n = 13 then .error .ended else numbered n
  | some (n :: m :: rest) =>
    if n = 13 ∧ 8 ≤ m then .error .malformed
    else numbered ((n :: m :: rest).foldl (fun value d => 16 * value + d) 0)

/-- The pieces between the marks of escapes by number, each after its mark.  A mark whose backslash
is escaped itself is `kept`; whether the next one is, the piece behind a kept mark says. -/
def replaceFrom (mark : Text) (width : Nat) : Bool → List Text → Result Text
  | _, [] => .ok []
  | kept, piece :: rest =>
    if kept then return mark ++ piece ++ (← replaceFrom mark width (isEscaped piece) rest)
    else do
      let c ← codePoint (piece.take width)
      return c :: piece.drop width ++ (← replaceFrom mark width false rest)

/-- **The escapes by number replaced**, those with one mark and one number of digits. -/
def replaceNumbers (mark : Text) (width : Nat) (t : Text) : Result Text :=
  match t.splitOn mark with
  | [] => .ok []
  | first :: rest => return first ++ (← replaceFrom mark width (isEscaped first) rest)

/-- The escapes of one letter replaced; unknown ones break the format. -/
def unescape (t : Text) : Result Text := (unescape? t).elim (.error .malformed) .ok

/-- All escapes replaced, those by number first. -/
def replaceEscapes (t : Text) : Result Text := do
  let _ ← unescape t
  unescape (← replaceNumbers "\\U" 8 (← replaceNumbers "\\u" 4 t))

/-- **The text of a quoted value.** -/
def read (quote : CodePoint) (v : Text) : Result Text := do
  let pieces := Text.cutWhere (· = quote) (v.drop 1)
  let closes :=
    match pieces with
    | [] :: [] :: rest => closesOnce true false 0 rest
    | _ => closesOnce false false 0 pieces
  if closes then
    return content quote (← if quote = Quote.double then replaceEscapes v else .ok v)
  else .error .malformed

/-- A backslash that a number names escapes what follows it. -/
example : replaceEscapes "\\u005Cn" = .ok ['\n'] := rfl

end Quoted

end Toml

end BuildLint
