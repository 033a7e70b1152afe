import BuildLint.Json.Value

/-!
# Json/Reader — reading JSON text

A reader takes a value from the front of a text and hands on the rest.  A fault is the problem
together with the rest at which it was met, from which `read` counts line and column.

* Besides the standard, `NaN`, `Infinity` and `-Infinity` are read, and half of a surrogate pair
  may stand alone.
* Of two members with one key the first keeps its place and the last its value.
* A whole number may have `maxDigits` digits at most; more is not a fault of the text but a number
  that cannot be read.
-/

namespace BuildLint

namespace Json

/-- **What is wrong with a JSON text.** -/
inductive Problem where
  | expectingValue
  | expectingName
  | expectingColon
  | expectingComma
  | extraData
  | unterminatedString
  | controlCharacter
  | invalidEscape
  | invalidUnicodeEscape
  | byteOrderMark
  | tooManyDigits
deriving DecidableEq

/-- A problem in words. -/
def Problem.text : Problem → Text
  | .expectingValue => "Expecting value"
  | .expectingName => "Expecting property name enclosed in double quotes"
  | .expectingColon => "Expecting ':' delimiter"
  | .expectingComma => "Expecting ',' delimiter"
  | .extraData => "Extra data"
  | .unterminatedString => "Unterminated string starting at"
  | .controlCharacter => "Invalid control character at"
  | .invalidEscape => "Invalid \\escape"
  | .invalidUnicodeEscape => "Invalid \\uXXXX escape"
  | .byteOrderMark => "Unexpected UTF-8 BOM (decode using utf-8-sig)"
  | .tooManyDigits => "Too many digits"

/-- **A fault in a JSON text** and where it is: line and column count from one, the offset from
zero. -/
structure Fault where
  problem : Problem
  line : Nat
  column : Nat
  offset : Nat

/-- A fault in words. -/
def Fault.text (f : Fault) : Text :=
  f.problem.text ++ ": line " ++ Decimal.ofNat f.line ++ " column " ++ Decimal.ofNat f.column ++
    " (char " ++ Decimal.ofNat f.offset ++ ")"

/-- The fault of a problem met after `before`. -/
def Fault.after (before : Text) (problem : Problem) : Fault :=
  { problem
    line := (before.countP fun (c : CodePoint) => c = '\n') + 1
    column := (Text.afterLast '\n' before).length + 1
    offset := before.length }

/-- **A reader** takes a value from the front of a text; a problem is met at some rest of it. -/
abbrev Scan (α : Type) := Except (Problem × Text) (α × Text)

/-! ## Strings -/

/-- The white space between the tokens of a JSON text. -/
def isSpace (c : CodePoint) : Bool := c = ' ' || c = '\t' || c = '\n' || c = '\r'

/-- Pass over white space. -/
def skip (s : Text) : Text := s.dropWhile isSpace

/-- The value of a hexadecimal digit. -/
def hexValue? (c : CodePoint) : Option Nat :=
  if c.within '0' '9' then some (c.val - 48)
  else if c.within 'a' 'f' then some (c.val - 87)
  else if c.within 'A' 'F' then some (c.val - 55)
  else none

/-- The UTF-16 unit that four hexadecimal digits name. -/
def unit? (a b c d : CodePoint) : Option CodePoint := do
  let n := (← hexValue? a) * 4096 + (← hexValue? b) * 256 + (← hexValue? c) * 16 + (← hexValue? d)
  CodePoint.ofNat? n

/-- The code point that a one-letter escape stands for. -/
def escaped? (c : CodePoint) : Option CodePoint :=
  if c = '"' ∨ c = '\\' ∨ c = '/' then some c
  else if c = 'b' then CodePoint.ofNat? 8
  else if c = 'f' then CodePoint.ofNat? 12
  else if c = 'n' then some '\n'
  else if c = 'r' then some '\r'
  else if c = 't' then some '\t'
  else none

/-- The code point that a surrogate pair stands for. -/
def pair? (high low : CodePoint) : Option CodePoint :=
  if high.isHighSurrogate && low.isLowSurrogate then
    CodePoint.ofNat? (0x10000 + (high.val - 0xD800) * 0x400 + (low.val - 0xDC00))
  else none

/-- Put a code point in front of what is read from the rest. -/
def consPoint (c : CodePoint) (rest : Scan Text) : Scan Text :=
  rest.map fun (s, r) => (c :: s, r)

/-- The second half of a pair, if the text begins with an escape for one and does not end there. -/
def lowHalf? : Text → Option CodePoint
  | s :: u :: a :: b :: c :: d :: _ :: _ =>
    if s = '\\' ∧ u = 'u' then (unit? a b c d).filter CodePoint.isLowSurrogate else none
  | _ => none

/-- **The rest of a string** up to its closing quote; `opening` is the text from the opening quote
on.  `high` is the first half of a pair that the next escape completes. -/
def scanString (opening : Text) (high : Option CodePoint) : Text → Scan Text
  | [] => .error (.unterminatedString, opening)
  | c :: rest =>
    if c = '"' then .ok ([], rest)
    else if c = '\\' then
      match rest with
      | [] => .error (.unterminatedString, opening)
      | e :: rest' =>
        if e = 'u' then
          match rest' with
          | a :: b :: x :: d :: next =>
            match next, unit? a b x d with
            | [], _ => .error (.invalidUnicodeEscape, rest)
            | _, none => .error (.invalidUnicodeEscape, rest)
            | _, some unit =>
              if unit.isHighSurrogate && (lowHalf? next).isSome then
                scanString opening (some unit) next
              else
                consPoint ((high.bind (pair? · unit)).getD unit) (scanString opening none next)
          | _ => .error (.invalidUnicodeEscape, rest)
        else
          match escaped? e with
          | some p => consPoint p (scanString opening none rest')
          | none => .error (.invalidEscape, c :: rest)
    else if c.val < 0x20 then .error (.controlCharacter, c :: rest)
    else consPoint c (scanString opening none rest)

/-! ## Numbers -/

/-- The most digits a whole number may have. -/
def maxDigits : Nat := 4300

/-- The digits at the front of a text, and the rest. -/
def spanDigits (s : Text) : Text × Text := s.span CodePoint.isDigit

/-- A fraction at the front of a text: a point and at least one digit. -/
def scanFraction (s : Text) : Option (Text × Text) :=
  match s with
  | c :: rest =>
    let (digits, rest) := spanDigits rest
    if c = '.' ∧ digits ≠ [] then some (digits, rest) else none
  | [] => none

/-- An exponent at the front of a text: the letter, a sign or none, and at least one digit. -/
def scanExponent (s : Text) : Option (Int × Text) :=
  match s with
  | c :: rest =>
    let negative := Text.beginsWith rest '-'
    let unsigned := if negative || Text.beginsWith rest '+' then rest.drop 1 else rest
    let (digits, rest) := spanDigits unsigned
    if (c = 'e' ∨ c = 'E') ∧ digits ≠ [] then
      let n : Int := Decimal.value digits
      some (if negative then -n else n, rest)
    else none
  | [] => none

/-- The number whose whole part is known, with the fraction and exponent that follow it. -/
def scanNumberFrom (start : Text) (negative : Bool) (whole rest : Text) : Scan Json :=
  let fraction := scanFraction rest
  let (digits, rest) := fraction.getD ([], rest)
  let exponent := scanExponent rest
  let (scale, rest) := exponent.getD (0, rest)
  if fraction.isSome || exponent.isSome then
    .ok (.float (.ofDecimal negative (Decimal.value (whole ++ digits)) (scale - digits.length)),
      rest)
  else if maxDigits < whole.length then .error (.tooManyDigits, start)
  else
    let n : Int := Decimal.value whole
    .ok (.int (if negative then -n else n), rest)

/-- **A number**: no leading zeros, and an integer exactly if it has neither fraction nor
exponent. -/
def scanNumber (s : Text) : Scan Json :=
  let negative := s.beginsWith '-'
  let unsigned := if negative then s.drop 1 else s
  match unsigned with
  | c :: rest =>
    if c = '0' then scanNumberFrom s negative [c] rest
    else if c.isDigit then
      let (digits, rest) := spanDigits unsigned
      scanNumberFrom s negative digits rest
    else .error (.expectingValue, s)
  | [] => .error (.expectingValue, s)

/-- The names that stand for values. -/
def literals : List (Text × Json) :=
  [("null", .null), ("true", .bool true), ("false", .bool false), ("NaN", .float .nan),
    ("Infinity", .float (.infinity false)), ("-Infinity", .float (.infinity true))]

/-- A value without parts that is no string. -/
def scanScalar (s : Text) : Scan Json :=
  match literals.find? fun l => s.startsWith l.1 with
  | some (name, value) => .ok (value, s.drop name.length)
  | none => scanNumber s

/-! ## Values

Of two calls one inside the other at least one passes over a code point, so `fuel` above twice the
length of the text is never used up. -/

mutual

/-- **A value**, which begins with the first code point. -/
def scan : Nat → Text → Scan Json
  | 0, s => .error (.expectingValue, s)
  | _ + 1, [] => .error (.expectingValue, [])
  | fuel + 1, c :: rest =>
    if c = '"' then (scanString (c :: rest) none rest).map fun (s, r) => (.string s, r)
    else if c = '[' then
      match skip rest with
      | [] => scanItems fuel [] []
      | d :: rest' => if d = ']' then .ok (.array [], rest') else scanItems fuel [] (d :: rest')
    else if c = '\x7b' then
      match skip rest with
      | [] => scanMembers fuel [] []
      | d :: rest' =>
        if d = '\x7d' then .ok (.object [], rest') else scanMembers fuel [] (d :: rest')
    else scanScalar (c :: rest)

/-- The items of an array after those `before`, in reverse, up to the closing bracket. -/
def scanItems : Nat → List Json → Text → Scan Json
  | 0, _, s => .error (.expectingValue, s)
  | fuel + 1, before, s =>
    match scan fuel s with
    | .error e => .error e
    | .ok (v, rest) =>
      match skip rest with
      | [] => .error (.expectingComma, [])
      | d :: rest' =>
        if d = ']' then .ok (.array (v :: before).reverse, rest')
        else if d = ',' then scanItems fuel (v :: before) (skip rest')
        else .error (.expectingComma, d :: rest')

/-- The members of an object after those `before`, up to the closing brace. -/
def scanMembers : Nat → Members → Text → Scan Json
  | 0, _, s => .error (.expectingValue, s)
  | _ + 1, _, [] => .error (.expectingName, [])
  | fuel + 1, before, q :: s =>
    if q = '"' then
      match scanString (q :: s) none s with
      | .error e => .error e
      | .ok (key, rest) =>
        match skip rest with
        | [] => .error (.expectingColon, [])
        | d :: rest =>
          if d = ':' then
            match scan fuel (skip rest) with
            | .error e => .error e
            | .ok (v, rest) =>
              match skip rest with
              | [] => .error (.expectingComma, [])
              | d :: rest' =>
                if d = '\x7d' then .ok (.object (Keyed.set before key v), rest')
                else if d = ',' then scanMembers fuel (Keyed.set before key v) (skip rest')
                else .error (.expectingComma, d :: rest')
          else .error (.expectingColon, d :: rest)
    else .error (.expectingName, q :: s)

end

/-- The problem met in a text, or its value: one value, with nothing but white space around it. -/
def scanAll (t : Text) : Except (Problem × Text) Json :=
  if t.head?.any (·.val = 0xFEFF) then .error (.byteOrderMark, t)
  else
    match scan (2 * t.length + 2) (skip t) with
    | .error e => .error e
    | .ok (v, rest) => if skip rest = [] then .ok v else .error (.extraData, skip rest)

/-- **The value of a JSON text.** -/
def read (t : Text) : Except Fault Json :=
  (scanAll t).mapError fun (problem, rest) => .after (t.take (t.length - rest.length)) problem

end Json

end BuildLint
