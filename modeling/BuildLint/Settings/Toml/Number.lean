import BuildLint.Json.Reader
import BuildLint.Settings.Toml.Basic
import BuildLint.Text.Digit

/-!
# Settings/Toml/Number — numbers, days and times of a settings document

A value without quotes and brackets is a number, a day or a time.

* `Number.whole?` and `Number.inBase?` — whole numbers, in decimal or in the base that they name.
* `Number.float?` — floating-point numbers.
* `Number.isStrict` — the rule on leading zeros and underscores.
* `Moment.isTime`, `Moment.isValid` and `Moment.isDate` — times of day, and days with or without
  one.

Numbers may have blanks around them and are written with the decimal digits of any script.  No
setting takes a day or a time, so they have no value here.
-/

namespace BuildLint

namespace Toml

namespace Number

/-! ## The signs of a number -/

/-- The blanks that may stand around a number: all but the information separators. -/
def isSpace (c : CodePoint) : Bool := c.isBlank && !(0x1C ≤ c.val && c.val ≤ 0x1F)

theorem digit_lt {d : Nat} (h : d < 10) : 48 + d < 0x110000 := by omega

/-- The ASCII digit for a decimal digit of any script. -/
def plainDigit (c : CodePoint) : CodePoint :=
  match c.digitValue? with
  | some d => if h : d < 10 then ⟨48 + d, digit_lt h⟩ else c
  | none => c

/-- A number without the blanks around it, in ASCII digits. -/
def plain (t : Text) : Text := (t.stripBoth isSpace).map plainDigit

/-- Whether a number has a minus sign, and the number without its sign. -/
def unsigned (t : Text) : Bool × Text :=
  match t with
  | [] => (false, [])
  | c :: rest => if c = '-' then (true, rest) else if c = '+' then (false, rest) else (false, t)

/-- A number without its underscores, each of which has to stand between two digits;
`afterDigit` says whether one stands in front. -/
def withoutUnderscores? (afterDigit : Bool) : Text → Option Text
  | [] => some []
  | c :: rest =>
    if c = '_' then
      if afterDigit && rest.head?.any CodePoint.isDigit then withoutUnderscores? false rest
      else none
    else (withoutUnderscores? c.isDigit rest).map (c :: ·)

/-- Whether a text is a run of one or more ASCII digits. -/
def isDigits (t : Text) : Bool := !t.isEmpty && t.all CodePoint.isDigit

theorem lowerLetter_lt {c : CodePoint} (h : c.within 'A' 'Z' = true) :
    c.val + 32 < 0x110000 := by
  have hz : c.val ≤ 90 := of_decide_eq_true ((Bool.and_eq_true _ _).mp h).2
  omega

/-- The lower-case letter for an upper-case one of ASCII. -/
def lowerPoint (c : CodePoint) : CodePoint :=
  if h : c.within 'A' 'Z' then ⟨c.val + 32, lowerLetter_lt h⟩ else c

/-- A text with the letters of ASCII in lower case. -/
def lower (t : Text) : Text := t.map lowerPoint

/-! ## Whole numbers -/

/-- The most digits that a whole number in decimal may have. -/
def maxDigits : Nat := 4300

/-- A run of digits in decimal. -/
def decimal? (digits : Text) : Option Nat :=
  if isDigits digits && digits.length ≤ maxDigits then some (Decimal.value digits) else none

/-- **A whole number in decimal.** -/
def whole? (t : Text) : Option Int := do
  let (negative, size) := unsigned (plain t)
  let n ← decimal? (← withoutUnderscores? false size)
  return if negative then -n else n

/-- A run of digits in a base up to sixteen. -/
def digitsIn? (base : Nat) (t : Text) : Option Nat := do
  let values ← t.mapM fun c => (Json.hexValue? c).filter (· < base)
  if values.isEmpty then none else some (values.foldl (fun n d => base * n + d) 0)

/-- A whole number without its sign, in the base that it names; in decimal only zero itself may
begin with a zero. -/
def sizeInBase? (t : Text) : Option Nat :=
  let head := lower (t.take 2)
  if head = "0x" then digitsIn? 16 (t.drop 2)
  else if head = "0o" then digitsIn? 8 (t.drop 2)
  else if head = "0b" then digitsIn? 2 (t.drop 2)
  else (decimal? t).filter fun n => n = 0 || !t.startsWith "0"

/-- **A whole number in the base that it names.** -/
def inBase? (t : Text) : Option Int := do
  let (negative, size) := unsigned (plain t)
  let n ← sizeInBase? size
  return if negative then -n else n

/-! ## Floating-point numbers -/

/-- The power of ten that an exponent names, with its mark in front; without one it is none. -/
def exponent? : Text → Option Int
  | [] => some 0
  | _ :: t =>
    let (negative, size) := unsigned t
    if isDigits size then some (if negative then -Decimal.value size else Decimal.value size)
    else none

/-- A floating-point number without its sign, in digits. -/
def size? (negative : Bool) (t : Text) : Option Binary64 := do
  let (number, exponent) := t.span fun (c : CodePoint) => c != 'e' && c != 'E'
  let scale ← exponent? exponent
  let (whole, fraction) := number.span fun (c : CodePoint) => c != '.'
  let digits := whole ++ fraction.drop 1
  if isDigits digits then
    return .ofDecimal negative (Decimal.value digits) (scale - (fraction.length - 1 : Nat))
  else none

/-- **A floating-point number**: digits with or without a point and an exponent, or a name. -/
def float? (t : Text) : Option Binary64 := do
  let (negative, size) := unsigned (← withoutUnderscores? false (plain t))
  if lower size = "inf" ∨ lower size = "infinity" then some (.infinity negative)
  else if lower size = "nan" then some .nan
  else size? negative size

/-- Zero less a number: the sign turns, and a zero has none. -/
def negate : Binary64 → Binary64
  | .nan => .nan
  | .infinity negative => .infinity !negative
  | .finite negative m e => .finite (!negative && m != 0) m e

/-! ## The rule on zeros and underscores -/

/-- Whether a number without its sign keeps the rule on leading zeros. -/
def leadsWell (follows : CodePoint → Bool) : Text → Bool
  | a :: b :: _ => a != '0' || follows b
  | _ => true

/-- **Whether a number is written strictly**: a leading zero only before a point or, without a sign,
before the letter of a base; underscores neither at an end, nor at a point, nor two in a row. -/
def isStrict (t : Text) : Bool :=
  let t := t.trim
  let size := (unsigned t).2
  let hasSign := size.length != t.length
  let underscore : CodePoint := '_'
  !t.isEmpty && t.head? != some underscore && t.getLast? != some underscore &&
    count "_." t = 0 && count "._" t = 0 &&
    (t.length = 1 ||
      (if hasSign then leadsWell (fun b => b = '.') size
        else leadsWell (fun b => b = '.' || b = 'o' || b = 'b' || b = 'x') t) &&
      count "__" size = 0)

end Number

namespace Moment

/-! ## Days and times -/

/-- Whether a text has the form of another in which zeros stand for digits. -/
def hasForm (form t : Text) : Bool :=
  form.length = t.length &&
    (form.zip t).all fun (f, c) => if f = '0' then c.isDigit else c = f

/-- **Whether a text begins with a time of day**, to the second. -/
def isTime (t : Text) : Bool := hasForm "00:00:00" (t.take 8)

/-- Whether hours, minutes and seconds are those of a day. -/
def isClock (hour minute second : Int) : Bool :=
  0 ≤ hour && hour < 24 && 0 ≤ minute && minute < 60 && 0 ≤ second && second < 60

/-- Whether the time that a text begins with is one of a day. -/
def isValid (t : Text) : Bool :=
  isClock (Decimal.value (t.take 2)) (Decimal.value ((t.drop 3).take 2))
    (Decimal.value ((t.drop 6).take 2))

/-- The days of a month. -/
def daysIn (year month : Int) : Int :=
  if month = 2 then if year % 4 = 0 ∧ (year % 100 ≠ 0 ∨ year % 400 = 0) then 29 else 28
  else if month = 4 ∨ month = 6 ∨ month = 9 ∨ month = 11 then 30
  else 31

/-- Whether a year, a month and a day are those of the calendar. -/
def isDay (year month day : Int) : Bool :=
  1 ≤ year && year ≤ 9999 && 1 ≤ month && month ≤ 12 && 1 ≤ day && day ≤ daysIn year month

/-- The whole number in part of a text. -/
def part? (start length : Nat) (t : Text) : Option Int :=
  Number.whole? ((t.drop start).take length)

/-- The fraction of a second and the zone that follow a time; a zone may be missing, and `Z` stands
for the zone of Greenwich. -/
def fractionAndZone (t : Text) : Text × Option Text :=
  let cut (c : CodePoint) : Option (Text × Option Text) :=
    (Text.cutAt? c t).map fun (fraction, zone) => (fraction, some (c :: zone))
  if t.getLast?.any fun (c : CodePoint) => c = 'Z' || c = 'z' then (t.dropLast, some "+00:00")
  else ((cut '+').or (cut '-')).getD (t, none)

/-- The fraction of a second behind a time, in millionths; one that cannot be read, or that stands
before a zone that cannot, counts as none. -/
def millionths (t : Text) : Int :=
  let (fraction, zone) := fractionAndZone t
  let isZone (z : Text) : Bool := (part? 1 2 z).isSome && (part? 4 2 z).isSome
  match Number.whole? fraction with
  | some n =>
    if !zone.all isZone then 0
    else if fraction.length ≤ 6 then n * (Nat.pow 10 (6 - fraction.length) : Nat)
    else n.tdiv (Nat.pow 10 (fraction.length - 6) : Nat)
  | none => 0

/-- Whether the time of day behind a day is one. -/
def isClockOf (t : Text) : Bool :=
  let fraction := if Text.beginsWith (t.drop 19) '.' then millionths (t.drop 20) else 0
  match part? 11 2 t, part? 14 2 t, part? 17 2 t with
  | some hour, some minute, some second =>
    isClock hour minute second && 0 ≤ fraction && fraction < 1000000
  | _, _, _ => false

/-- **Whether a text is a day, alone or with a time**: the numbers stand at their places, and there
is a hyphen behind the first sign. -/
def isDate (t : Text) : Bool :=
  match part? 0 4 t, part? 5 2 t, part? 8 2 t with
  | some year, some month, some day =>
    Text.holds (t.drop 1) '-' && isDay year month day && (t.length = 10 || isClockOf t)
  | _, _, _ => false

end Moment

end Toml

end BuildLint
