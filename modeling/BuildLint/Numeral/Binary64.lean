import BuildLint.Numeral.Decimal

/-!
# Numeral/Binary64 — floating-point numbers of 64 bits, exactly

A number is kept as what it stands for: a sign, a mantissa and a power of two.  Reading and writing
are exact arithmetic on natural numbers.

* `ofDecimal` — the number nearest to a decimal, the even mantissa on a tie.
* `shortest` — the decimal with the fewest digits that reads back as the number, the nearest one
  if there are several.
* `render` — that decimal in positional or scientific form.
-/

namespace BuildLint

/-- **A floating-point number**: not a number, an infinity, or `± mantissa · 2 ^ exponent`. -/
inductive Binary64 where
  | nan
  | infinity (negative : Bool)
  | finite (negative : Bool) (mantissa : Nat) (exponent : Int)
deriving DecidableEq

namespace Binary64

/-- The least exponent, which zero and the numbers below `2 ^ (-1022)` have. -/
def minExponent : Int := -1074

/-- The greatest exponent of a finite number. -/
def maxExponent : Int := 971

/-- Zero with a sign. -/
def zero (negative : Bool) : Binary64 := .finite negative 0 minExponent

/-- The quotient rounded to the nearest integer, to the even one on a tie. -/
def roundDiv (num den : Nat) : Nat :=
  let q := num / den
  let r := num % den
  if 2 * r < den then q else if 2 * r > den then q + 1 else q + q % 2

/-- **The number nearest to a positive fraction**; the exponent is the least one that leaves the
mantissa below `2 ^ 53`. -/
def ofRatio (negative : Bool) (num den : Nat) : Binary64 :=
  let quotient (e : Int) (div : Nat → Nat → Nat) : Nat :=
    div (num * Nat.pow 2 (-e).toNat) (den * Nat.pow 2 e.toNat)
  let guess := max ((Nat.log2 num : Int) - Nat.log2 den - 52) minExponent
  let e :=
    if quotient guess (· / ·) < Nat.pow 2 52 ∧ minExponent < guess then guess - 1 else guess
  let m := quotient e roundDiv
  let (m, e) := if m = Nat.pow 2 53 then (Nat.pow 2 52, e + 1) else (m, e)
  if maxExponent < e then .infinity negative else .finite negative m e

/-- **The number nearest to `± digits · 10 ^ scale`.**  Decimals far outside the range are
recognised by their size, so that no huge power is computed. -/
def ofDecimal (negative : Bool) (digits : Nat) (scale : Int) : Binary64 :=
  if digits = 0 then zero negative
  else if 310 < scale + (Nat.log2 digits * 3 / 10 : Nat) then .infinity negative
  else if scale + (Nat.log2 digits / 3 + 2 : Nat) < -330 then zero negative
  else ofRatio negative (digits * Nat.pow 10 scale.toNat) (Nat.pow 10 (-scale).toNat)

/-! ## The shortest decimal

The decimals that read back as `m · 2 ^ e` fill the interval between the midpoints to its two
neighbours, ends included when `m` is even.  All bounds are counted in quarters of `2 ^ e`: the
upper midpoint is two quarters away, the lower one too, or only one where the spacing halves. -/

/-- The interval of the decimals that read back, over a common denominator. -/
structure Interval where
  low : Nat
  mid : Nat
  high : Nat
  den : Nat
  closed : Bool

/-- The interval around `m · 2 ^ e`. -/
def interval (m : Nat) (e : Int) : Interval :=
  let gap := if m = Nat.pow 2 52 ∧ minExponent < e then 1 else 2
  let scale := Nat.pow 2 (e - 2).toNat
  ⟨(4 * m - gap) * scale, 4 * m * scale, (4 * m + 2) * scale, Nat.pow 2 (2 - e).toNat, m % 2 = 0⟩

/-- The multiple of `10 ^ k` nearest to the middle of an interval, if one lies in it. -/
def Interval.onGrid? (i : Interval) (k : Int) : Option Nat :=
  let up := Nat.pow 10 (-k).toNat
  let unit := i.den * Nat.pow 10 k.toNat
  let inside (c : Nat) : Bool :=
    if i.closed then i.low * up ≤ c * unit ∧ c * unit ≤ i.high * up
    else i.low * up < c * unit ∧ c * unit < i.high * up
  let c := i.mid * up / unit
  let nearest := roundDiv (i.mid * up) unit
  if inside nearest then some nearest
  else if inside c then some c
  else if inside (c + 1) then some (c + 1)
  else none

/-- The power of ten at or below the middle of an interval. -/
def Interval.magnitude (i : Interval) : Int :=
  if i.den ≤ i.mid then (Nat.toDigits 10 (i.mid / i.den)).length - 1
  else
    match (List.range 400).find? fun j => i.den ≤ i.mid * Nat.pow 10 j with
    | some j => -j
    | none => -400

/-- **The shortest decimal** `digits · 10 ^ scale` that reads back as `m · 2 ^ e`; seventeen digits
are always enough. -/
def shortest (m : Nat) (e : Int) : Nat × Int :=
  let i := interval m e
  let top := i.magnitude
  ((List.range 17).findSome? fun (n : Nat) =>
    (i.onGrid? (top - n)).map fun c => (c, top - n)).getD (0, 0)

/-! ## Text -/

/-- How a number is laid out: the powers of ten written positionally, and the names of what is no
finite number. -/
structure Layout where
  lowest : Int := -4
  highest : Int := 15
  infinity : Text
  nan : Text

/-- So many zeros. -/
def zeros (n : Nat) : Text := Text.run n '0'

/-- A decimal in positional form: always a point, and a digit on each side of it. -/
def positional (digits : Text) (scale : Int) : Text :=
  let point := digits.length + scale
  if point ≤ 0 then "0." ++ zeros (-point).toNat ++ digits
  else if 0 ≤ scale then digits ++ zeros scale.toNat ++ ".0"
  else digits.take point.toNat ++ "." ++ digits.drop point.toNat

/-- A decimal in scientific form: one digit before the point, a signed exponent of at least two
digits. -/
def scientific (digits : Text) (scale : Int) : Text :=
  let exponent := digits.length + scale - 1
  let fraction : Text := if digits.length = 1 then [] else "." ++ digits.drop 1
  let mark : Text := if exponent < 0 then "e-" else "e+"
  let size := Decimal.ofNat exponent.natAbs
  digits.take 1 ++ fraction ++ mark ++ zeros (2 - size.length) ++ size

/-- A finite number without its sign. -/
def renderMagnitude (layout : Layout) (m : Nat) (e : Int) : Text :=
  if m = 0 then "0.0"
  else
    let (value, scale) := shortest m e
    let written := Decimal.ofNat value
    let digits := written.stripRight (· = '0')
    let scale := scale + (written.length - digits.length : Nat)
    let top := digits.length + scale - 1
    if layout.lowest ≤ top ∧ top ≤ layout.highest then positional digits scale
    else scientific digits scale

/-- **The text of a number.** -/
def render (layout : Layout) : Binary64 → Text
  | .nan => layout.nan
  | .infinity negative => (if negative then "-" else "") ++ layout.infinity
  | .finite negative m e => (if negative then "-" else "") ++ renderMagnitude layout m e

end Binary64

end BuildLint
