import BuildLint.Json.Access
import BuildLint.Text.Blank

/-!
# Settings/Toml/Basic — what stops a settings document, and quotes and backslashes

A document that breaks the format is **malformed**.  The rules of the format leave some documents
open; reading one of those stops at a step that cannot be taken.

* `Toml.Problem` — why reading stops.
* `isQuote`, `isEscaped`, `quoteSplits` — quotes, backslashes before them, and a text cut at its
  quotes.
* `cutNth` — a text in two, at one of the occurrences of a separator.
-/

namespace BuildLint

namespace Toml

/-- **Why a document cannot be read.** -/
inductive Problem where
  /-- It breaks the format. -/
  | malformed
  /-- A part is asked for that a value or a text does not have. -/
  | access (fault : Json.AccessFault)
  /-- An escape names a number that is too large for any code point. -/
  | tooLarge
  /-- A text of several lines has an empty key. -/
  | noValue

/-- The problem of a text that ends too early. -/
def Problem.ended : Problem := .access (@Json.AccessFault.outOfRange 0)

/-- The problem of a value that has no parts. -/
def Problem.noParts : Problem := .access .wrongShape

/-- What a reader gives. -/
abbrev Result := Except Problem

/-! ## Quotes -/

/-- The quote between which backslashes escape. -/
def Quote.double : CodePoint := '"'

/-- The quote between which all stands for itself. -/
def Quote.single : CodePoint := '\''

/-- Either quote. -/
def isQuote (c : CodePoint) : Bool := c = Quote.double || c = Quote.single

/-- Whether an odd number of backslashes stands at the front of a text; applied to what lies behind
a quote, in reverse, it says whether the quote is escaped. -/
def isOdd (behind : Text) : Bool :=
  (behind.takeWhile fun (c : CodePoint) => c = '\\').length % 2 = 1

/-- Whether what follows a text is escaped by a backslash at its end. -/
def isEscaped (before : Text) : Bool := isOdd before.reverse

/-- The part between the first `n` and the last `n` code points. -/
def inner (n : Nat) (t : Text) : Text := (t.drop n).take (t.length - 2 * n)

/-- Whether a text opens and ends with the same quote, which may be one and the same. -/
def isQuoted (t : Text) : Bool := t.head? = t.getLast? && t.head?.any isQuote

/-- Pieces between double quotes that complete the pieces between single ones before them: as long
as a single quote is open, a double quote is part of the text. -/
def absorb : List Text → List Text → List Text × List Text
  | singles, [] => (singles, [])
  | singles, d :: doubles =>
    if singles.length % 2 = 0 then
      let last : Text := singles.getLast?.getD [] ++ Quote.double :: d
      absorb (singles.dropLast ++ last.cutWhere (· = Quote.single)) doubles
    else (singles, d :: doubles)

/-- Pieces between double quotes, the first of which is cut at its single quotes. -/
def cutFirst : List Text → List Text
  | [] => []
  | first :: rest => first.cutWhere (· = Quote.single) ++ rest

/-- **A line cut at its quotes**: the pieces lie outside and inside quotes in turn. -/
def quoteSplits (line : Text) : List Text :=
  match line.cutWhere (· = Quote.double) with
  | first :: second :: rest =>
    if first.holds Quote.single then
      let (singles, doubles) := absorb (first.cutWhere (· = Quote.single)) (second :: rest)
      singles ++ cutFirst doubles
    else cutFirst (first :: second :: rest)
  | pieces => cutFirst pieces

/-! ## Cutting at one of several separators -/

/-- How often a separator occurs. -/
def count (sep t : Text) : Nat := (t.splitOn sep).length - 1

/-- **Which occurrence of a separator counts**: the first that lies outside quotes, numbered from
one; of pieces of a line cut at its quotes, the first is `quoted` or not. -/
def firstOutside (sep : Text) : Bool → List Text → Nat
  | _, [] => 1
  | quoted, piece :: rest =>
    if !quoted && 0 < count sep piece then 1
    else count sep piece + firstOutside sep (!quoted) rest

/-- **What stands before and after the `n`-th occurrence of a separator**, or after its last one if
there are fewer. -/
def cutNth (sep : Text) (n : Nat) (t : Text) : Text × Text :=
  let pieces := t.splitOn sep
  let n := min n (pieces.length - 1)
  (Text.joinWith sep (pieces.take n), Text.joinWith sep (pieces.drop n))

end Toml

end BuildLint
