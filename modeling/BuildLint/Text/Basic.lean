/-!
# Text/Basic — text as a list of code points

Replies and logs are JSON, and a JSON string may hold half of a surrogate pair, which no `Char` is.
`Text` is therefore a list of **code points**: every number below `0x110000`, surrogates included.

* `cutWhere`, `splitOn` and `joinWith` — cutting at a class of code points or at a separator, and
  putting the pieces back together.
* `stripBoth` — removing a class of code points from both ends.
* `replace` — one code point for another.
* `Boundary.holdsAt` — a class of code points, by the places where it begins and ends.

A string literal stands for its text by coercion, a character literal for its code point.
-/

namespace BuildLint

/-- **A code point**: any number below `0x110000`, the two surrogate ranges included. -/
structure CodePoint where
  val : Nat
  val_lt : val < 0x110000
deriving DecidableEq

namespace CodePoint

/-- The code point of a character. -/
def ofChar (c : Char) : CodePoint :=
  ⟨c.val.toNat, by have := c.valid; simp only [UInt32.isValidChar, Nat.isValidChar] at this; omega⟩

instance : Coe Char CodePoint := ⟨ofChar⟩

instance : Inhabited CodePoint := ⟨' '⟩

instance : LT CodePoint := ⟨fun a b => a.val < b.val⟩

instance (a b : CodePoint) : Decidable (a < b) := inferInstanceAs (Decidable (a.val < b.val))

/-- The code point with a given number, if there is one. -/
def ofNat? (n : Nat) : Option CodePoint := if h : n < 0x110000 then some ⟨n, h⟩ else none

/-- The character with a given code point; half of a surrogate pair has none and becomes the
replacement character. -/
def toChar (c : CodePoint) : Char :=
  if 0xD800 ≤ c.val ∧ c.val < 0xE000 then '\uFFFD' else Char.ofNat c.val

/-- Whether a code point lies between two characters, both included. -/
def within (c : CodePoint) (lo hi : Char) : Bool :=
  lo.val.toNat ≤ c.val && c.val ≤ hi.val.toNat

/-- The ten digits of ASCII. -/
def isDigit (c : CodePoint) : Bool := c.within '0' '9'

/-- The letters of ASCII. -/
def isLetter (c : CodePoint) : Bool := c.within 'a' 'z' || c.within 'A' 'Z'

/-- The first half of a surrogate pair. -/
def isHighSurrogate (c : CodePoint) : Bool := 0xD800 ≤ c.val && c.val < 0xDC00

/-- The second half of a surrogate pair. -/
def isLowSurrogate (c : CodePoint) : Bool := 0xDC00 ≤ c.val && c.val < 0xE000

/-- Either half of a surrogate pair. -/
def isSurrogate (c : CodePoint) : Bool := 0xD800 ≤ c.val && c.val < 0xE000

end CodePoint

/-- **Text**: a list of code points. -/
abbrev Text := List CodePoint

namespace Text

/-- The text a string spells. -/
def ofString (s : String) : Text := s.toList.map CodePoint.ofChar

instance : Coe String Text := ⟨ofString⟩

/-- The string a text spells, with the replacement character for half of a surrogate pair. -/
def toString (t : Text) : String := String.ofList (t.map CodePoint.toChar)

/-- So many copies of a code point. -/
def run (n : Nat) (c : CodePoint) : Text := List.replicate n c

/-- Whether a text begins with another. -/
def startsWith (t head : Text) : Bool := head.isPrefixOf t

/-- Whether a text begins with a code point. -/
def beginsWith (t : Text) (c : CodePoint) : Bool := t.head? == some c

/-- Whether a code point occurs in a text. -/
def holds (t : Text) (c : CodePoint) : Bool := t.any (· = c)

/-- Whether a text ends with another. -/
def endsWith (t tail : Text) : Bool := tail.reverse.isPrefixOf t.reverse

/-! ## Cutting and joining -/

/-- Put a code point in front of the first piece. -/
def consFirst (c : CodePoint) : List Text → List Text
  | [] => [[c]]
  | piece :: pieces => (c :: piece) :: pieces

/-- The pieces of a text between the code points of a class. -/
def cutWhere (p : CodePoint → Bool) : Text → List Text
  | [] => [[]]
  | c :: rest => if p c then [] :: cutWhere p rest else consFirst c (cutWhere p rest)

/-- The pieces of a text between the occurrences of a separator, found from left to right without
overlap; `skip` counts the code points of an occurrence that are still to be passed over. -/
def splitFrom (sep : Text) : Nat → Text → List Text
  | _, [] => [[]]
  | skip + 1, _ :: rest => splitFrom sep skip rest
  | 0, c :: rest =>
    if sep.isPrefixOf (c :: rest) then [] :: splitFrom sep (sep.length - 1) rest
    else consFirst c (splitFrom sep 0 rest)

/-- **Cutting at a separator**: the pieces between its occurrences, one more than there are
occurrences.  The separator is not empty. -/
def splitOn (t sep : Text) : List Text := splitFrom sep 0 t

/-- **Joining with a separator**: it stands between neighbours only. -/
def joinWith (sep : Text) : List Text → Text
  | [] => []
  | [piece] => piece
  | piece :: next :: pieces => piece ++ sep ++ joinWith sep (next :: pieces)

/-- What stands before and after the first occurrence of a code point, if it occurs. -/
def cutAt? (c : CodePoint) : Text → Option (Text × Text)
  | [] => none
  | d :: rest => if d = c then some ([], rest) else (cutAt? c rest).map fun (a, b) => (d :: a, b)

/-- Drop a class of code points from the end. -/
def stripRight (p : CodePoint → Bool) (t : Text) : Text := (t.reverse.dropWhile p).reverse

/-- Drop a class of code points from both ends. -/
def stripBoth (p : CodePoint → Bool) (t : Text) : Text := stripRight p (t.dropWhile p)

/-- One code point for every occurrence of another. -/
def replace (old new : CodePoint) (t : Text) : Text := t.map fun c => if c = old then new else c

/-- The part after the last occurrence of a code point, the whole text if it does not occur. -/
def afterLast (c : CodePoint) (t : Text) : Text := (t.reverse.takeWhile (· ≠ c)).reverse

/-- The part up to and including the last occurrence of a code point, nothing if it does not
occur. -/
def throughLast (c : CodePoint) (t : Text) : Text := (t.reverse.dropWhile (· ≠ c)).reverse

/-! ## Small laws -/

@[simp] theorem joinWith_nil (sep : Text) : joinWith sep [] = [] := rfl

@[simp] theorem joinWith_singleton (sep piece : Text) : joinWith sep [piece] = piece := rfl

theorem joinWith_cons_cons (sep piece next : Text) (pieces : List Text) :
    joinWith sep (piece :: next :: pieces) = piece ++ sep ++ joinWith sep (next :: pieces) := rfl

/-- The last occurrence cuts a text in two. -/
theorem throughLast_append_afterLast (c : CodePoint) (t : Text) :
    throughLast c t ++ afterLast c t = t := by
  rw [throughLast, afterLast, ← List.reverse_append, List.takeWhile_append_dropWhile,
    List.reverse_reverse]

end Text

namespace Boundary

/-- **Whether a class of code points holds at a number**, by its boundaries in increasing order:
membership turns over at each, and is `on` before the first. -/
def holdsAt (n : Nat) : Bool → List Nat → Bool
  | on, [] => on
  | on, b :: rest => if n < b then on else holdsAt n (!on) rest

end Boundary

end BuildLint
