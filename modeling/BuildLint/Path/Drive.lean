import BuildLint.Path.Lexical

/-!
# Path/Drive — paths with drives and backslashes

A path on a system with drives begins with a drive letter and a colon, or with two backslashes, a
server and a share; then come its names, after backslashes or slashes.  A path without any
backslash is spelled with slashes alone and has no drive.

* `splitDrive` — the drive, and what follows it.
* `normalize` — the normal form, spelled with backslashes.
* `splitLast` — the last name, and what stands before it, for either spelling.
* `namesFromEnd` — all names, last one first.
-/

namespace BuildLint

namespace Path

namespace Drive

/-- Whether a code point parts the names of a path. -/
def isSeparator (c : CodePoint) : Bool := c = '\\' || c = '/'

/-- The lower-case letters of ASCII as upper-case ones. -/
def upperCase (c : CodePoint) : CodePoint :=
  if c.within 'a' 'z' then (CodePoint.ofNat? (c.val - 32)).getD c else c

/-- The place of a code point at or after a position. -/
def indexFrom (c : CodePoint) (start : Nat) (p : Text) : Option Nat :=
  ((p.drop start).findIdx? (· = c)).map (· + start)

/-- The length of a drive that begins with two backslashes: up to the second separator after the
server's name, or the whole path. -/
def shareLength (p : Text) : Nat :=
  let start := if (p.take 8).map upperCase = "\\\\?\\UNC\\" then 8 else 2
  match (indexFrom '\\' start p).bind fun i => indexFrom '\\' (i + 1) p with
  | some n => n
  | none => p.length

/-- How much of a path is its drive. -/
def driveLength (p : Text) : Nat :=
  let q := p.replace '/' '\\'
  if q.startsWith "\\\\" then shareLength q
  else if Text.beginsWith (q.drop 1) ':' then 2
  else 0

/-- **The drive of a path**, and what follows it. -/
def splitDrive (p : Text) : Text × Text := (p.take (driveLength p), p.drop (driveLength p))

/-- **The normal form of a path with a drive.** -/
def normalize (p : Text) : Text :=
  let (drive, rest) := splitDrive (p.replace '/' '\\')
  let anchored := rest.startsWith "\\"
  let names := collapse anchored ((rest.cutWhere (· = '\\')).filter isName)
  let lead := if anchored then drive ++ "\\" else drive
  if lead = [] ∧ names = [] then "." else lead ++ Text.joinWith "\\" names

end Drive

/-- **The two ways to spell a path.** -/
inductive Spelling where
  | slashes
  | drives

namespace Spelling

/-- A path that holds a backslash is spelled with drives. -/
def ofPath (p : Text) : Spelling := if p.holds '\\' then drives else slashes

/-- The normal form of a path. -/
def normalize : Spelling → Text → Text
  | slashes => Path.normalize
  | drives => Drive.normalize

/-- How much of a path is its drive. -/
def driveLength : Spelling → Text → Nat
  | slashes, _ => 0
  | drives, p => Drive.driveLength p

/-- Whether a code point parts the names of a path. -/
def isSeparator : Spelling → CodePoint → Bool
  | slashes, c => c = '/'
  | drives, c => Drive.isSeparator c

/-- The last name of a path; it is empty when the path ends with a separator. -/
def lastName (s : Spelling) (p : Text) : Text :=
  ((p.drop (s.driveLength p)).reverse.takeWhile fun c => !s.isSeparator c).reverse

/-- What stands before the last name, without the separators at its end unless there is nothing
else. -/
def beforeLast (s : Spelling) (p : Text) : Text :=
  let head : Text :=
    ((p.drop (s.driveLength p)).reverse.dropWhile fun c => !s.isSeparator c).reverse
  p.take (s.driveLength p) ++
    (if head.all s.isSeparator then head else head.stripRight s.isSeparator)

theorem length_stripRight_le (q : CodePoint → Bool) (t : Text) :
    (t.stripRight q).length ≤ t.length := by
  rw [Text.stripRight, List.length_reverse, ← @List.length_reverse _ t]
  exact (List.dropWhile_sublist q).length_le

/-- Taking the last name off makes a path shorter. -/
theorem length_beforeLast_add_lastName_le (s : Spelling) (p : Text) :
    (s.beforeLast p).length + (s.lastName p).length ≤ p.length := by
  have hcut := congrArg List.length (@List.takeWhile_append_dropWhile _
    (fun c => !s.isSeparator c) (p.drop (s.driveLength p)).reverse)
  have hdrive := congrArg List.length (List.take_append_drop (s.driveLength p) p)
  simp only [List.length_append, List.length_reverse] at hcut hdrive
  simp only [beforeLast, lastName, List.length_append, List.length_reverse]
  split
  · simp only [List.length_reverse]; omega
  · have := length_stripRight_le s.isSeparator
      ((p.drop (s.driveLength p)).reverse.dropWhile fun c => !s.isSeparator c).reverse
    simp only [List.length_reverse] at this
    omega

/-- **The names of a path, last one first**, up to the first empty one.  Each step leaves a shorter
path. -/
def namesFromEnd (s : Spelling) (p : Text) : List Text :=
  if s.lastName p = [] then []
  else s.lastName p :: namesFromEnd s (s.beforeLast p)
termination_by p.length
decreasing_by
  have := length_beforeLast_add_lastName_le s p
  have : 0 < (s.lastName p).length := List.length_pos_iff.2 ‹_›
  omega

end Spelling

end Path

end BuildLint
