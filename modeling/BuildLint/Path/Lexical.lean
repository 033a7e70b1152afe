import BuildLint.Text.Basic

/-!
# Path/Lexical — paths as they are spelled

A path is text; nothing here looks at a disk.  Its **form** is the number of slashes that lead it
and the names between slashes.  Two leading slashes are kept apart from one, three or more count as
one.

* `tidy` — no empty and no `.` part.
* `normalize` — besides, every `..` takes the name before it away.
* `join`, `parent`, `resolve`, `levelsUp` — building one path from another.
* `isAtOrBelow` — whether a path is, or lies below, another.
-/

namespace BuildLint

namespace Path

/-- **The form of a path**: the slashes that lead it, and its names. -/
structure Form where
  slashes : Nat
  names : List Text
deriving DecidableEq

/-- The slashes that count at the front of a path. -/
def leadingSlashes (p : Text) : Nat :=
  if p.startsWith "//" && !p.startsWith "///" then 2 else if p.startsWith "/" then 1 else 0

/-- The parts of a path between its slashes, empty ones included. -/
def parts (p : Text) : List Text := p.cutWhere (· = '/')

/-- Whether a part names something: it is neither empty nor a single dot. -/
def isName (part : Text) : Bool := part != [] && part != "."

namespace Form

/-- The form that a path spells. -/
def ofText (p : Text) : Form := ⟨leadingSlashes p, (parts p).filter isName⟩

/-- The path that a form spells; the empty form is a dot. -/
def render (f : Form) : Text :=
  if f.slashes = 0 ∧ f.names = [] then "."
  else Text.run f.slashes '/' ++ Text.joinWith "/" f.names

end Form

/-- One name after the names `before`, in reverse: two dots take the last name away, unless there
is none to take. -/
def descend (anchored : Bool) (before : List Text) (name : Text) : List Text :=
  if name = ".." then
    match before with
    | [] => if anchored then [] else [name]
    | last :: rest => if last = ".." then name :: before else rest
  else name :: before

/-- **Names without needless dots**: every `..` goes together with the name before it, and at the
root it goes alone. -/
def collapse (anchored : Bool) (names : List Text) : List Text :=
  (names.foldl (descend anchored) []).reverse

/-- The form of a path with every `..` carried out. -/
def Form.collapsed (f : Form) : Form := ⟨f.slashes, collapse (f.slashes != 0) f.names⟩

/-- A path without empty and single-dot parts. -/
def tidy (p : Text) : Text := (Form.ofText p).render

/-- **The normal form of a path.** -/
def normalize (p : Text) : Text := (Form.ofText p).collapsed.render

/-- Whether a path starts at the root. -/
def isAbsolute (p : Text) : Bool := p.startsWith "/"

/-- **One path below another**; an absolute path stands for itself. -/
def join (base p : Text) : Text :=
  if isAbsolute p then p
  else if base = [] || base.endsWith "/" then base ++ p
  else base ++ "/" ++ p

/-- Drop the slashes at the end, unless there is nothing else. -/
def dropSlashes (p : Text) : Text :=
  if p.all (· = '/') then p else p.stripRight (· = '/')

/-- The path up to its last slash. -/
def parent (p : Text) : Text := dropSlashes (p.throughLast '/')

/-- The path after its last slash. -/
def lastName (p : Text) : Text := p.afterLast '/'

/-- The path so many levels above another. -/
def levelsUp (levels : Nat) (p : Text) : Text := Nat.repeat parent levels (normalize p)

/-- The tidy path without its last name. -/
def tidyParent (p : Text) : Text :=
  let f := Form.ofText p
  Form.render ⟨f.slashes, f.names.dropLast⟩

/-- A tidy path below another. -/
def below (base p : Text) : Text := tidy (join base p)

/-- **A path taken from a root**, in normal form. -/
def resolve (root p : Text) : Text := normalize (if isAbsolute p then p else join root p)

/-- What every path strictly below a normal path begins with. -/
def withSlash (p : Text) : Text := if p.endsWith "/" then p else p ++ "/"

/-- **Whether a path is, or lies below, another**, whatever way the two are spelled. -/
def isAtOrBelow (target base : Text) : Bool :=
  normalize target == normalize base ||
    (normalize target).startsWith (withSlash (normalize base))

/-- Whether a path is, or lies below, any of some paths. -/
def isCovered (bases : List Text) (target : Text) : Bool := bases.any (isAtOrBelow target)

example : normalize "a//b/./../c/" = "a/c" := by decide

example : normalize "//a/.." = "//" ∧ normalize "///a/.." = "/" := by decide

end Path

end BuildLint
