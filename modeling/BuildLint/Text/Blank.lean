import BuildLint.Text.Basic

/-!
# Text/Blank — white space and line ends

Three classes of code points, each a short table.

* `isBlank` — the white space of all scripts, which trimming removes.
* `isLineEnd` — the code points at which text falls into lines; carriage return and line feed
  together end one line.
* `lines` and `unifyLineEnds` — cutting into lines, and reading the line ends of any system as
  line feeds.
-/

namespace BuildLint

namespace CodePoint

/-- **White space** of all scripts. -/
def isBlank (c : CodePoint) : Bool :=
  (9 ≤ c.val && c.val ≤ 13) || (0x1C ≤ c.val && c.val ≤ 0x20) || c.val = 0x85 || c.val = 0xA0 ||
  c.val = 0x1680 || (0x2000 ≤ c.val && c.val ≤ 0x200A) || c.val = 0x2028 || c.val = 0x2029 ||
  c.val = 0x202F || c.val = 0x205F || c.val = 0x3000

/-- **Line ends**: line feed, carriage return, vertical tab, form feed, three information
separators, next line, and the line and paragraph separators. -/
def isLineEnd (c : CodePoint) : Bool :=
  (0x0A ≤ c.val && c.val ≤ 0x0D) || (0x1C ≤ c.val && c.val ≤ 0x1E) || c.val = 0x85 ||
  c.val = 0x2028 || c.val = 0x2029

/-- Every line end is white space. -/
theorem isBlank_of_isLineEnd {c : CodePoint} (h : c.isLineEnd = true) : c.isBlank = true := by
  simp only [isLineEnd, isBlank, Bool.or_eq_true, Bool.and_eq_true, decide_eq_true_eq] at h ⊢
  omega

end CodePoint

namespace Text

/-- Trim white space from both ends. -/
def trim (t : Text) : Text := t.stripBoth CodePoint.isBlank

/-- Trim white space from the end. -/
def trimRight (t : Text) : Text := t.stripRight CodePoint.isBlank

/-- Whether nothing but white space stands in a text. -/
def isBlank (t : Text) : Bool := t.all CodePoint.isBlank

/-- Read a carriage return and a line feed together as one line feed. -/
def mergeCrLf : Text → Text
  | [] => []
  | c :: rest =>
    if c = '\r' ∧ Text.beginsWith rest '\n' then mergeCrLf rest else c :: mergeCrLf rest

/-- Read every line end of any system as a line feed. -/
def unifyLineEnds (t : Text) : Text := replace '\r' '\n' (mergeCrLf t)

/-- **The lines of a text**, without their ends; what follows the last end is a line only if it is
not empty. -/
def lines (t : Text) : List Text :=
  let pieces := cutWhere CodePoint.isLineEnd (mergeCrLf t)
  if pieces.getLast? = some [] then pieces.dropLast else pieces

end Text

end BuildLint
